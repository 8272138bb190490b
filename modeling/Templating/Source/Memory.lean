import Templating.Digest.Sha256
import Templating.Source.Basic
import Templating.Source.Path
import Templating.Sorted

/-!
# Files in memory

Files are kept in ascending order of their paths. Folders are implicit: a folder exists while some
file lies below it. A store that pushes changes hands out a token for each request to watch a path,
fires it at the first change it covers, and then forgets it. Who was handed a token may let go of
it; what is watched for nobody is forgotten when the next token is handed out.
-/

namespace Templating

structure Memory where
  /-- Paths and contents, in ascending order of the paths. -/
  files : List (String × String) := []
  /-- Whether the store hands out tokens. -/
  push : Bool
  /-- Who watches what. -/
  watchers : List (String × Token) := []
  /-- Tokens that nobody but the store has any more. -/
  orphans : List Token := []

namespace Memory

/-- Fires the tokens that a change at `path` concerns. -/
def notify (path : String) : Act Memory Unit := modify fun scene =>
  let (told, others) := scene.world.watchers.partition fun w => covers w.1 path
  { scene with
    signals := told.foldl (fun s w => s.fire w.2) scene.signals
    world := { scene.world with watchers := others } }

def write (path content : String) : Act Memory Unit := do
  modify fun scene =>
    { scene with world.files := Sorted.put path content scene.world.files }
  notify path

/-- Removes a file; whether there was one. -/
def remove (path : String) : Act Memory Bool := do
  let m := (← get).world
  if (m.files.lookup path).isSome then
    modify fun scene =>
      { scene with world.files := scene.world.files.filter fun f => f.1 != path }
    notify path
    return true
  else
    return false

/-- The paths from `folder` on that start with it. -/
def below (m : Memory) (folder : String) : List String :=
  ((m.files.map Prod.fst).dropWhile (decide <| · < folder)).takeWhile (Text.startsWith folder)

/-- Whether a path lies in `folder` itself and not deeper. -/
def isDirectChild (folder path : String) : Bool :=
  (Text.stripStart folder path).any fun rest => !rest.toList.contains '/'

def isFolder (m : Memory) (path : String) : Bool := !(m.below (asFolder path)).isEmpty

/-- The files directly in a folder. -/
def list (m : Memory) (path : String) : List String :=
  (m.below (asFolder path)).filter (isDirectChild (asFolder path))

def read (m : Memory) (path : String) : Except StoreError String :=
  match m.files.lookup path with
  | some content => .ok content
  | none => .error (.notFound path)

/-- What is watched for somebody who still has the token. -/
def attended (m : Memory) : List (String × Token) :=
  m.watchers.filter fun w => !m.orphans.contains w.2

/-- A token for a path, if the store pushes changes. What is watched for nobody is forgotten. -/
def watch (path : String) : Act Memory (Option Token) := fun scene =>
  if scene.world.push then
    let (token, signals) := scene.signals.issueToken
    let watchers := (path, token) :: scene.world.attended
    (some token, { scene with signals, world := { scene.world with watchers, orphans := [] } })
  else (none, scene)

/-- A token is let go of by all that had it. -/
def release (t : Token) : Act Memory Unit := modify fun scene =>
  { scene with world.orphans := t :: scene.world.orphans }

def digest (content : String) : String := Digest.Sha256.hexDigest content.toUTF8.toList

def source : Source Memory where
  isFile path := return ((← get).world.files.lookup path).isSome
  isFolder path := return (← get).world.isFolder path
  list path := return (← get).world.list path
  read path := return (← get).world.read path
  fingerprint path := return ((← get).world.read path).map digest
  watch path := return .ok (← watch path)
  capacity m := m.files.length

end Memory

end Templating
