import Templating.Source.Store

/-!
# Stores under observation

An observed store counts the calls to its source. Calls on chosen paths can be made to fail, and
changes can be set up that happen right behind a call, when its result is fixed but not yet handed
over, as a change by another process might.
-/

namespace Templating

inductive Call
  | isFile
  | isFolder
  | list
  | read
  | fingerprint
  | watch
  deriving DecidableEq

/-- How often a source was called. -/
structure Usage where
  isFile : Nat := 0
  list : Nat := 0
  read : Nat := 0
  fingerprint : Nat := 0

/-- A change behind a call: the file `target` is written, or removed. -/
structure Race where
  call : Call
  path : String
  target : String
  content : Option String

/-- A store with what is counted and what is set up. -/
structure Observed (S : Type) where
  inner : S
  usage : Usage := {}
  /-- The calls that fail. -/
  faults : List (Call × String) := []
  /-- The changes to come. Each happens once. -/
  races : List Race := []

namespace Usage

/-- Counts a call; asking for folders and watching are free. -/
def count (u : Usage) : Call → Usage
  | .isFile => { u with isFile := u.isFile + 1 }
  | .list => { u with list := u.list + 1 }
  | .read => { u with read := u.read + 1 }
  | .fingerprint => { u with fingerprint := u.fingerprint + 1 }
  | .isFolder | .watch => u

def total (u : Usage) : Nat := u.isFile + u.list + u.read + u.fingerprint

end Usage

namespace Observed

variable {S : Type}

def within {α : Type} (act : Act S α) : Act (Observed S) α :=
  Source.within Observed.inner (fun o inner => { o with inner }) act

/-- The first change set up behind a call, and the others. -/
def takeRace (call : Call) (path : String) : List Race → Option (Race × List Race)
  | [] => none
  | r :: races =>
    if r.call = call ∧ r.path = path then some (r, races)
    else (takeRace call path races).map fun (found, others) => (found, r :: others)

/-- Lets the first change happen that is set up behind a call. -/
def race (s : Store S) (call : Call) (path : String) : Act (Observed S) Unit := do
  match takeRace call path (← get).world.races with
  | none => return
  | some (r, races) =>
    modify fun scene => { scene with world.races := races }
    match r.content with
    | some content => within (s.write r.target content)
    | none =>
      let _ ← within (s.remove r.target)

/-- A counted call, which answers `failed` where it was made to fail. -/
def call {α : Type} (s : Store S) (call : Call) (path : String) (failed : α) (act : Act S α) :
    Act (Observed S) α := do
  modify fun scene => { scene with world.usage := scene.world.usage.count call }
  let faulty := (← get).world.faults.contains (call, path)
  let answer ← if faulty then pure failed else within act
  race s call path
  return answer

/-- The error of a call that was made to fail. -/
def injected (path : String) : StoreError := .io path "injected"

/-- An observed store as a store. Changes from outside are not observed. -/
def store (s : Store S) : Store (Observed S) where
  isFile path := call s .isFile path false (s.isFile path)
  isFolder path := call s .isFolder path false (s.isFolder path)
  list path := call s .list path [] (s.list path)
  read path := call s .read path (.error (injected path)) (s.read path)
  fingerprint path := call s .fingerprint path (.error (injected path)) (s.fingerprint path)
  watch path := call s .watch path (.error (injected path)) (s.watch path)
  capacity o := s.capacity o.inner + o.races.length
  write path content := within (s.write path content)
  remove path := within (s.remove path)

end Observed

end Templating
