import Templating.Digest.Sha256
import Templating.Source.Basic
import Templating.Source.Path
import Templating.Source.Tree
import Templating.Text.Utf8

/-!
# Files in a folder of a file tree

The root mark `~/` of a path stands for the folder. A path that starts with a slash behind the mark
or has a name `..` is refused, so that nothing outside the folder is seen but through links. The
source cannot tell of changes.
-/

namespace Templating

structure Directory where
  tree : Tree := {}
  /-- The place of the folder. -/
  root : List String

namespace Directory

/-- A path as seen from the folder. -/
def relative (path : String) : String := (Text.stripStart "~/" path).getD path

/-- Whether a path, seen from the folder, would lead out of it. -/
def escapes (path : String) : Bool :=
  Text.startsWith "/" path || (Text.split '/' path).contains ".."

/-- The path seen from the folder, if it does not lead out of it. -/
def resolve (path : String) : Except StoreError String :=
  if escapes (relative path) then .error (.unsupported path "path escapes the store root")
  else .ok (relative path)

def isFile (d : Directory) (path : String) : Bool :=
  match resolve path with
  | .ok inner => d.tree.isFile d.root inner
  | .error _ => false

def isFolder (d : Directory) (path : String) : Bool :=
  match resolve path with
  | .ok inner => d.tree.isFolder d.root inner
  | .error _ => false

/-- The files directly in a folder, each under the path by which the folder was asked for. -/
def list (d : Directory) (path : String) : List String :=
  match resolve path with
  | .ok inner =>
    let names := d.tree.fileNames d.root inner
    (names.map (asFolder path ++ ·)).mergeSort fun a b => decide (a ≤ b)
  | .error _ => []

def readBytes (d : Directory) (path : String) : Except StoreError ByteArray := do
  let inner ← resolve path
  match d.tree.read d.root inner with
  | .ok bytes => .ok bytes
  | .error .missing => .error (.notFound path)
  | .error fault => .error (.io path fault.message)

/-- The content of a file, which must be UTF-8. -/
def read (d : Directory) (path : String) : Except StoreError String := do
  (Text.Utf8.decode (← d.readBytes path)).mapError fun fault => .io path fault.message

def fingerprint (d : Directory) (path : String) : Except StoreError String :=
  (d.readBytes path).map fun bytes => Digest.Sha256.hexDigest bytes.toList

def source : Source Directory where
  isFile path := return (← get).world.isFile path
  isFolder path := return (← get).world.isFolder path
  list path := return (← get).world.list path
  read path := return (← get).world.read path
  fingerprint path := return (← get).world.fingerprint path
  watch _ := return .ok none
  capacity d := d.tree.nodes.length

end Directory

end Templating
