import Templating.Text.Cut

/-!
# File trees

A tree of files, folders and symbolic links, as an operating system keeps it. Every node but the
root has a place, the names that lead to it from the root. A path is followed name by name: empty
names and `.` stay, `..` goes up, and a link leads on to its target, at most forty times.
-/

namespace Templating

inductive Node
  | file (content : ByteArray)
  | folder
  /-- A link to the path made of the given names, from the root. -/
  | link (target : List String)

/-- A tree; the root is always there. -/
structure Tree where
  nodes : List (List String × Node) := []

inductive PathFault
  | missing
  | notFolder
  | isFolder
  | nameTooLong
  | tooManyLinks
  | nulByte
  deriving DecidableEq

namespace PathFault

def message : PathFault → String
  | .missing => "No such file or directory (os error 2)"
  | .notFolder => "Not a directory (os error 20)"
  | .isFolder => "Is a directory (os error 21)"
  | .nameTooLong => "File name too long (os error 36)"
  | .tooManyLinks => "Too many levels of symbolic links (os error 40)"
  | .nulByte => "file name contained an unexpected NUL byte"

end PathFault

namespace Tree

/-- The most links that are followed on the way. -/
def maxLinks : Nat := 40

/-- The most bytes of a name. -/
def maxName : Nat := 255

/-- The most bytes of a path. -/
def maxPath : Nat := 4079

def node? (t : Tree) (place : List String) : Option Node :=
  if place = [] then some .folder else t.nodes.lookup place

inductive End
  | file (place : List String) (content : ByteArray)
  | folder (place : List String)

/-- Follows names from the folder at `here`. -/
def follow (t : Tree) (links : Nat) (here names : List String) : Except PathFault End :=
  match names with
  | [] => .ok (.folder here)
  | name :: rest =>
    if name = "" ∨ name = "." then t.follow links here rest
    else if name = ".." then t.follow links here.dropLast rest
    else if maxName < name.utf8ByteSize then .error .nameTooLong
    else
      match t.node? (here ++ [name]) with
      | none => .error .missing
      | some .folder => t.follow links (here ++ [name]) rest
      | some (.file content) =>
        if rest = [] then .ok (.file (here ++ [name]) content) else .error .notFolder
      | some (.link target) =>
        match links with
        | 0 => .error .tooManyLinks
        | links + 1 => t.follow links [] (target ++ rest)
termination_by (links, names.length)

/-- Follows a path from the folder at `base`. -/
def find (t : Tree) (base : List String) (path : String) : Except PathFault End :=
  if path.toList.contains '\x00' then .error .nulByte
  else if maxPath < path.utf8ByteSize then .error .nameTooLong
  else if Text.startsWith "/" path then t.follow maxLinks [] (Text.split '/' path)
  else t.follow maxLinks base (Text.split '/' path)

def isFile (t : Tree) (base : List String) (path : String) : Bool :=
  match t.find base path with
  | .ok (.file ..) => true
  | _ => false

def isFolder (t : Tree) (base : List String) (path : String) : Bool :=
  match t.find base path with
  | .ok (.folder _) => true
  | _ => false

def read (t : Tree) (base : List String) (path : String) : Except PathFault ByteArray :=
  match t.find base path with
  | .ok (.file _ content) => .ok content
  | .ok (.folder _) => .error .isFolder
  | .error fault => .error fault

/-- The names of the files, not of links to files, directly in a folder. -/
def fileNames (t : Tree) (base : List String) (path : String) : List String :=
  match t.find base path with
  | .ok (.folder place) =>
    t.nodes.filterMap fun
      | (p, .file _) => if p.dropLast = place then p.getLast? else none
      | _ => none
  | _ => []

/-! ## Changing a tree -/

def put (t : Tree) (place : List String) (node : Node) : Tree :=
  ⟨(place, node) :: t.nodes.filter fun n => n.1 != place⟩

/-- The names of a path without those that stay. -/
def steps (path : String) : List String :=
  (Text.split '/' path).filter fun name => name != "" && name != "."

/-- Whether something new can have this name. -/
def isNewName (name : String) : Bool :=
  name != "" && name != "." && name != ".." && name.utf8ByteSize ≤ maxName

/-- The place of a new node under a path from the root, if its folder exists. -/
def newPlace? (t : Tree) (names : List String) : Option (List String) :=
  match names.getLast?, t.follow maxLinks [] names.dropLast with
  | some name, .ok (.folder place) => if isNewName name then some (place ++ [name]) else none
  | _, _ => none

/-- Makes a folder at the end of a path from the root, unless there is one. All above it must be
there. -/
def makeFolder (t : Tree) (names : List String) : Except PathFault Tree :=
  match t.follow maxLinks [] names with
  | .ok (.folder _) => .ok t
  | .ok (.file ..) => .error .notFolder
  | .error _ => do
    match ← t.follow maxLinks [] names.dropLast with
    | .file .. => throw .notFolder
    | .folder place =>
      let name := names.getLast?.getD ""
      if maxName < name.utf8ByteSize then throw .nameTooLong
      else if (t.node? (place ++ [name])).isSome then throw .notFolder
      else return t.put (place ++ [name]) .folder

/-- Makes a folder at the end of the first path. When something above it is missing, those above,
which the other paths lead to, are made before, and stay also if the first cannot be made. -/
def makeFirst (t : Tree) : (paths : List (List String)) → Bool × Tree
  | [] => (true, t)
  | names :: above =>
    match t.makeFolder names with
    | .ok t => (true, t)
    | .error .missing =>
      let (made, t) := t.makeFirst above
      match made, t.makeFolder names with
      | true, .ok t => (true, t)
      | _, _ => (false, t)
    | .error _ => (false, t)

/-- The paths of the folders above a path, from the inside out. -/
def above (base : List String) (path : String) : List (List String) :=
  let names := steps path
  (List.range names.length).reverse.map fun n => base ++ names.take n

/-- Whether a path can be asked for at all. -/
def isUsable (path : String) : Bool :=
  !path.toList.contains '\x00' && path.utf8ByteSize ≤ maxPath

/-- Makes a folder and those above it; whether it is there now. -/
def makeFolders (t : Tree) (base : List String) (path : String) : Bool × Tree :=
  let names := ((Text.split '/' path).reverse.dropWhile (· == "")).reverse
  if isUsable path then t.makeFirst ((base ++ names) :: above base path) else (false, t)

/-- Writes a file whose folder exists, at the end of any links. -/
def writeFile (t : Tree) (links : Nat) (names : List String) (content : ByteArray) : Option Tree :=
  match t.follow maxLinks [] names with
  | .ok (.file place _) => some (t.put place (.file content))
  | .error .missing =>
    match t.newPlace? names with
    | none => none
    | some place =>
      match t.node? place with
      | none => some (t.put place (.file content))
      | some (.link target) =>
        match links with
        | 0 => none
        | links + 1 => t.writeFile links target content
      | some _ => none
  | _ => none

/-- Writes a file and the folders above it. Where it cannot be written nothing changes but those
folders. -/
def write (t : Tree) (base : List String) (path : String) (content : ByteArray) : Tree :=
  if isUsable path then
    let (_, t) := t.makeFirst (above base path)
    (t.writeFile maxLinks (base ++ steps path) content).getD t
  else t

def remove? (t : Tree) (base : List String) (path : String) : Option Tree := do
  guard (isUsable path)
  let place ← t.newPlace? (base ++ Text.split '/' path)
  match t.node? place with
  | some (.file _) | some (.link _) => some ⟨t.nodes.filter fun n => n.1 != place⟩
  | _ => none

def link? (t : Tree) (base : List String) (path target : String) : Option Tree := do
  guard (isUsable path && isUsable target)
  let place ← t.newPlace? (base ++ Text.split '/' path)
  if (t.node? place).isSome then none
  else some (t.put place (.link (base ++ Text.split '/' target)))

end Tree

end Templating
