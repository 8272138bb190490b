import Templating.Program

/-!
# The command

Reads what the program needs of the machine into a `Host`, runs the program on it, and writes what
it answers. All decisions are the program's own.
-/

open Templating

namespace Templating.Main

/-- The place that a path leads to from a folder, when no links are followed. -/
def placeOf (folder : List String) (path : String) : List String :=
  let start := if Text.startsWith "/" path then [] else folder
  let enter := fun (place : List String) name =>
    if name = ".." then place.dropLast else place ++ [name]
  (Tree.steps path).foldl enter start

/-- Notes the folder at a place, and those above it. -/
def noteFolder (t : Tree) (place : List String) : Tree :=
  (t.makeFolders [] ("/".intercalate place)).2

def readFile (folder : List String) (t : Tree) (path : String) : IO Tree := do
  let place := placeOf folder path
  try
    let bytes ← IO.FS.readBinFile path
    return (noteFolder t place.dropLast).put place (.file bytes)
  catch _ => return t

/-- Reads the folders and files below a folder, down to a depth that ends rings of links. -/
def readFolder (folder : List String) : (depth : Nat) → Tree → String → IO Tree
  | 0, t, _ => return t
  | depth + 1, t, path => do
    try
      let entries ← (← IO.FS.realPath path).readDir
      let mut t := noteFolder t (placeOf folder path)
      for entry in entries do
        let inner := path ++ "/" ++ entry.fileName
        if ← entry.path.isDir then t ← readFolder folder depth t inner
        else t ← readFile folder t inner
      return t
    catch _ => return t

/-- The most folders that lie in one another. -/
def maxDepth : Nat := 40

/-- The files that a request may need, beside those below the folder of the templates. -/
def filesFor (configFile dataFile : Option String) : List String :=
  let configs := Settings.standardFiles ++ configFile.toList
  configs ++ configs.filterMap Settings.withJsonExtension? ++ dataFile.toList

/-- What a request needs of the machine. -/
def hostFor (base : Host) (r : CommandLine.Request) : IO Host := do
  let (root, dataFile) :=
    match r.command with
    | .render q | .watch q _ => (some q.root, q.dataFile)
    | .paths .. => (none, none)
  let mut tree := noteFolder {} base.folder
  for path in filesFor r.configFile dataFile do
    tree ← readFile base.folder tree path
  for path in root.toList do
    tree ← readFolder base.folder maxDepth tree path
  return { base with tree }

/-- The variables that settings may be read from. -/
def settingVariables : IO (List (String × String)) := do
  let sections := [("LOGGING", ["LEVEL", "JSON"]),
    ("VIEWS", ["VIEWS_FOLDER", "AREAS_FOLDER", "PARTIALS_FOLDER", "LAYOUTS_FOLDER", "SHARED_FOLDER",
      "ALLOW_CONTROLLERLESS", "EXTENSION", "VIEWS_SLIDING_SECONDS", "CACHE_KEY_PREFIX"]),
    ("CACHE", ["POLL_INTERVAL_MS", "MISSING_RETRY_MS", "MISSING_SLIDING_SECS", "VIEW_RECHECK_MS",
      "COMPILE_FAILURE_RETRY_MS", "SWEEP_INTERVAL_MS"])]
  let names := Program.configVariable :: sections.flatMap fun (group, fields) =>
    fields.map fun field => s!"VELLUM__{group}__{field}"
  names.filterMapM fun name => do return (← IO.getEnv name).map fun value => (name, value)

def report (e : Program.Ending) : IO UInt32 := do
  (← IO.getStdout).putStr e.output
  (← IO.getStdout).flush
  (← IO.getStderr).putStr e.complaint
  return UInt32.ofNat e.exitCode

/-- Runs a request again and again, and writes what it answers whenever that has changed. -/
partial def watch (base : Host) (r : CommandLine.Request) (words : List String) (intervalMs : Nat)
    (last : Option String) : IO UInt32 := do
  let e := Program.run (← hostFor base r) words
  if e.exitCode ∉ [0, 1, 2] then report e
  else
    let output? := if e.exitCode = 0 then some e.output else none
    if output?.isSome && output? != last then let _ ← report e
    IO.sleep (UInt32.ofNat (max 1 intervalMs))
    watch base r words intervalMs output?

end Templating.Main

def main (words : List String) : IO UInt32 := do
  let folder := Tree.steps (← IO.currentDir).toString
  let base : Host := { folder, environment := ← Main.settingVariables }
  match Program.request base words with
  | .error stop => Main.report (Program.endingOfStop stop)
  | .ok r =>
    match r.command with
    | .watch _ intervalMs => Main.watch base r words intervalMs none
    | _ => Main.report (Program.run (← Main.hostFor base r) words)
