import Templating.CommandLine.Help
import Templating.Engine.Resolve
import Templating.Json.Reader
import Templating.Settings.Load
import Templating.Source.Directory

/-!
# The program

What the program does with a command line on a host. It writes the output of the request, or it
fails with a message and an exit code. What is checked first tells its fault first: the command
line, the settings, the folder of the templates, the group, the model, and then the view.
-/

namespace Templating

namespace Program

open CommandLine

structure Ending where
  output : String := ""
  /-- What is told beside the output. -/
  complaint : String := ""
  exitCode : Nat := 0

/-- The variable that may name the file to read settings from. -/
def configVariable : String := "VELLUM_CONFIG_FILE"

/-! ## The parts of a request -/

def groupOf (names : GroupNames) : Except Failure Group :=
  match names.area with
  | some area => (Group.make area names.controller).mapError .domain
  | none => (Group.ofController names.controller).mapError .domain

def readModel (h : Host) (path : String) : Except Failure Json := do
  let bytes ← (h.read path).mapError fun fault => .file path fault.message
  let text ← (Text.Utf8.decode bytes).mapError fun _ =>
    .file path "stream did not contain valid UTF-8"
  match Json.read? text with
  | some model => return model
  | none => throw (.validation s!"`{path}` is not valid JSON")

/-- The data of a request; without any the model is null. -/
def modelOf (h : Host) (r : RenderRequest) : Except Failure (Bindings Json) := do
  let model ←
    match r.data, r.dataFile with
    | some text, _ =>
      match Json.read? text with
      | some model => pure model
      | none => throw (.validation "--data is not valid JSON")
    | none, some path => readModel h path
    | none, none => pure .null
  (Bindings.ofModel model).mapError .domain

def directoryOf (h : Host) (root : String) : Except Failure Directory :=
  match h.tree.find h.folder root with
  | .ok (.folder place) => .ok ⟨h.tree, place⟩
  | _ => .error (.validation s!"`{root}` is not a directory")

/-! ## Requests -/

/-- A cache that holds nothing yet, with the templates of a folder. -/
def freshSession (d : Directory) : Session Entry (Poller Directory) Directory :=
  let (flag, signals) := ({} : Signals).issueFlag
  ⟨{ epoch := 0, flag }, { signals, world := d }⟩

def composition (e : Engine Directory) (g : Group) (r : RenderRequest)
    (s : Session Entry (Poller Directory) Directory) : Except Failure Composition := do
  let resolving :=
    if r.isPartial then e.resolvePartial 0 g r.view else e.resolve 0 g r.view r.layout
  match (resolving s).1 with
  | .error cause => throw (.view cause)
  | .ok (.notFound searched) => throw (.notFound r.view searched)
  | .ok (.found view) => return view

def render (h : Host) (settings : Settings) (r : RenderRequest) : Except Failure String := do
  let directory ← directoryOf h r.root
  let start := freshSession directory
  let (engine, session) := Engine.create Directory.source {} settings.engineOptions 0 start
  let engine ← engine.mapError Failure.view
  let group ← groupOf r.group
  let model ← modelOf h r
  let view ← composition engine group r session
  (view.render model).mapError fun cause => .view (.template cause)

/-- The folders that are searched for a group, under headings. -/
def folderList (settings : Settings) (g : Group) : String :=
  let folders := settings.folders
  let lists := [("views", folders.viewFolders g), ("layouts", folders.layoutFolders g),
    ("partials", folders.partialFolders g)]
  String.join <| lists.map fun (heading, paths) =>
    heading ++ ":\n" ++ String.join (paths.map fun path => "  " ++ path ++ "\n")

def serve (h : Host) (settings : Settings) : Command → Except Failure String
  | .render r | .watch r _ => (· ++ "\n") <$> render h settings r
  | .paths _ names => do return folderList settings (← groupOf names)

/-! ## Command lines -/

/-- The request that a command line makes on a host. -/
def request (h : Host) (words : List String) : Except Stop Request :=
  CommandLine.read (h.environment.lookup configVariable) words

def settingsFor (h : Host) (r : Request) : Except Failure Settings :=
  (Settings.load h r.configFile r.command.overrides).mapError fun cause =>
    .configuration s!"failed to load configuration: {cause.message}"

/-- The end that a stop in the command line leads to. -/
def endingOfStop (s : Stop) : Ending :=
  match s with
  | .help command => { output := helpText command }
  | .version => { output := versionText }
  | .nothingGiven => { complaint := helpText none, exitCode := s.exitCode }
  | _ => { complaint := s!"error: {s.message}\n", exitCode := s.exitCode }

def endingOfFailure (f : Failure) : Ending :=
  { complaint := s!"error: {f.message}\n", exitCode := f.exitCode }

/-- Runs the program on the words of a command line. -/
def run (h : Host) (words : List String) : Ending :=
  match request h words with
  | .error stop => endingOfStop stop
  | .ok r =>
    match settingsFor h r >>= fun settings => serve h settings r.command with
    | .error failure => endingOfFailure failure
    | .ok output => { output }

end Program

end Templating
