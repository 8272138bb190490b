import Templating.Host
import Templating.Json.Reader
import Templating.Settings.Basic
import Templating.Settings.Overlay
import Templating.Settings.Reading
import Templating.Text.Utf8

/-!
# Finding the settings

The layers of the settings are, each over the one before: the file `config/default.json`, the file
`vellum.json`, the file that the caller names, the environment and the overrides of the caller. The
first two files may be missing.
-/

namespace Templating.Settings

inductive LoadError
  /-- There is no file to read settings from under the name that the caller gave. -/
  | noFile (name : String)
  /-- A file does not hold one JSON object. -/
  | noObject (path : String)
  /-- A setting cannot be read as what it should be. -/
  | mistyped
  | refused (cause : Refusal)
  deriving DecidableEq

namespace LoadError

def message : LoadError → String
  | .noFile name => s!"failed to build configuration: configuration file \"{name}\" not found"
  | .noObject path => s!"failed to build configuration: `{path}` does not hold a JSON object"
  | .mistyped => "failed to build configuration: a value has the wrong type"
  | .refused cause => cause.message

end LoadError

/-! ## Files -/

/-- The settings files that are looked for in the working folder, without their extension. -/
def standardFiles : List String := ["config/default", "vellum"]

/-- Whether the last name of a path is a name with the extension `.json`. -/
def isJsonName (path : String) : Bool :=
  let last := ((Text.split '/' path).filter (· != "")).getLast?.getD ""
  Text.dropMark ".json".toList.reverse last.toList.reverse |>.any (!·.isEmpty)

/-- A path, given from its end, without the slashes there and the names `.` behind them. -/
def dropEmptyNames : List Char → List Char
  | '/' :: cs => dropEmptyNames cs
  | '.' :: '/' :: cs => dropEmptyNames cs
  | cs => cs

/-- The path with `.json` behind its last name. The names `.` and `..` are not extended. -/
def withJsonExtension? (path : String) : Option String :=
  let cs := dropEmptyNames path.toList.reverse
  if ["", ".", ".."].contains (String.ofList (cs.takeWhile (· != '/')).reverse) then none
  else some (String.ofList cs.reverse ++ ".json")

/-- The path of the file called `name`: that very path, if there is a file, or else the one with
`.json` behind. A file that is there without that extension is not one to read settings from. -/
def filePath? (h : Host) (name : String) : Option String :=
  if h.isFile name then if isJsonName name then some name else none
  else (withJsonExtension? name).filter h.isFile

/-- The text without a byte order mark at its start. -/
def withoutMark (s : String) : String := (Text.stripStart "\uFEFF" s).getD s

def fileLayer (h : Host) (path : String) : Except LoadError (List (String × Json)) :=
  let text? := (h.read path).toOption.bind fun bytes => (Text.Utf8.decode bytes).toOption
  match text?.bind fun text => Json.read? (withoutMark text) with
  | some (.obj members) => .ok members
  | _ => .error (.noObject path)

/-- The layer in a file that may be missing. -/
def standardLayer (h : Host) (name : String) : Except LoadError (List (String × Json)) :=
  match filePath? h name with
  | some path => fileLayer h path
  | none => .ok []

/-- The layer in the file that the caller names, if any. -/
def namedLayer (h : Host) : Option String → Except LoadError (List (String × Json))
  | none => .ok []
  | some name =>
    match filePath? h name with
    | some path => fileLayer h path
    | none => .error (.noFile name)

/-! ## The environment -/

/-- What the names of variables start with, in any case of letters, that give settings. -/
def variableMark : String := "vellum__"

/-- A name with a dot for each two underscores. -/
def dotted : List Char → List Char
  | '_' :: '_' :: cs => '.' :: dotted cs
  | c :: cs => c :: dotted cs
  | [] => []

/-- The path of the setting that a variable gives. -/
def variablePath? (name : String) : Option String :=
  (Text.stripStart variableMark (Text.lower name)).map fun rest =>
    String.ofList (dotted rest.toList)

/-- The layer in the environment; of two variables for one setting the later counts. -/
def environmentLayer (environment : List (String × String)) : List (String × Json) :=
  Sorted.ofList (environment.filterMap fun (name, value) =>
    (variablePath? name).map fun path => (path, Json.str value))

/-! ## All layers -/

/-- The settings of a host, for a caller that may name a file and gives overrides. -/
def load (h : Host) (file : Option String) (o : Overrides) : Except LoadError Settings := do
  let files ← standardFiles.mapM (standardLayer h)
  let named ← namedLayer h file
  let layers := files ++ [named, environmentLayer h.environment]
  match Draft.ofJson? (layers.foldl overlayLayer (.obj [])) with
  | none => throw .mistyped
  | some draft => (ofDraft (draft.override o)).mapError .refused

end Templating.Settings
