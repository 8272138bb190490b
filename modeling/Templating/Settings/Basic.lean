import Templating.Engine.Basic
import Templating.Settings.Draft
import Templating.Settings.LogLevel
import Templating.Text.Blank
import Templating.Text.Cut

/-!
# Settings

The checked settings of the program. `Settings.ofDraft` trims the texts of a draft, fills in what
was left open, and refuses the draft at the first setting, in the order of their declaration, that
nothing can work with. `Settings.engineOptions` are the options of the engine that they ask for.
-/

namespace Templating

structure Settings where
  logLevel : LogLevel := .info
  /-- Whether the log is written as JSON. -/
  logJson : Bool := false
  folders : FolderNames := {}
  extension : String := ".hbs"
  /-- How long a compiled view lives after its last use; none means that views are not kept. -/
  viewsSlidingSecs : Option Nat := some 300
  /-- The text in front of all keys of the cache; none asks for a unique one. -/
  keyPrefix : Option String := none
  timings : Timings := {}
  deriving DecidableEq

namespace Settings

inductive Refusal
  | logLevel
  | emptyFolder (key : String)
  /-- The name of a folder holds a slash. -/
  | nestedFolder (key : String)
  | extension (text : String)
  | keyPrefix
  | zero (key : String)
  deriving DecidableEq

namespace Refusal

def key : Refusal → String
  | .logLevel => "logging.level"
  | .emptyFolder key | .nestedFolder key | .zero key => key
  | .extension _ => "views.extension"
  | .keyPrefix => "views.cache_key_prefix"

def reason : Refusal → String
  | .logLevel =>
    "failed to parse: error parsing level filter: expected one of " ++
      "\"off\", \"error\", \"warn\", \"info\", \"debug\", \"trace\", or a number 0-5"
  | .emptyFolder _ => "must not be empty"
  | .nestedFolder _ => "must be a single folder name"
  | .extension text => s!"`{text}` must be a dot followed by a name"
  | .keyPrefix => "must be non-empty and must not contain ':'"
  | .zero _ => "must be greater than zero"

def message (r : Refusal) : String := s!"invalid configuration for `{r.key}`: {r.reason}"

end Refusal

/-! ## Checking one setting -/

def checkLogLevel : Option String → Except Refusal LogLevel
  | none => .ok .info
  | some text =>
    match LogLevel.read? text with
    | some level => .ok level
    | none => .error .logLevel

/-- Whether a text names more than one folder. -/
def isNested (name : String) : Bool := name.toList.contains '/'

def checkFolder (key default : String) (given : Option String) : Except Refusal String :=
  let name := (given.map Text.trim).getD default
  if name = "" then .error (.emptyFolder key)
  else if isNested name then .error (.nestedFolder key)
  else .ok name

/-- The name of a folder that is not used when its name is empty. -/
def checkOptionalFolder (key default : String) (given : Option String) : Except Refusal String :=
  let name := (given.map Text.trim).getD default
  if isNested name then .error (.nestedFolder key) else .ok name

/-- Whether a text is a dot and a name. -/
def isExtension (text : String) : Bool :=
  2 ≤ text.utf8ByteSize && text.toList.head? == some '.' && !text.toList.contains '/'

def checkExtension (default : String) (given : Option String) : Except Refusal String :=
  let text := (given.map Text.trim).getD default
  if isExtension text then .ok text else .error (.extension text)

/-- Whether a text can stand in front of the keys of a cache. -/
def isKeyPrefix (text : String) : Bool := text != "" && !text.toList.contains ':'

def checkKeyPrefix : Option String → Except Refusal (Option String)
  | none => .ok none
  | some text =>
    if isKeyPrefix (Text.trim text) then .ok (some (Text.trim text)) else .error .keyPrefix

def checkPositive (key : String) (default : Nat) (given : Option Nat) : Except Refusal Nat :=
  if given.getD default = 0 then .error (.zero key) else .ok (given.getD default)

/-! ## Checking a draft -/

def checkFolders (d : Draft) : Except Refusal FolderNames := do
  let base : FolderNames := {}
  let views ← checkFolder "views.views_folder" base.views d.viewsFolder
  let areas ← checkFolder "views.areas_folder" base.areas d.areasFolder
  let partials ← checkFolder "views.partials_folder" base.partials d.partialsFolder
  let layouts ← checkFolder "views.layouts_folder" base.layouts d.layoutsFolder
  let shared ← checkOptionalFolder "views.shared_folder" base.shared d.sharedFolder
  let allowControllerless := d.allowControllerless.getD base.allowControllerless
  return { views, areas, partials, layouts, shared, allowControllerless }

def checkTimings (d : Draft) : Except Refusal Timings := do
  let base : Timings := {}
  let pollMs ← checkPositive "cache.poll_interval_ms" base.pollMs d.pollMs
  let missingRetryMs ← checkPositive "cache.missing_retry_ms" base.missingRetryMs d.missingRetryMs
  let missingSlidingSecs ←
    checkPositive "cache.missing_sliding_secs" base.missingSlidingSecs d.missingSlidingSecs
  let viewRecheckMs ← checkPositive "cache.view_recheck_ms" base.viewRecheckMs d.viewRecheckMs
  let compileFailureRetryMs ←
    checkPositive "cache.compile_failure_retry_ms" base.compileFailureRetryMs
      d.compileFailureRetryMs
  let sweepMs ← checkPositive "cache.sweep_interval_ms" base.sweepMs d.sweepMs
  return {
    pollMs, missingRetryMs, missingSlidingSecs, viewRecheckMs, compileFailureRetryMs, sweepMs }

def ofDraft (d : Draft) : Except Refusal Settings := do
  let base : Settings := {}
  let logLevel ← checkLogLevel d.logLevel
  let folders ← checkFolders d
  let extension ← checkExtension base.extension d.extension
  let keyPrefix ← checkKeyPrefix d.keyPrefix
  let timings ← checkTimings d
  let sliding := (d.viewsSlidingSecs.or base.viewsSlidingSecs).filter (· != 0)
  return {
    logLevel, folders, extension, keyPrefix, timings
    logJson := d.logJson.getD base.logJson
    viewsSlidingSecs := sliding }

/-- The options of the engine that the settings ask for. -/
def engineOptions (s : Settings) : EngineOptions :=
  { folders := s.folders
    extension := s.extension
    viewsSliding := s.viewsSlidingSecs.map .ofSeconds
    keyPrefix := s.keyPrefix
    timings := s.timings }

end Settings

end Templating
