import Templating.CommandLine.Request
import Templating.CommandLine.Stop
import Templating.Text.Case
import Templating.Text.Count

/-!
# Options

The options of the program. Each knows how its value is written and where it is noted down.
-/

namespace Templating.CommandLine

structure Given where
  configFile : Option String := none
  overrides : Settings.Overrides := {}
  area : Option String := none
  controller : Option String := none
  root : Option String := none
  view : Option String := none
  layout : Option String := none
  isPartial : Bool := false
  data : Option String := none
  dataFile : Option String := none
  intervalMs : Option Nat := none

/-- How the value of an option is read and noted down. -/
inductive Value
  /-- A switch has no value. -/
  | none (note : Given → Given)
  | text (note : String → Given → Given)
  /-- The path of a file or folder, which is not empty. -/
  | path (note : String → Given → Given)
  | count (note : Nat → Given → Given)
  | truth (note : Bool → Given → Given)

structure Opt where
  /-- The name, without the hyphens in front. -/
  name : String
  value : Value
  /-- What the value is called in the help. -/
  valueName : String := ""
  help : String

/-- The truth value that a word stands for, in any case of letters. -/
def truth? (word : String) : Option Bool :=
  if ["y", "yes", "t", "true", "on", "1"].contains (Text.lower word) then some true
  else if ["n", "no", "f", "false", "off", "0"].contains (Text.lower word) then some false
  else none

namespace Opt

def isSwitch (o : Opt) : Bool :=
  match o.value with
  | .none _ => true
  | _ => false

/-- Notes the option down with the value that `word` stands for. -/
def note (o : Opt) (word : String) (g : Given) : Except Stop Given :=
  match o.value with
  | .none note => .ok (note g)
  | .text note => .ok (note word g)
  | .path note => if word = "" then .error (.missingValue o.name) else .ok (note word g)
  | .count note =>
    match Text.count? word with
    | some n => .ok (note n g)
    | none => .error (.invalidValue o.name word)
  | .truth note =>
    match truth? word with
    | some b => .ok (note b g)
    | none => .error (.invalidValue o.name word)

/-! ## The options of the program -/

def configFile : Opt where
  name := "config-file"
  value := .path fun v g => { g with configFile := some v }
  valueName := "PATH"
  help := "Optional path to a configuration file [env: VELLUM_CONFIG_FILE=]"

/-- The options that go before all other settings. -/
def overrides : List Opt :=
  [{ name := "log-level"
     value := .text fun v g => { g with overrides.logLevel := some v }
     valueName := "LEVEL"
     help := "Override the base log level (trace|debug|info|warn|error)" },
   { name := "log-json"
     value := .truth fun v g => { g with overrides.logJson := some v }
     valueName := "BOOL"
     help := "Toggle JSON logging" },
   { name := "views-extension"
     value := .text fun v g => { g with overrides.extension := some v }
     valueName := "EXT"
     help := "Override the template file extension" },
   { name := "views-sliding-seconds"
     value := .count fun v g => { g with overrides.viewsSlidingSecs := some v }
     valueName := "SECONDS"
     help := "Override the compiled view sliding lifetime; 0 disables view caching" },
   { name := "views-allow-controllerless"
     value := .truth fun v g => { g with overrides.allowControllerless := some v }
     valueName := "BOOL"
     help := "Also search the bare views folder" },
   { name := "cache-key-prefix"
     value := .text fun v g => { g with overrides.keyPrefix := some v }
     valueName := "PREFIX"
     help := "Override the cache key prefix" },
   { name := "cache-poll-interval-ms"
     value := .count fun v g => { g with overrides.pollMs := some v }
     valueName := "MILLIS"
     help := "Override the partial folder polling interval" }]

def group : List Opt :=
  [{ name := "area"
     value := .text fun v g => { g with area := some v }
     valueName := "AREA"
     help := "Area of the group, if any" },
   { name := "controller"
     value := .text fun v g => { g with controller := some v }
     valueName := "CONTROLLER"
     help := "Controller of the group" }]

def rendering : List Opt :=
  [{ name := "root"
     value := .path fun v g => { g with root := some v }
     valueName := "DIR"
     help := "Directory mapped to `~/` [default: .]" },
   { name := "layout"
     value := .text fun v g => { g with layout := some v }
     valueName := "LAYOUT"
     help := "Explicit layout, replacing the view's own declaration" },
   { name := "partial"
     value := .none fun g => { g with isPartial := true }
     help := "Resolve the view alone, without layouts" },
   { name := "data"
     value := .text fun v g => { g with data := some v }
     valueName := "JSON"
     help := "Model as an inline JSON object" },
   { name := "data-file"
     value := .path fun v g => { g with dataFile := some v }
     valueName := "PATH"
     help := "Model read from a JSON file" }]

def interval : Opt where
  name := "interval-ms"
  value := .count fun v g => { g with intervalMs := some v }
  valueName := "MILLIS"
  help := "Delay between renders [default: 1000]"

end Opt

end Templating.CommandLine
