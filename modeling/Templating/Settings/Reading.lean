import Templating.Decimal.Style
import Templating.Json.Basic
import Templating.Settings.Draft
import Templating.Text.Case
import Templating.Text.Count

/-!
# Reading settings

The fields of a draft are read from JSON. Texts, numbers and truth values stand in for one another
where that can be understood, so that a variable of the environment, always a text, can give any
setting. Each section is an object or an array of its fields in order. Null leaves a field open, and
fields that are not known are passed over.
-/

namespace Templating.Settings

/-! ## Values -/

/-- A text, or a number or truth value as it is written. -/
def textOf? : Json → Option String
  | .str s => some s
  | .bool b => some (if b then "true" else "false")
  | .int n => some (toString n)
  | .real x => some (Decimal.Style.plain.render x)
  | _ => none

def truthOfWord? (word : String) : Option Bool :=
  if ["1", "true", "on", "yes"].contains word then some true
  else if ["0", "false", "off", "no"].contains word then some false
  else none

/-- A truth value, a word for one, or whether a number is not zero. -/
def truthOf? : Json → Option Bool
  | .bool b => some b
  | .int n => some (n != 0)
  | .real x => some (x != 0.0)
  | .str s => truthOfWord? (Text.lower s)
  | _ => none

/-- The nearest count to a float. -/
def countOfFloat (x : Float) : Nat := x.round.toUInt64.toNat

def countOfWord? (word : String) : Option Nat :=
  if ["true", "on", "yes"].contains (Text.lower word) then some 1
  else if ["false", "off", "no"].contains (Text.lower word) then some 0
  else Text.count? word

/-- A whole number that is not negative, a float rounded to one, a truth value as 0 or 1, or a word
for one of these. -/
def countOf? : Json → Option Nat
  | .int n => if 0 ≤ n then some n.toNat else none
  | .real x => some (countOfFloat x)
  | .bool b => some (if b then 1 else 0)
  | .str s => countOfWord? s
  | _ => none

/-! ## Sections -/

/-- What a section gives for the field with the given place and name. -/
def given? (fields : Json) (place : Nat) (name : String) : Option Json :=
  match fields with
  | .obj members => members.lookup name
  | .arr items => items[place]?
  | _ => none

/-- Reads a field, which may be left open. -/
def field? {α : Type} (read : Json → Option α) (fields : Json) (place : Nat) (name : String) :
    Option (Option α) :=
  match given? fields place name with
  | none | some .null => some none
  | some v => (read v).map some

/-- A section, which must be an object or an array if it is there. -/
def section? (root : Json) (name : String) : Option Json :=
  match root.member? name with
  | none => some (.obj [])
  | some (.obj members) => some (.obj members)
  | some (.arr items) => some (.arr items)
  | some _ => none

/-- The draft that an object with the sections gives. -/
def Draft.ofJson? (root : Json) : Option Draft := do
  let logging ← section? root "logging"
  let views ← section? root "views"
  let cache ← section? root "cache"
  return {
    logLevel := ← field? textOf? logging 0 "level"
    logJson := ← field? truthOf? logging 1 "json"
    viewsFolder := ← field? textOf? views 0 "views_folder"
    areasFolder := ← field? textOf? views 1 "areas_folder"
    partialsFolder := ← field? textOf? views 2 "partials_folder"
    layoutsFolder := ← field? textOf? views 3 "layouts_folder"
    sharedFolder := ← field? textOf? views 4 "shared_folder"
    allowControllerless := ← field? truthOf? views 5 "allow_controllerless"
    extension := ← field? textOf? views 6 "extension"
    viewsSlidingSecs := ← field? countOf? views 7 "views_sliding_seconds"
    keyPrefix := ← field? textOf? views 8 "cache_key_prefix"
    pollMs := ← field? countOf? cache 0 "poll_interval_ms"
    missingRetryMs := ← field? countOf? cache 1 "missing_retry_ms"
    missingSlidingSecs := ← field? countOf? cache 2 "missing_sliding_secs"
    viewRecheckMs := ← field? countOf? cache 3 "view_recheck_ms"
    compileFailureRetryMs := ← field? countOf? cache 4 "compile_failure_retry_ms"
    sweepMs := ← field? countOf? cache 5 "sweep_interval_ms" }

end Templating.Settings
