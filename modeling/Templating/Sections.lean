import Templating.Error
import Templating.Table
import Templating.Text.Case

/-!
# Sections

A section is a named piece of output that a view or layout defines and a later layout places. All
templates of one rendering share one store of sections.
-/

namespace Templating

/-- How new content of a section joins what is there. -/
inductive SectionMode
  | replace
  | append
  | prepend
  deriving DecidableEq

namespace SectionMode

def read (text : String) : Except DomainError SectionMode :=
  match Text.lower text with
  | "replace" => .ok .replace
  | "append" => .ok .append
  | "prepend" => .ok .prepend
  | other =>
    .error (.validation "mode" s!"must be one of [replace, append, prepend] but was `{other}`")

def join (mode : SectionMode) (content there : String) : String :=
  match mode with
  | .replace => content
  | .append => there ++ content
  | .prepend => content ++ there

end SectionMode

abbrev Sections := Table String

namespace Sections

/-- A section cannot be without a name. -/
def nameless : DomainError := .validation "name" "section name is required"

/-- Adds content to a section; one not defined before counts as empty. -/
def define (s : Sections) (name content : String) (mode : SectionMode) :
    Except DomainError Sections :=
  if name = "" then .error nameless
  else .ok (s.put name (mode.join content ((s.get? name).getD "")))

/-- The content of a section. One that is not defined is an error only if it is required. -/
def content (s : Sections) (name : String) (required : Bool) :
    Except DomainError (Option String) :=
  if name = "" then .error nameless
  else
    match s.get? name with
    | some content => .ok (some content)
    | none =>
      if required then
        .error (.validation "name" s!"section `{name}` has not been defined but is required")
      else .ok none

def isDefined (s : Sections) (name : String) : Bool := s.contains name

end Sections

end Templating
