import Templating.Json.Writer
import Templating.Template.Compiled

/-!
# Templates as lists of parts

The plainest templates: parts that are rendered one after the other, each of which appends a text,
a value of the data or a section, defines a section, or fails.
-/

namespace Templating.Template

inductive Part
  | text (content : String)
  /-- A value: a string as it is, another value as JSON, a question mark when there is none. -/
  | value (name : String)
  /-- The names of the data entries with commas between them. -/
  | names
  /-- Defines a section and appends nothing. -/
  | define (name content mode : String)
  /-- A section; a hyphen in place of an optional one that is not defined. -/
  | place (name : String) (required : Bool)
  /-- Whether a section is defined. -/
  | isDefined (name : String)
  | fail (message : String)

namespace Part

def valueText : Option Json → String
  | none => "?"
  | some (.str s) => s
  | some v => v.write

/-- The text that a part appends, and the sections after it. -/
def run (data : Bindings Json) (sections : Sections) : Part → Except String (String × Sections)
  | .text content => .ok (content, sections)
  | .value name => .ok (valueText (data.get? name), sections)
  | .names => .ok (",".intercalate (data.entries.map Prod.fst), sections)
  | .define name content mode => do
    let mode ← (SectionMode.read mode).mapError DomainError.message
    let sections ← (sections.define name content mode).mapError DomainError.message
    return ("", sections)
  | .place name required => do
    let content ← (sections.content name required).mapError DomainError.message
    return (content.getD "-", sections)
  | .isDefined name => .ok (if sections.isDefined name then "true" else "false", sections)
  | .fail message => .error message

def runAll (data : Bindings Json) (sections : Sections) :
    List Part → Except String (String × Sections)
  | [] => .ok ("", sections)
  | part :: parts => do
    let (first, sections) ← part.run data sections
    let (rest, sections) ← runAll data sections parts
    return (first ++ rest, sections)

def compile (path : String) (parts : List Part) (fingerprint layout : Option String) :
    Compiled where
  path
  render := fun context =>
    (runAll context.data context.sections parts).mapError (.render path)
  fingerprint
  layout

end Part

end Templating.Template
