import Templating.Error
import Templating.Template.Value

/-!
# Problems while rendering

What may go wrong in one step of rendering, and where. A problem in an embedded template is
reported through all the templates that lead to it.
-/

namespace Templating.Template

inductive Problem
  /-- An attribute was asked of something that is not there. -/
  | undefinedValue
  | unknownFunction (name : String)
  | unknownFilter (name : String)
  | notCallable (kind : String)
  | unknownMethod (kind name : String)
  /-- A list or map was called. -/
  | containerNotCallable
  | notIterable (kind : String)
  | notConvertible (kind target : String)
  | missingArgument
  | tooManyArguments
  | unknownKeyword (name : String)
  /-- The template to embed was given by something other than a string. -/
  | templateNotNamed
  /-- None of the templates to embed is there. -/
  | templateMissing (names : List String)
  | recursionLimit
  /-- The name of the sections stands for something else. -/
  | sectionsHidden
  | domain (cause : DomainError)

namespace Problem

/-- The text for templates that are not there. -/
def missingText : List String → String
  | [name] => "tried to include non-existing template " ++ Value.quoted name
  | names =>
    "tried to include one of multiple templates, none of which existed [" ++
      ", ".intercalate (names.map Value.quoted) ++ "]"

def message : Problem → String
  | undefinedValue => "undefined value"
  | unknownFunction name => s!"unknown function: {name} is unknown"
  | unknownFilter name => s!"unknown filter: filter {name} is unknown"
  | notCallable kind => s!"invalid operation: value of type {kind} is not callable"
  | unknownMethod kind name => s!"unknown method: {kind} has no method named {name}"
  | containerNotCallable => "invalid operation: object is not callable"
  | notIterable kind => s!"invalid operation: {kind} is not iterable"
  | notConvertible kind target => s!"invalid operation: cannot convert {kind} to {target}"
  | missingArgument => "missing argument"
  | tooManyArguments => "too many arguments"
  | unknownKeyword name => s!"too many arguments: unknown keyword argument '{name}'"
  | templateNotNamed => "invalid operation: template name was not a string"
  | templateMissing names => "template not found: " ++ missingText names
  | recursionLimit => "invalid operation: recursion limit exceeded"
  | sectionsHidden =>
    "invalid operation: sections are only available while rendering a view"
  | domain cause => "invalid operation: " ++ cause.message

end Problem

inductive Fault
  | at (problem : Problem) (template : String) (line : Nat)
  /-- At the start of a template that has no steps. -/
  | unplaced (problem : Problem)
  /-- Within the embedded template `inner`. -/
  | within (inner template : String) (line : Nat) (cause : Fault)

namespace Fault

def message : Fault → String
  | .at problem template line => s!"{problem.message} (in {template}:{line})"
  | .unplaced problem => problem.message
  | within inner template line cause =>
    s!"could not render include: error in \"{inner}\" (in {template}:{line}): {cause.message}"

end Fault

end Templating.Template
