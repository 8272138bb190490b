/-!
# Errors of the domain

A rule of the domain is broken either by a value that a caller passed in a named field, or by a
state that should not have arisen.
-/

namespace Templating

/-- A broken rule of the domain. -/
inductive DomainError
  /-- The value of `field` was refused. -/
  | validation (field message : String)
  /-- A state arose that the rules exclude. -/
  | invariant (message : String)
  deriving DecidableEq

namespace DomainError

def message : DomainError → String
  | .validation field message => s!"domain validation failed for `{field}`: {message}"
  | .invariant message => s!"domain invariant violated: {message}"

end DomainError

/-- Why a template did not do its work. -/
inductive TemplateError
  | compile (name message : String)
  | render (name message : String)
  deriving DecidableEq

namespace TemplateError

def message : TemplateError → String
  | .compile name message => s!"failed to compile `{name}`: {message}"
  | .render name message => s!"failed to render `{name}`: {message}"

end TemplateError

end Templating
