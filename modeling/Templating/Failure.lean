import Templating.Error

/-!
# Failures

What a caller of the view engine gets when a request cannot be served, and what ends the program.
A view that is not there is no failure of the engine, but it is one of the program.
-/

namespace Templating

/-- Why the view engine refused a request. -/
inductive ViewError
  | invalidArgument (name reason : String)
  /-- The file of a layout is already part of the chain of layouts. -/
  | recursiveLayout (layout path : String)
  | template (cause : TemplateError)
  deriving DecidableEq

namespace ViewError

def message : ViewError → String
  | .invalidArgument name reason => s!"invalid argument `{name}`: {reason}"
  | .recursiveLayout layout path =>
    s!"layout `{layout}` at `{path}` is already part of the layout chain"
  | .template cause => cause.message

/-- A broken rule of the domain, as a refused argument. -/
def ofDomain : DomainError → ViewError
  | .validation field message => .invalidArgument field message
  | .invariant message => .invalidArgument "state" message

end ViewError

/-- What ends the program. -/
inductive Failure
  | view (cause : ViewError)
  | domain (cause : DomainError)
  /-- A file beside the templates could not be read. -/
  | file (path message : String)
  | telemetry (message : String)
  | configuration (message : String)
  | notFound (name : String) (searched : List String)
  | validation (message : String)
  | unexpected (message : String)

namespace Failure

def message : Failure → String
  | .view cause => cause.message
  | .domain cause => cause.message
  | .file path message => s!"failed to read `{path}`: {message}"
  | .telemetry message => s!"telemetry initialization failed: {message}"
  | .configuration message => s!"configuration error: {message}"
  | .notFound name searched =>
    let searched := ", ".intercalate searched
    s!"`{name}` was not found; searched: {searched}"
  | .validation message => s!"validation failed: {message}"
  | .unexpected message => s!"unexpected error: {message}"

def exitCode : Failure → Nat
  | .notFound .. => 2
  | .view (.invalidArgument ..) | .domain (.validation ..) | .validation _ => 64
  | .configuration _ => 78
  | .file .. => 74
  | .view _ | .domain (.invariant _) | .telemetry _ | .unexpected _ => 1

end Failure

end Templating
