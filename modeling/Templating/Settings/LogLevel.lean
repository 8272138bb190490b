import Templating.Text.Case
import Templating.Text.Count

/-!
# Log levels

How much is written to the log. A level is named, in any case of letters, or numbered from 0, which
is silence; an empty text asks for errors alone.
-/

namespace Templating

/-- The least severe event that is written to the log. -/
inductive LogLevel
  | off
  | error
  | warn
  | info
  | debug
  | trace
  deriving DecidableEq

namespace LogLevel

def all : List LogLevel := [.off, .error, .warn, .info, .debug, .trace]

def name : LogLevel → String
  | .off => "off"
  | .error => "error"
  | .warn => "warn"
  | .info => "info"
  | .debug => "debug"
  | .trace => "trace"

def read? (s : String) : Option LogLevel :=
  match Text.count? s with
  | some n => all[n]?
  | none => if s = "" then some .error else all.find? fun level => Text.lower s == level.name

end LogLevel

end Templating
