/-!
# Where the reading of a command line stops

Most stops are faults of the command line; the others show a text that was asked for.
-/

namespace Templating.CommandLine

/-- Why a command line does not become a request. -/
inductive Stop
  /-- The help was asked for, that of a command or, without one, of the program. -/
  | help (command : Option String)
  | version
  /-- There is nothing on the command line. -/
  | nothingGiven
  | missingCommand
  | unknownCommand (word : String)
  | unknownArgument (word : String)
  /-- An option or operand that must be given was not. -/
  | missingArgument (name : String)
  /-- An option stands without its value, or with an empty one that cannot be empty. -/
  | missingValue (option : String)
  /-- A switch stands with a value. -/
  | unneededValue (option : String)
  /-- The value of an option cannot be read. -/
  | invalidValue (option value : String)
  /-- Two options exclude each other, or one is given twice. -/
  | conflict (first second : String)
  deriving DecidableEq

namespace Stop

/-- Whether the stop is a text that was asked for. -/
def isAnswer : Stop → Bool
  | .help _ | .version => true
  | _ => false

def exitCode (s : Stop) : Nat := if s.isAnswer then 0 else 2

def message : Stop → String
  | .help _ => "help was asked for"
  | .version => "the version was asked for"
  | .nothingGiven => "no command was given"
  | .missingCommand => "a command is required but none was given"
  | .unknownCommand word => s!"unrecognized command '{word}'"
  | .unknownArgument word => s!"unexpected argument '{word}' found"
  | .missingArgument name => s!"the required argument {name} was not given"
  | .missingValue option => s!"a value is required for '--{option}' but none was given"
  | .unneededValue option => s!"unexpected value for '--{option}'; no values are expected"
  | .invalidValue option value => s!"invalid value '{value}' for '--{option}'"
  | .conflict first second =>
    if first = second then s!"the argument '--{first}' cannot be used multiple times"
    else s!"the argument '--{first}' cannot be used with '--{second}'"

end Stop

end Templating.CommandLine
