import Templating.CommandLine.Option
import Templating.Text.Cut

/-!
# Forms

A form says which options, operands and commands a part of the command line may hold. Its words are
read from left to right. The value of an option that stands in a word of its own is looked at only
when the next option or operand, or the end, shows that it is complete, so that an unknown option
behind it is told first. Behind a word of two hyphens all words are operands.
-/

namespace Templating.CommandLine

/-- What a part of the command line may hold. -/
structure Form where
  /-- The command that the form belongs to; none for the whole program. -/
  command : Option String
  options : List Opt
  /-- Whether the name of a view may be given. -/
  takesView : Bool
  /-- The words that end this part. -/
  commands : List String
  /-- Whether the version can be asked for. -/
  hasVersion : Bool

structure Progress where
  given : Given := {}
  /-- The names of the options noted down. -/
  noted : List String := []
  /-- The option that was read last, with its value if that was read as well. -/
  pending : Option (Opt × Option String) := none
  /-- Whether all words to come are operands. -/
  onlyOperands : Bool := false

namespace Progress

def note (p : Progress) (o : Opt) (word : String) : Except Stop Progress :=
  if p.noted.contains o.name then .error (.conflict o.name o.name)
  else do
    let given ← o.note word p.given
    return { p with given, noted := o.name :: p.noted }

def settle (p : Progress) : Except Stop Progress :=
  match p.pending with
  | none => .ok p
  | some (o, some word) => { p with pending := none }.note o word
  | some (o, none) => .error (.missingValue o.name)

/-- The option that stands without its value. -/
def awaiting? (p : Progress) : Option Opt :=
  match p.pending with
  | some (o, none) => some o
  | _ => none

end Progress

inductive Dashed
  /-- A name, and the value behind an equals sign. -/
  | long (name : String) (value : Option String)
  | short (letters : List Char)

/-- The name and value in a word that asks for an option. -/
def dashed? (word : String) : Option Dashed :=
  match word.toList with
  | '-' :: '-' :: cs =>
    match Text.breakOn ['='] cs with
    | some (name, value) => some (.long (String.ofList name) (some (String.ofList value)))
    | none => some (.long (String.ofList cs) none)
  | '-' :: c :: cs => some (.short (c :: cs))
  | _ => none

inductive Scanned
  | atEnd (progress : Progress)
  /-- A command was met before the rest of the words. -/
  | atCommand (progress : Progress) (name : String) (rest : List String)

namespace Form

/-- Answers a request for help or for the version, once what stands before it is in order. -/
def reply (p : Progress) (stop : Stop) : Except Stop Progress := do
  let _ ← p.settle
  throw stop

/-- Takes an option by its name, with the value behind an equals sign. -/
def takeLong (f : Form) (p : Progress) (name : String) (value : Option String) :
    Except Stop Progress :=
  match f.options.find? (·.name == name), value with
  | some o, some word =>
    if o.isSwitch then .error (.unneededValue name) else do (← p.settle).note o word
  | some o, none => do
    let p ← p.settle
    if o.isSwitch then p.note o "" else return { p with pending := some (o, none) }
  | none, value =>
    let stop? :=
      if name = "help" then some (Stop.help f.command)
      else if name = "version" ∧ f.hasVersion then some .version
      else none
    match stop?, value with
    | none, _ => .error (.unknownArgument ("--" ++ name))
    | some _, some _ => .error (.unneededValue name)
    | some stop, none => reply p stop

/-- Takes options of one letter; there are but those for help and the version. -/
def takeShort (f : Form) (p : Progress) (letters : List Char) : Except Stop Progress :=
  match letters with
  | 'h' :: _ => reply p (.help f.command)
  | 'V' :: _ =>
    if f.hasVersion then reply p .version else .error (.unknownArgument "-V")
  | _ => .error (.unknownArgument (String.ofList ('-' :: letters.take 1)))

/-- Takes a word that is neither option, value nor command. -/
def takeOperand (f : Form) (p : Progress) (word : String) : Except Stop Progress :=
  if f.takesView ∧ p.given.view = none then do
    let p ← p.settle
    return { p with given.view := some word }
  else if f.commands = [] ∨ (p.onlyOperands ∧ f.commands.contains word) then
    .error (.unknownArgument word)
  else .error (.unknownCommand word)

def take (f : Form) (p : Progress) (word : String) : Except Stop Progress :=
  if p.onlyOperands then f.takeOperand p word
  else if word = "--" then .ok { p with onlyOperands := true }
  else
    match dashed? word with
    | some (.long name value) => f.takeLong p name value
    | some (.short letters) => f.takeShort p letters
    | none =>
      match p.awaiting? with
      | some o => .ok { p with pending := some (o, some word) }
      | none => f.takeOperand p word

def scan (f : Form) (p : Progress) : List String → Except Stop Scanned
  | [] => .ok (.atEnd p)
  | word :: rest =>
    if !p.onlyOperands && p.awaiting?.isNone && f.commands.contains word then
      .ok (.atCommand p word rest)
    else do scan f (← f.take p word) rest

end Form

end Templating.CommandLine
