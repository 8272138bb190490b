import Templating.CommandLine.Read

/-!
# Help

The texts that explain the command line. The options are listed in a column with their texts beside
them, or below them when the column is wide and a text would run over the line.
-/

namespace Templating.CommandLine

def programName : String := "vellum"

def programVersion : String := "0.1.0"

/-- What the program, or one of its commands, is for. -/
def about : Option String → String
  | none => "Resolve and render view templates"
  | some "render" => "Resolve a view with its layouts and print the rendered output"
  | some "watch" => "Render a view repeatedly, printing the output whenever it changes"
  | some "paths" => "Print the folders searched for a group"
  | some _ => "Print this message or the help of the given subcommand(s)"

/-- How the program, or one of its commands, is called. -/
def usage : Option String → String
  | none => "[OPTIONS] <COMMAND>"
  | some "paths" => "paths [OPTIONS] --controller <CONTROLLER>"
  | some "help" => "help [COMMAND]..."
  | some name => s!"{name} [OPTIONS] --controller <CONTROLLER> <VIEW>"

/-! ## Lists -/

/-- A line of a list: what stands in front, and the text that explains it. -/
structure Row where
  indent : Nat
  label : String
  text : String

def lineWidth : Nat := 100

/-- The space in front of a label, and between the longest label and its text. -/
def margins : Nat := 8

/-- Whether a list with labels of `longest` characters has its texts on lines of their own. -/
def isTall (longest : Nat) (rows : List Row) : Bool :=
  let taken := longest + margins
  40 < taken && rows.any fun e => lineWidth < taken + e.text.length

def listed (heading : String) (rows : List Row) : String :=
  let width := (rows.map fun e => e.indent + e.label.length).foldl max 0
  let longest := (rows.map fun e => e.label.length).foldl max 0
  let line (e : Row) : String :=
    let front := "".pushn ' ' e.indent ++ e.label
    if isTall longest rows then front ++ "\n" ++ "".pushn ' ' 10 ++ e.text
    else front.pushn ' ' (width + 2 - front.length) ++ e.text
  heading ++ ":\n" ++ "\n".intercalate (rows.map line)

def truthValues : String := " [possible values: true, false]"

def optionRow (o : Opt) : Row :=
  let values :=
    match o.value with
    | .truth _ => truthValues
    | _ => ""
  let label := if o.isSwitch then "--" ++ o.name else "--" ++ o.name ++ " <" ++ o.valueName ++ ">"
  ⟨6, label, o.help ++ values⟩

def optionRows (f : Form) : List Row :=
  f.options.map optionRow ++ [⟨2, "-h, --help", "Print help"⟩] ++
  (if f.hasVersion then [⟨2, "-V, --version", "Print version"⟩] else [])

def formHelp (f : Form) : String :=
  let lists :=
    (if f.commands = [] then []
      else [listed "Commands" (f.commands.map fun name => ⟨2, name, about (some name)⟩)]) ++
    (if f.takesView then
      [listed "Arguments"
        [⟨2, "<VIEW>", "View name, or an absolute `~/` path including the extension"⟩]]
      else []) ++
    [listed "Options" (optionRows f)]
  s!"{about f.command}\n\nUsage: {programName} {usage f.command}\n\n" ++
    "\n\n".intercalate lists ++ "\n"

/-- The help of the word for help, which names a command behind it. -/
def helpWordHelp : String :=
  s!"{about (some helpWord)}\n\nUsage: {programName} {usage (some helpWord)}\n\n" ++
    listed "Arguments" [⟨2, "[COMMAND]...", "Print help for the subcommand(s)"⟩] ++ "\n"

/-- The help of the program or of one of its commands. -/
def helpText : Option String → String
  | none => formHelp programForm
  | some name => if name = helpWord then helpWordHelp else formHelp (commandForm name)

def versionText : String := s!"{programName} {programVersion}\n"

end Templating.CommandLine
