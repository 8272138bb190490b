import Templating.CommandLine.Form

/-!
# Reading a command line

The options of the program stand before the command and those of the command behind it. What stands
behind the command is checked first: its words, then options that exclude each other, then options
that are required.
-/

namespace Templating.CommandLine

/-- The word that asks for the help of another command. -/
def helpWord : String := "help"

def programForm : Form where
  command := none
  options := [Opt.configFile]
  takesView := false
  commands := ["render", "watch", "paths", helpWord]
  hasVersion := true

def commandForm (name : String) : Form where
  command := some name
  options :=
    Opt.overrides ++ Opt.group ++
    (if name = "paths" then [] else Opt.rendering) ++
    (if name = "watch" then [Opt.interval] else [])
  takesView := name != "paths"
  commands := []
  hasVersion := false

def checkConflicts (g : Given) : Except Stop Unit :=
  if g.isPartial ∧ g.layout.isSome then .error (.conflict "partial" "layout")
  else if g.data.isSome ∧ g.dataFile.isSome then .error (.conflict "data" "data-file")
  else .ok ()

def requireGroup (g : Given) : Except Stop GroupNames :=
  match g.controller with
  | some controller => .ok ⟨g.area, controller⟩
  | none => .error (.missingArgument "--controller")

def requireRendering (g : Given) : Except Stop RenderRequest := do
  let base : String → GroupNames → RenderRequest := fun view group => { view, group }
  let group ← requireGroup g
  match g.view with
  | none => throw (.missingArgument "VIEW")
  | some view =>
    let base := base view group
    return { base with
      overrides := g.overrides
      root := g.root.getD base.root
      layout := g.layout
      isPartial := g.isPartial
      data := g.data
      dataFile := g.dataFile }

/-- Time between two renderings when none is given, in milliseconds. -/
def defaultInterval : Nat := 1000

/-- The command of the given name with the words behind it. -/
def readCommand (name : String) (words : List String) : Except Stop Command := do
  match ← (commandForm name).scan {} words with
  | .atCommand .. => throw (.unknownCommand name)
  | .atEnd p =>
    let g := (← p.settle).given
    checkConflicts g
    if name = "paths" then return .paths g.overrides (← requireGroup g)
    else if name = "watch" then
      return .watch (← requireRendering g) (g.intervalMs.getD defaultInterval)
    else return .render (← requireRendering g)

/-- The help that the words behind the word for it ask for. -/
def helpStop (words : List String) : Stop :=
  match words with
  | [] => .help none
  | word :: rest =>
    if programForm.commands.contains word then
      match rest with
      | [] => .help (some word)
      | word :: _ => .unknownCommand word
    else .unknownCommand word

/-- Takes the settings file from the environment when the command line names none. -/
def withVariable (fallback? : Option String) (g : Given) : Except Stop Given :=
  match g.configFile, fallback? with
  | none, some path => Opt.configFile.note path g
  | _, _ => .ok g

/-- The request that the words of a command line make. The environment may name a settings file. -/
def read (fallback? : Option String) (words : List String) : Except Stop Request := do
  match ← programForm.scan {} words with
  | .atEnd p =>
    let g ← withVariable fallback? (← p.settle).given
    throw (if g.configFile.isNone then .nothingGiven else .missingCommand)
  | .atCommand p name rest =>
    if name = helpWord then throw (helpStop rest)
    else
      let command ← readCommand name rest
      let g ← withVariable fallback? (← p.settle).given
      return { configFile := g.configFile, command }

end Templating.CommandLine
