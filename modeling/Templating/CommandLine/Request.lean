import Templating.Settings.Draft

/-!
# Requests

What a command line asks for: to render a view once, to render it again and again, or to show the
folders that are searched for a group.
-/

namespace Templating.CommandLine

/-- The group as it is named on the command line. -/
structure GroupNames where
  area : Option String := none
  controller : String
  deriving DecidableEq

/-- The view to render, and what to render it with. -/
structure RenderRequest where
  overrides : Settings.Overrides := {}
  group : GroupNames
  /-- The folder that `~/` stands for. -/
  root : String := "."
  view : String
  /-- The layout in place of the one that the view declares. -/
  layout : Option String := none
  /-- Whether the view is rendered without layouts. -/
  isPartial : Bool := false
  /-- The model as JSON. -/
  data : Option String := none
  /-- The file that holds the model as JSON. -/
  dataFile : Option String := none
  deriving DecidableEq

inductive Command
  | render (request : RenderRequest)
  /-- Renders whenever an interval, in milliseconds, has passed. -/
  | watch (request : RenderRequest) (intervalMs : Nat)
  | paths (overrides : Settings.Overrides) (group : GroupNames)
  deriving DecidableEq

/-- A command line that was understood. -/
structure Request where
  /-- The file to read settings from. -/
  configFile : Option String := none
  command : Command
  deriving DecidableEq

def Command.overrides : Command → Settings.Overrides
  | .render request | .watch request _ => request.overrides
  | .paths overrides _ => overrides

end Templating.CommandLine
