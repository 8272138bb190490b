import Templating.Template.Compiled
import Templating.Template.Library

/-!
# What an engine keeps in its cache

Under the global key stands an entry that all others hang off. Each group has its partials, each
path that was looked up for a group has its compiled template or a note that there is none, and
beside a group's partials there is a snapshot of their files where changes are not signalled.
-/

namespace Templating

/-- A group's templates: those of the site and the group's partials. -/
structure GroupConfig where
  library : Template.Library
  /-- The names of the group's partials, in the order in which they were registered. -/
  partials : List String
  /-- Partial files whose name was already taken. -/
  ignored : List String

/-- The partial files of a group as they were when its partials were put together. -/
structure Snapshot where
  folders : List String
  /-- The digests of the files that were read, in ascending order of their paths. -/
  fingerprints : List (String × String)
  ignored : List String
  /-- The key of the partials. -/
  configKey : String

/-- An entry of an engine's cache. -/
inductive Entry
  | global
  | config (value : GroupConfig)
  | compiled (value : Template.Compiled)
  /-- The path was looked up, and there is no template to be had. -/
  | missing
  | poll (value : Snapshot)

end Templating
