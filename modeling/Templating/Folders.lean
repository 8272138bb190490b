import Templating.Group

/-!
# Search folders

The folders in which a group's views, layouts and partials are looked for, in order of precedence:
those of the group's area before those of the site, and within each the controller's folder before
the shared one before the bare views folder. Every folder starts at the root `~/` and ends in a
slash.
-/

namespace Templating

/-- The mark of the store's root in a path. -/
def rootMark : String := "~/"

/-- The names of the folders that search paths are built from. -/
structure FolderNames where
  views : String := "Views"
  areas : String := "Areas"
  partials : String := "_Partials"
  layouts : String := "_Layouts"
  /-- No shared folder is searched when this is empty. -/
  shared : String := "_Shared"
  /-- Whether the views folder itself is searched as well. -/
  allowControllerless : Bool := false
  deriving DecidableEq

namespace FolderNames

/-- The views folders that serve a group, its area's first. -/
def roots (names : FolderNames) (g : Group) : List String :=
  let site := s!"{rootMark}{names.views}/"
  match g.area? with
  | some area => [s!"{rootMark}{names.areas}/{area}/{names.views}/", site]
  | none => [site]

def viewFolders (names : FolderNames) (g : Group) : List String :=
  (names.roots g).flatMap fun root =>
    [s!"{root}{g.controller}/"] ++
    (if names.shared = "" then [] else [s!"{root}{names.shared}/"]) ++
    (if names.allowControllerless then [root] else [])

/-- The folders called `name` next to a group's views. -/
def special (names : FolderNames) (g : Group) (name : String) : List String :=
  (names.roots g).flatMap fun root => [s!"{root}{g.controller}/{name}/", s!"{root}{name}/"]

def layoutFolders (names : FolderNames) (g : Group) : List String := names.special g names.layouts

/-- Where the partials of a group are looked for. -/
def partialFolders (names : FolderNames) (g : Group) : List String :=
  names.special g names.partials

end FolderNames

end Templating
