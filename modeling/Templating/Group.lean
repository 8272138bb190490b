import Templating.Error
import Templating.Text.Blank

/-!
# Groups

A group is the controller, within an area or outside all areas, for which views are resolved. It
scopes partials and cached entries. Both names are trimmed and hold no separator, so that a group
can be read back from the text `area:controller`.
-/

namespace Templating

/-- A controller and its area; an empty area means none. -/
structure Group where
  area : String
  controller : String
  deriving DecidableEq

namespace Group

/-- The characters that would be read as separators of paths or keys. -/
def isSeparator (c : Char) : Bool := c == ':' || c == '/' || c == '\\'

def checkSegment (field value : String) : Except DomainError Unit :=
  if value.toList.any isSeparator then
    .error (.validation field s!"`{value}` must not contain ':', '/' or '\\'")
  else .ok ()

/-- The group of an area and a controller as a caller writes them. The controller is checked before
the area. -/
def make (area controller : String) : Except DomainError Group := do
  let area := Text.trim area
  let controller := Text.trim controller
  if controller = "" then
    throw (.validation "controller" "controller name must not be empty")
  checkSegment "controller" controller
  checkSegment "area" area
  return ⟨area, controller⟩

def ofController (controller : String) : Except DomainError Group := make "" controller

/-- The area, if the group is in one. -/
def area? (g : Group) : Option String := if g.area = "" then none else some g.area

/-- The text by which a group is named in keys. -/
def display (g : Group) : String := s!"{g.area}:{g.controller}"

end Group

end Templating
