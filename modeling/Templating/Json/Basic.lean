import Templating.Sorted

/-!
# JSON values

Models, settings and their values are JSON. Whole numbers keep their exact value; all other
numbers are floating point. The members of an object are in ascending order of their names, each
name once.
-/

namespace Templating

inductive Json
  | null
  | bool (value : Bool)
  | int (value : Int)
  | real (value : Float)
  | str (value : String)
  | arr (items : List Json)
  | obj (members : List (String × Json))

namespace Json

/-- The object with the given members; of two with one name the later counts. -/
def ofMembers (members : List (String × Json)) : Json :=
  .obj (Sorted.ofList members)

def member? (name : String) : Json → Option Json
  | .obj members => members.lookup name
  | _ => none

end Json

end Templating
