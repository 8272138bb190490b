import Templating.Json.Token

/-!
# Reading JSON

The tokens drive a machine with a stack of the arrays and objects that are still open. A text is
accepted when the machine ends with exactly one value. Values nest at most 127 deep.
-/

namespace Templating.Json

/-- An array or object whose end was not read yet. -/
inductive Frame
  /-- An array with its items so far, last first. -/
  | arr (items : List Json)
  /-- An object with its members so far, last first, and the name whose value comes next. -/
  | obj (members : List (String × Json)) (name : String)

/-- What may come next. -/
inductive Phase
  /-- A value, or the end of an array just opened. -/
  | value (mayClose : Bool)
  /-- A name in the object with these members, or the end of an object just opened. -/
  | name (members : List (String × Json)) (mayClose : Bool)
  /-- The colon behind a name. -/
  | colon (members : List (String × Json)) (name : String)
  /-- A comma or the end of the innermost array or object. -/
  | more
  /-- Nothing: the outermost value is complete. -/
  | done (value : Json)

/-- The most arrays and objects that may be open at one time. -/
def maxDepth : Nat := 127

/-- The machine after a complete value. -/
def complete (value : Json) : List Frame → List Frame × Phase
  | [] => ([], .done value)
  | .arr items :: stack => (.arr (value :: items) :: stack, .more)
  | .obj members name :: stack => (.obj ((name, value) :: members) name :: stack, .more)

def step (stack : List Frame) : Phase → Token → Option (List Frame × Phase)
  | .value _, .plain v => some (complete v stack)
  | .value _, .str s => some (complete (.str s) stack)
  | .value _, .openArr =>
    if stack.length < maxDepth then some (.arr [] :: stack, .value true) else none
  | .value _, .openObj =>
    if stack.length < maxDepth then some (stack, .name [] true) else none
  | .value true, .closeArr =>
    match stack with
    | .arr items :: stack => some (complete (.arr items.reverse) stack)
    | _ => none
  | .name members _, .str s => some (stack, .colon members s)
  | .name members true, .closeObj => some (complete (ofMembers members.reverse) stack)
  | .colon members s, .colon => some (.obj members s :: stack, .value false)
  | .more, .comma =>
    match stack with
    | .arr _ :: _ => some (stack, .value false)
    | .obj members _ :: stack => some (stack, .name members false)
    | [] => none
  | .more, .closeArr =>
    match stack with
    | .arr items :: stack => some (complete (.arr items.reverse) stack)
    | _ => none
  | .more, .closeObj =>
    match stack with
    | .obj members _ :: stack => some (complete (ofMembers members.reverse) stack)
    | _ => none
  | _, _ => none

def run (stack : List Frame) (phase : Phase) : List Token → Option Json
  | [] =>
    match phase with
    | .done v => some v
    | _ => none
  | t :: ts => (step stack phase t).bind fun (stack, phase) => run stack phase ts

def read? (s : String) : Option Json := (tokens? s.toList).bind (run [] (.value false))

end Templating.Json
