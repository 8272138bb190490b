import Templating.Error
import Templating.Json.Basic
import Templating.Text.Case

/-!
# Data handed to templates

`Bindings` are names with their values, in the order in which the names were first bound. Names
are told apart without regard to the case of ASCII letters: binding a name anew in another
spelling takes over the place of the old one.
-/

namespace Templating

structure Bindings (α : Type) where
  entries : List (String × α) := []

namespace Bindings

variable {α : Type}

/-- The place of the entry that `name` selects: one of exactly this spelling before one of
another. -/
def position? (b : Bindings α) (name : String) : Option Nat :=
  match b.entries.findIdx? fun entry => entry.1 == name with
  | some i => some i
  | none => b.entries.findIdx? fun entry => Text.sameIgnoringCase entry.1 name

def get? (b : Bindings α) (name : String) : Option α :=
  (b.position? name).bind fun i => (b.entries[i]?).map Prod.snd

def contains (b : Bindings α) (name : String) : Bool := (b.position? name).isSome

/-- Binds `name`, in place of the entry that it selects or behind all others. -/
def insert (b : Bindings α) (name : String) (value : α) : Bindings α :=
  match b.position? name with
  | some i => ⟨b.entries.set i (name, value)⟩
  | none => ⟨b.entries ++ [(name, value)]⟩

def erase (b : Bindings α) (name : String) : Bindings α :=
  match b.position? name with
  | some i => ⟨b.entries.eraseIdx i⟩
  | none => b

def size (b : Bindings α) : Nat := b.entries.length

def ofList (members : List (String × α)) : Bindings α :=
  members.foldl (fun b (name, value) => b.insert name value) ⟨[]⟩

/-- The name under which a layout finds what was rendered before it. -/
def bodyName : String := "body"

/-- The name under which values beside the model are found. -/
def bagName : String := "viewbag"

def kindName : Json → String
  | .null => "null"
  | .bool _ => "a boolean"
  | .int _ | .real _ => "a number"
  | .str _ => "a string"
  | .arr _ => "an array"
  | .obj _ => "an object"

/-- The members of a model, an object; no model counts as one without members. -/
def ofModel : Json → Except DomainError (Bindings Json)
  | .null => .ok ⟨[]⟩
  | .obj members => .ok (ofList members)
  | other => .error (.validation "model" s!"expected an object, found {kindName other}")

def withBag (b : Bindings Json) (bag : List (String × Json)) : Bindings Json :=
  b.insert bagName (.obj bag)

def toJson (b : Bindings Json) : Json := Json.ofMembers b.entries

end Bindings

end Templating
