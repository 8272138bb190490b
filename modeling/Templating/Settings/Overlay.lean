import Templating.Json.Basic
import Templating.Text.Cut

/-!
# Laying settings over one another

Settings come in layers. Objects of two layers are merged member by member; any other value takes
the place of what was there. The names at the top of a layer may be paths, which lead through
members (`views.extension`) and through items of arrays (`cache[0]`).
-/

namespace Templating.Settings

/-- The members of an object; any other value counts as one without members. -/
def membersOf : Json → List (String × Json)
  | .obj members => members
  | _ => []

/-- The items of an array; any other value counts as one without items. -/
def itemsOf : Json → List Json
  | .arr items => items
  | _ => []

mutual

/-- Lays `upper` over `base`. An object without members leaves what is there as it is. -/
def overlay (base : Json) : (upper : Json) → Json
  | .obj [] =>
    match base with
    | .null => .obj []
    | base => base
  | .obj (member :: members) => .obj (overlayMembers (membersOf base) (member :: members))
  | upper => upper

/-- Lays each of some members over the one of its name. -/
def overlayMembers (base : List (String × Json)) : List (String × Json) → List (String × Json)
  | [] => base
  | (name, value) :: rest =>
    let below := (base.lookup name).getD .null
    overlayMembers (Sorted.put name (overlay below value) base) rest

end

/-! ## Paths -/

inductive Step
  | member (name : String)
  /-- An item by its place; the last one has the place -1. -/
  | item (place : Int)
  deriving DecidableEq

/-- Some items with `null` in front, so that the place `place` from the end is there. -/
def padFront (place : Int) (items : List Json) : List Json :=
  List.replicate (-(items.length + place)).toNat .null ++ items

/-- Some items with `null` behind, so that the place `place` is there. -/
def padBack (place : Nat) (items : List Json) : List Json :=
  items ++ List.replicate (place + 1 - items.length) .null

/-- The items made long enough for a place, and that place counted from the front. -/
def makeRoom (place : Int) (items : List Json) : List Json × Nat :=
  if place < 0 then
    let items := padFront place items
    (items, (items.length + place).toNat)
  else (padBack place.toNat items, place.toNat)

theorem makeRoom_lt (place : Int) (items : List Json) :
    (makeRoom place items).2 < (makeRoom place items).1.length := by
  unfold makeRoom padFront padBack
  split <;> simp only [List.length_append, List.length_replicate] <;> omega

/-- Lays a value over what is at the end of a path. -/
def assign (base : Json) : (path : List Step) → (value : Json) → Json
  | [], value => overlay base value
  | .member name :: path, value =>
    let members := membersOf base
    let below := (members.lookup name).getD .null
    .obj (Sorted.put name (assign below path value) members)
  | .item place :: path, value =>
    let (items, place) := makeRoom place (itemsOf base)
    .arr (items.modify place fun below => assign below path value)

/-- Whether a character may be part of a name in a path. -/
def isNameChar (c : Char) : Bool := c.isAlphanum || c == '_' || c == '-'

/-- The place written between brackets: digits with or without a minus sign, below `2 ^ 63`. Blanks
around it are passed over. -/
def placeOf? (cs : List Char) : Option Int :=
  let isBlank := fun c => c == ' ' || c == '\t'
  let cs := ((cs.dropWhile isBlank).reverse.dropWhile isBlank).reverse
  let (sign, digits) := match cs with
    | '-' :: digits => (-1, digits)
    | digits => (1, digits)
  let n : Int := digits.foldl (fun n d => n * 10 + (d.toNat - '0'.toNat)) 0
  let limit := Int.pow 2 63
  if digits ≠ [] ∧ digits.all Char.isDigit ∧ -limit ≤ sign * n ∧ sign * n < limit then
    some (sign * n)
  else none

/-- The items that brackets lead to: `[` and a place and `]`, any number of times. -/
def itemsOfPath? : List (List Char) → Option (List Step)
  | [] => some []
  | part :: parts =>
    match part.reverse with
    | ']' :: place => do
      let place ← placeOf? place.reverse
      let rest ← itemsOfPath? parts
      some (.item place :: rest)
    | _ => none

/-- The steps that one part of a path between dots makes: a name, and brackets behind it. -/
def stepsOfPart? (part : String) : Option (List Step) :=
  match Text.splitChars '[' part.toList with
  | [] => none
  | name :: brackets =>
    if name ≠ [] ∧ name.all isNameChar then
      (itemsOfPath? brackets).map (.member (String.ofList name) :: ·)
    else none

/-- The steps of a path; a text that is no path is one name. -/
def pathOf (key : String) : List Step :=
  (((Text.split '.' key).mapM stepsOfPart?).map List.flatten).getD [.member key]

/-- Lays a layer, values under paths, over `base`. -/
def overlayLayer (base : Json) (layer : List (String × Json)) : Json :=
  layer.foldl (fun acc (key, value) => assign acc (pathOf key) value) base

end Templating.Settings
