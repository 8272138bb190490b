/-!
# Cutting texts

`cutAfter` cuts a text after a number of bytes of its UTF-8 form, and says so when that would be
inside a character. `breakOn` cuts at the first occurrence of a mark. In both cases the two parts,
with the mark between them for `breakOn`, are the whole text again.
-/

namespace Templating.Text

/-- Cuts `cs` after its first `n` bytes. There is no such cut when it would fall inside a
character or beyond the end. -/
def cutAfter : Nat → List Char → Option (List Char × List Char)
  | 0, cs => some ([], cs)
  | _ + 1, [] => none
  | n + 1, c :: cs =>
    if c.utf8Size ≤ n + 1 then
      (cutAfter (n + 1 - c.utf8Size) cs).map fun (left, right) => (c :: left, right)
    else none

/-- What follows `mark` at the start of `cs`. -/
def dropMark : (mark cs : List Char) → Option (List Char)
  | [], cs => some cs
  | _ :: _, [] => none
  | m :: mark, c :: cs => if m = c then dropMark mark cs else none

/-- The text before the first occurrence of `mark` and the text after it. -/
def breakOn (mark : List Char) : List Char → Option (List Char × List Char)
  | [] => (dropMark mark []).map fun rest => ([], rest)
  | c :: cs =>
    match dropMark mark (c :: cs) with
    | some rest => some ([], rest)
    | none => (breakOn mark cs).map fun (before, after) => (c :: before, after)

/-- `s` without `mark` at its start, when it starts so. -/
def stripStart (mark s : String) : Option String :=
  (dropMark mark.toList s.toList).map String.ofList

def startsWith (mark s : String) : Bool := (dropMark mark.toList s.toList).isSome

/-- The parts of `cs` between occurrences of `sep`: one more than there are separators. -/
def splitChars (sep : Char) : List Char → List (List Char)
  | [] => [[]]
  | c :: cs =>
    if c = sep then [] :: splitChars sep cs
    else
      match splitChars sep cs with
      | [] => [[c]]
      | part :: parts => (c :: part) :: parts

/-- The parts of `s` between occurrences of `sep`. -/
def split (sep : Char) (s : String) : List String := (splitChars sep s.toList).map String.ofList

theorem dropMark_eq_some {mark cs rest : List Char} :
    dropMark mark cs = some rest ↔ cs = mark ++ rest := by
  induction mark generalizing cs with
  | nil => simp [dropMark, eq_comm]
  | cons m mark ih =>
    cases cs with
    | nil => simp [dropMark]
    | cons c cs =>
      by_cases h : m = c
      · simp [dropMark, h, ih]
      · simp [dropMark, h, Ne.symm h]

theorem append_of_breakOn {mark cs before after : List Char}
    (h : breakOn mark cs = some (before, after)) : cs = before ++ mark ++ after := by
  induction cs generalizing before with
  | nil =>
    simp only [breakOn, Option.map_eq_some_iff, Prod.mk.injEq] at h
    obtain ⟨rest, h, rfl, rfl⟩ := h
    simpa using dropMark_eq_some.1 h
  | cons c cs ih =>
    rw [breakOn] at h
    split at h
    · next rest hrest =>
      simp only [Option.some.injEq, Prod.mk.injEq] at h
      obtain ⟨rfl, rfl⟩ := h
      simpa using dropMark_eq_some.1 hrest
    · simp only [Option.map_eq_some_iff, Prod.mk.injEq, Prod.exists] at h
      obtain ⟨left, right, hb, rfl, rfl⟩ := h
      simp [ih hb]

theorem length_of_breakOn {mark cs before after : List Char}
    (h : breakOn mark cs = some (before, after)) :
    cs.length = before.length + mark.length + after.length := by
  rw [append_of_breakOn h]
  simp [Nat.add_assoc]

theorem append_of_cutAfter {n : Nat} {cs left right : List Char}
    (h : cutAfter n cs = some (left, right)) : cs = left ++ right := by
  fun_induction cutAfter n cs generalizing left right with
  | case1 cs => simp_all
  | case2 => simp at h
  | case3 n c cs hc ih =>
    simp only [Option.map_eq_some_iff, Prod.mk.injEq, Prod.exists] at h
    obtain ⟨l, r, hlr, rfl, rfl⟩ := h
    simp [ih hlr]
  | case4 => simp at h

end Templating.Text
