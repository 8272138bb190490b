import Mathlib.Data.List.TakeWhile
import Mathlib.Data.String.Basic
import Templating.Text.Blank
import Templating.Text.Cut

/-!
# Cutting and trimming texts

`Text.cutAfter` cuts behind a number of bytes, if these are whole characters (`cutAfter_eq_some_iff`);
`Text.splitAt?` does it by a position in the bytes (`splitAt?_eq_some_iff`). `Text.breakOn` cuts at
the first occurrence of a mark (`breakOn_eq_some_iff`) and fails just if there is none
(`breakOn_eq_none_iff`). `Text.trimChars` takes blanks from both ends of a text until none is left
there (`isTrimmed_iff`).
-/

namespace Templating.Text

/-! ## A number of bytes -/

theorem utf8Len_of_cutAfter {n : Nat} {cs left right : List Char}
    (h : cutAfter n cs = some (left, right)) : String.utf8Len left = n := by
  fun_induction cutAfter n cs generalizing left right with
  | case1 cs =>
    cases h
    rfl
  | case3 n c cs hc ih =>
    obtain ⟨⟨before, after⟩, hcut, heq⟩ := Option.map_eq_some_iff.1 h
    cases heq
    rw [String.utf8Len_cons, ih hcut, Nat.sub_add_cancel hc]
  | case2 | case4 => cases h

theorem cutAfter_append (left right : List Char) :
    cutAfter (String.utf8Len left) (left ++ right) = some (left, right) := by
  induction left with
  | nil => exact cutAfter.eq_1 right
  | cons c left ih =>
    obtain ⟨n, hn⟩ : ∃ n, String.utf8Len left + c.utf8Size = n + 1 :=
      Nat.exists_eq_succ_of_ne_zero (Nat.ne_of_gt (Nat.add_pos_right _ c.utf8Size_pos))
    have hle : c.utf8Size ≤ n + 1 := hn ▸ Nat.le_add_left ..
    have hrest : n + 1 - c.utf8Size = String.utf8Len left := Nat.sub_eq_of_eq_add hn.symm
    rw [String.utf8Len_cons, hn, List.cons_append, cutAfter, if_pos hle, hrest, ih]
    rfl

/-- **A text is cut where its first bytes are whole characters**, and nowhere else. -/
theorem cutAfter_eq_some_iff {n : Nat} {cs left right : List Char} :
    cutAfter n cs = some (left, right) ↔ cs = left ++ right ∧ String.utf8Len left = n := by
  constructor
  · exact fun h => ⟨append_of_cutAfter h, utf8Len_of_cutAfter h⟩
  · rintro ⟨rfl, rfl⟩
    exact cutAfter_append left right

theorem isValid_iff {n : Nat} {s : String} : (String.Pos.Raw.mk n).IsValid s ↔
    ∃ front rest, s = front ++ rest ∧ front.utf8ByteSize = n := by
  rw [String.Pos.Raw.isValid_iff_exists_append]
  refine exists₂_congr fun front rest => and_congr_right fun _ => ?_
  rw [String.Pos.Raw.ext_iff]
  exact eq_comm

/-- A text before and behind the start of its byte `n`. It cannot be split there when this is inside
a character or beyond the end. -/
def splitAt? (n : Nat) (s : String) : Option (String × String) :=
  if h : (String.Pos.Raw.mk n).IsValid s then
    some ((s.sliceTo (s.pos ⟨n⟩ h)).copy, (s.sliceFrom (s.pos ⟨n⟩ h)).copy)
  else none

theorem splitAt?_eq_some_iff {n : Nat} {s front rest : String} :
    splitAt? n s = some (front, rest) ↔ s = front ++ rest ∧ front.utf8ByteSize = n := by
  unfold splitAt?
  split
  · next h =>
    rw [Option.some.injEq, Prod.mk.injEq]
    have hsplits := (s.pos ⟨n⟩ h).splits
    constructor
    · rintro ⟨rfl, rfl⟩
      exact ⟨hsplits.eq_append, congrArg String.Pos.Raw.byteIdx hsplits.offset_eq_rawEndPos.symm⟩
    · rintro ⟨happend, rfl⟩
      have hsplits' : (s.pos _ h).Splits front rest := ⟨happend, rfl⟩
      exact ⟨hsplits.eq_left hsplits', hsplits.eq_right hsplits'⟩
  · next h => exact iff_of_false nofun fun hsplit => h (isValid_iff.2 ⟨front, rest, hsplit⟩)

/-- The second character has three bytes and cannot be split. -/
example : splitAt? 1 "a€" = some ("a", "€") ∧ splitAt? 2 "a€" = none := by decide

theorem splitAt?_append (front rest : String) :
    splitAt? front.utf8ByteSize (front ++ rest) = some (front, rest) :=
  splitAt?_eq_some_iff.2 ⟨rfl, rfl⟩

/-! ## The first occurrence of a mark -/

theorem dropMark_eq_none {mark cs : List Char} :
    dropMark mark cs = none ↔ ∀ rest, cs ≠ mark ++ rest := by
  rw [Option.eq_none_iff_forall_ne_some]
  exact forall_congr' fun rest => not_congr dropMark_eq_some

theorem breakOn_of_dropMark {mark cs rest : List Char} (h : dropMark mark cs = some rest) :
    breakOn mark cs = some ([], rest) := by
  cases cs with
  | nil => rw [breakOn, h]; rfl
  | cons c cs => rw [breakOn, h]

theorem breakOn_cons_of_none {mark cs : List Char} {c : Char} (h : dropMark mark (c :: cs) = none) :
    breakOn mark (c :: cs) = (breakOn mark cs).map fun (before, after) => (c :: before, after) := by
  rw [breakOn, h]

/-- No occurrence of the mark starts before the cut. -/
theorem length_le_of_breakOn {mark cs before after : List Char}
    (h : breakOn mark cs = some (before, after)) (left right : List Char)
    (hcs : cs = left ++ mark ++ right) : before.length ≤ left.length := by
  induction left generalizing cs before with
  | nil =>
    have hdrop : dropMark mark cs = some right := dropMark_eq_some.2 hcs
    rw [breakOn_of_dropMark hdrop] at h
    cases h
    exact Nat.le_refl 0
  | cons c left ih =>
    subst hcs
    cases hdrop : dropMark mark (c :: (left ++ mark ++ right)) with
    | some rest =>
      cases (breakOn_of_dropMark hdrop).symm.trans h
      exact Nat.zero_le _
    | none =>
      rw [List.cons_append, List.cons_append, breakOn_cons_of_none hdrop] at h
      obtain ⟨⟨before', after'⟩, hrest, heq⟩ := Option.map_eq_some_iff.1 h
      cases heq
      exact Nat.succ_le_succ (ih hrest rfl)

/-- A text that holds the mark is cut somewhere. -/
theorem breakOn_append_ne_none (mark left right : List Char) :
    breakOn mark (left ++ mark ++ right) ≠ none := by
  induction left with
  | nil =>
    have hdrop : dropMark mark ([] ++ mark ++ right) = some right := dropMark_eq_some.2 rfl
    rw [breakOn_of_dropMark hdrop]
    exact Option.some_ne_none _
  | cons c left ih =>
    rw [List.cons_append, List.cons_append]
    cases hdrop : dropMark mark (c :: (left ++ mark ++ right)) with
    | some rest =>
      rw [breakOn_of_dropMark hdrop]
      exact Option.some_ne_none _
    | none =>
      rw [breakOn_cons_of_none hdrop]
      exact fun hnone => ih (Option.map_eq_none_iff.1 hnone)

theorem breakOn_eq_none_iff {mark cs : List Char} :
    breakOn mark cs = none ↔ ∀ left right, cs ≠ left ++ mark ++ right := by
  constructor
  · rintro hnone left right rfl
    exact breakOn_append_ne_none mark left right hnone
  · intro habsent
    rw [Option.eq_none_iff_forall_ne_some]
    rintro ⟨before, after⟩ hsome
    exact habsent before after (append_of_breakOn hsome)

/-- **A text is cut at the first occurrence of the mark.** -/
theorem breakOn_eq_some_iff {mark cs before after : List Char} :
    breakOn mark cs = some (before, after) ↔
      cs = before ++ mark ++ after ∧
        ∀ left right, cs = left ++ mark ++ right → before.length ≤ left.length := by
  refine ⟨fun h => ⟨append_of_breakOn h, length_le_of_breakOn h⟩, ?_⟩
  rintro ⟨hcs, hfirst⟩
  -- there is a cut, and of two occurrences that come first neither starts before the other
  obtain ⟨⟨before', after'⟩, hsome⟩ : ∃ parts, breakOn mark cs = some parts := by
    rw [← Option.ne_none_iff_exists', hcs]
    exact breakOn_append_ne_none mark before after
  have hcs' := append_of_breakOn hsome
  have hlength : before.length = before'.length :=
    Nat.le_antisymm (hfirst before' after' hcs') (length_le_of_breakOn hsome before after hcs)
  have hparts := hcs.symm.trans hcs'
  rw [List.append_assoc, List.append_assoc] at hparts
  obtain ⟨rfl, hrest⟩ := List.append_inj hparts hlength
  rw [hsome, List.append_cancel_left hrest]

/-- A mark whose first character does not come before it is found where it stands. -/
theorem breakOn_of_not_mem {m : Char} {mark before : List Char} (h : m ∉ before)
    (after : List Char) :
    breakOn (m :: mark) (before ++ (m :: mark) ++ after) = some (before, after) := by
  rw [breakOn_eq_some_iff]
  refine ⟨rfl, fun left right hparts => Nat.le_of_not_lt fun hlt => ?_⟩
  -- an earlier occurrence would start with `m` inside `before`
  have hget := congrArg (·[left.length]?) hparts
  simp only [List.append_assoc, List.getElem?_append_left hlt, List.cons_append,
    List.getElem?_append_right (Nat.le_refl _), Nat.sub_self, List.getElem?_cons_zero] at hget
  exact h (List.mem_of_getElem? hget)

/-! ## Trimmed texts -/

def AllBlank (cs : List Char) : Prop := ∀ c ∈ cs, isBlank c = true

/-- That `trimmed` is what is left of a text without the blanks at its ends. -/
def IsTrimmed (cs trimmed : List Char) : Prop :=
  (∃ left right, cs = left ++ trimmed ++ right ∧ AllBlank left ∧ AllBlank right) ∧
    (∀ c, trimmed.head? = some c → isBlank c = false) ∧
    ∀ c, trimmed.getLast? = some c → isBlank c = false

theorem dropWhile_append_of_allBlank {left : List Char} (h : AllBlank left) (cs : List Char) :
    (left ++ cs).dropWhile isBlank = cs.dropWhile isBlank :=
  List.dropWhile_append_of_pos h

theorem dropWhile_of_head {cs : List Char} (h : ∀ c, cs.head? = some c → isBlank c = false) :
    cs.dropWhile isBlank = cs := by
  cases cs with
  | nil => rfl
  | cons c cs => exact List.dropWhile_cons_of_neg (by rw [h c rfl]; exact Bool.false_ne_true)

theorem trimEndChars_append_of_allBlank {right : List Char} (h : AllBlank right) (cs : List Char) :
    trimEndChars (cs ++ right) = trimEndChars cs := by
  have hreverse : AllBlank right.reverse := fun c hc => h c (List.mem_reverse.1 hc)
  rw [trimEndChars, List.reverse_append, dropWhile_append_of_allBlank hreverse, trimEndChars]

theorem trimEndChars_of_getLast {cs : List Char}
    (h : ∀ c, cs.getLast? = some c → isBlank c = false) : trimEndChars cs = cs := by
  rw [trimEndChars, dropWhile_of_head (by rwa [List.head?_reverse]), List.reverse_reverse]

/-- Without blanks at its ends a text is not trimmed any further. -/
theorem IsTrimmed.trimChars_eq {cs trimmed : List Char} (h : IsTrimmed cs trimmed) :
    trimChars cs = trimmed := by
  obtain ⟨⟨left, right, rfl, hleft, hright⟩, hhead, hlast⟩ := h
  rw [trimChars, List.append_assoc, dropWhile_append_of_allBlank hleft]
  cases trimmed with
  | nil =>
    have hnil : ([] ++ right).dropWhile isBlank = [] := List.dropWhile_eq_nil_iff.2 hright
    rw [hnil]
    rfl
  | cons c trimmed =>
    have hstays : ((c :: trimmed) ++ right).dropWhile isBlank = (c :: trimmed) ++ right :=
      dropWhile_of_head fun d hd => hhead d hd
    rw [hstays, trimEndChars_append_of_allBlank hright, trimEndChars_of_getLast hlast]

theorem isBlank_of_head_dropWhile (cs : List Char) {c : Char}
    (h : (cs.dropWhile isBlank).head? = some c) : isBlank c = false := by
  have hhead := List.head?_dropWhile_not isBlank cs
  rw [h] at hhead
  simpa using hhead

theorem isTrimmed_trimChars (cs : List Char) : IsTrimmed cs (trimChars cs) := by
  have hstart : cs = cs.takeWhile isBlank ++ cs.dropWhile isBlank :=
    List.takeWhile_append_dropWhile.symm
  have hend : cs.dropWhile isBlank =
      trimChars cs ++ ((cs.dropWhile isBlank).reverse.takeWhile isBlank).reverse := by
    rw [trimChars, trimEndChars, ← List.reverse_append, List.takeWhile_append_dropWhile,
      List.reverse_reverse]
  refine ⟨⟨_, _, by rw [List.append_assoc, ← hend]; exact hstart, ?_, ?_⟩, ?_, ?_⟩
  · exact fun c hc => List.mem_takeWhile_imp hc
  · exact fun c hc => List.mem_takeWhile_imp (List.mem_reverse.1 hc)
  · intro c hc
    apply isBlank_of_head_dropWhile cs
    rw [hend, List.head?_append, hc]
    rfl
  · intro c hc
    apply isBlank_of_head_dropWhile (cs.dropWhile isBlank).reverse
    rwa [trimChars, trimEndChars, List.getLast?_reverse] at hc

/-- **Trimming takes the blanks from both ends and no more.** -/
theorem isTrimmed_iff {cs trimmed : List Char} : IsTrimmed cs trimmed ↔ trimChars cs = trimmed :=
  ⟨IsTrimmed.trimChars_eq, fun h => h ▸ isTrimmed_trimChars cs⟩

end Templating.Text
