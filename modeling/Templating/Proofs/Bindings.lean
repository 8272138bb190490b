import Templating.Bindings
import Templating.Proofs.Sorted

/-!
# Names of data

Data is an ordered map whose names are told apart without regard to the case of ASCII letters
(`Built.selects_one`). What makes it one is that no two of its names differ in case alone
(`Distinct`), which every way to build it keeps (`Built.distinct`). Under it the two looks for a
name, first for its very spelling and then for any, come to one entry (`position?_of_split`), and
each operation is read off the list of entries split at that entry.
-/

namespace Templating

/-! ## Spellings of a name -/

namespace Text

theorem sameIgnoringCase_comm (a b : String) : sameIgnoringCase a b = sameIgnoringCase b a :=
  Bool.eq_iff_iff.2 (by rw [sameIgnoringCase_iff, sameIgnoringCase_iff, eq_comm])

/-- Two spellings of one name are the same to any other name. -/
theorem sameIgnoringCase_congr {a b : String} (h : sameIgnoringCase a b = true) (c : String) :
    sameIgnoringCase a c = sameIgnoringCase b c := by
  rw [sameIgnoringCase, sameIgnoringCase, sameIgnoringCase_iff.1 h]

end Text

open Text (sameIgnoringCase)

namespace Bindings

variable {α : Type}

/-- No two names are the same but for case. -/
def Distinct (b : Bindings α) : Prop :=
  b.entries.Pairwise fun e e' => sameIgnoringCase e.1 e'.1 = false

/-! ## The entry that a name selects -/

theorem findIdx?_of_split {entries before after : List (String × α)} {e : String × α}
    {p : String × α → Bool} (hsplit : entries = before ++ e :: after)
    (hbefore : ∀ e' ∈ before, p e' = false) (he : p e = true) :
    entries.findIdx? p = some before.length := by
  have hnone : before.findIdx? p = none := List.findIdx?_eq_none_iff.2 hbefore
  rw [hsplit, List.findIdx?_append, hnone, List.findIdx?_cons, he]
  simp

section Split

variable {b : Bindings α} (h : b.Distinct) {before after : List (String × α)} {e : String × α}
  (hsplit : b.entries = before ++ e :: after) {name : String}
  (hsame : sameIgnoringCase e.1 name = true)
include h hsplit hsame

/-- No other entry has the name in any spelling. -/
theorem others_differ : ∀ e' ∈ before ++ after, sameIgnoringCase e'.1 name = false := by
  have hpair := h
  rw [Distinct, hsplit, List.pairwise_append, List.pairwise_cons] at hpair
  obtain ⟨-, ⟨hafter, -⟩, hbefore⟩ := hpair
  intro e' hmem
  rw [Text.sameIgnoringCase_comm, ← Text.sameIgnoringCase_congr hsame]
  rcases List.mem_append.1 hmem with hmem | hmem
  · rw [Text.sameIgnoringCase_comm]
    exact hbefore e' hmem e List.mem_cons_self
  · exact hafter e' hmem

theorem position?_of_split : b.position? name = some before.length := by
  have hothers := others_differ h hsplit hsame
  have hfolded : b.entries.findIdx? (fun entry => sameIgnoringCase entry.1 name) =
      some before.length :=
    findIdx?_of_split hsplit (fun e' hmem => hothers e' (List.mem_append_left _ hmem)) hsame
  -- An entry of this very spelling has the name in some spelling.
  have hexact : ∀ e' ∈ before ++ after, (e'.1 == name) = false := by
    intro e' hmem
    apply beq_false_of_ne
    intro heq
    have hdiffers := hothers e' hmem
    rw [heq, Text.sameIgnoringCase_refl] at hdiffers
    cases hdiffers
  unfold position?
  by_cases hname : (e.1 == name) = true
  · have hfound : b.entries.findIdx? (fun entry => entry.1 == name) = some before.length :=
      findIdx?_of_split hsplit (fun e' hmem => hexact e' (List.mem_append_left _ hmem)) hname
    rw [hfound]
  · have hmissed : b.entries.findIdx? (fun entry => entry.1 == name) = none := by
      rw [List.findIdx?_eq_none_iff, hsplit]
      intro e' hmem
      rcases List.mem_append.1 hmem with hmem | hmem
      · exact hexact e' (List.mem_append_left _ hmem)
      · rcases List.mem_cons.1 hmem with rfl | hmem
        · exact Bool.not_eq_true _ ▸ hname
        · exact hexact e' (List.mem_append_right _ hmem)
    rw [hmissed, hfolded]

theorem get?_of_split : b.get? name = some e.2 := by
  rw [get?, position?_of_split h hsplit hsame, Option.bind_some, hsplit]
  simp

theorem contains_of_split : b.contains name = true := by
  rw [contains, position?_of_split h hsplit hsame]
  rfl

theorem insert_of_split (value : α) :
    (b.insert name value).entries = before ++ (name, value) :: after := by
  rw [insert, position?_of_split h hsplit hsame, hsplit]
  simp

theorem erase_of_split : (b.erase name).entries = before ++ after := by
  rw [erase, position?_of_split h hsplit hsame, hsplit]
  simp [List.eraseIdx_append_of_length_le]

end Split

section Absent

variable {b : Bindings α} {name : String}
  (h : ∀ e ∈ b.entries, sameIgnoringCase e.1 name = false)
include h

theorem position?_of_absent : b.position? name = none := by
  have hexact : b.entries.findIdx? (fun entry => entry.1 == name) = none := by
    rw [List.findIdx?_eq_none_iff]
    intro e hmem
    apply beq_false_of_ne
    intro heq
    have hdiffers := h e hmem
    rw [heq, Text.sameIgnoringCase_refl] at hdiffers
    cases hdiffers
  rw [position?, hexact]
  exact List.findIdx?_eq_none_iff.2 h

theorem get?_of_absent : b.get? name = none := by
  rw [get?, position?_of_absent h]
  rfl

theorem contains_of_absent : b.contains name = false := by
  rw [contains, position?_of_absent h]
  rfl

theorem insert_of_absent (value : α) :
    (b.insert name value).entries = b.entries ++ [(name, value)] := by
  rw [insert, position?_of_absent h]

theorem erase_of_absent : b.erase name = b := by
  rw [erase, position?_of_absent h]

end Absent

/-- A name selects an entry, or no entry has it in any spelling. -/
theorem split_or_absent (b : Bindings α) (name : String) :
    (∃ before e after, b.entries = before ++ e :: after ∧ sameIgnoringCase e.1 name = true) ∨
      ∀ e ∈ b.entries, sameIgnoringCase e.1 name = false := by
  by_cases h : ∃ e ∈ b.entries, sameIgnoringCase e.1 name = true
  · obtain ⟨e, hmem, hsame⟩ := h
    obtain ⟨before, after, hsplit⟩ := List.append_of_mem hmem
    exact .inl ⟨before, e, after, hsplit, hsame⟩
  · refine .inr fun e hmem => ?_
    rw [← Bool.not_eq_true]
    exact fun hsame => h ⟨e, hmem, hsame⟩

/-! ## What is there after a change -/

namespace Distinct

variable {b : Bindings α} (h : b.Distinct)
include h

theorem mem_insert_iff {name : String} {value : α} {e : String × α} :
    e ∈ (b.insert name value).entries ↔
      e = (name, value) ∨ e ∈ b.entries ∧ sameIgnoringCase e.1 name = false := by
  rcases b.split_or_absent name with ⟨before, e', after, hsplit, hsame⟩ | habsent
  · have hothers := others_differ h hsplit hsame
    rw [insert_of_split h hsplit hsame, hsplit]
    have hfirst : sameIgnoringCase e.1 name = false → e ≠ e' := by
      rintro hdiffers rfl
      rw [hsame] at hdiffers
      cases hdiffers
    have hrest : e ∈ before ++ after → sameIgnoringCase e.1 name = false := hothers e
    simp only [List.mem_append, List.mem_cons] at hrest ⊢
    tauto
  · have hrest : e ∈ b.entries → sameIgnoringCase e.1 name = false := habsent e
    rw [insert_of_absent habsent]
    simp only [List.mem_append, List.mem_singleton]
    tauto

theorem insert (name : String) (value : α) : (b.insert name value).Distinct := by
  rcases b.split_or_absent name with ⟨before, e, after, hsplit, hsame⟩ | habsent
  · have hpair := h
    rw [Distinct, hsplit, List.pairwise_append, List.pairwise_cons] at hpair
    obtain ⟨hbefore, ⟨hfirst, hafter⟩, hcross⟩ := hpair
    rw [Distinct, insert_of_split h hsplit hsame, List.pairwise_append, List.pairwise_cons]
    have hothers := others_differ h hsplit hsame
    refine ⟨hbefore, ⟨?_, hafter⟩, ?_⟩
    · intro e' hmem
      rw [Text.sameIgnoringCase_comm]
      exact hothers e' (List.mem_append_right _ hmem)
    · intro e' hmem e'' hmem'
      rcases List.mem_cons.1 hmem' with rfl | hmem'
      · exact hothers e' (List.mem_append_left _ hmem)
      · exact hcross e' hmem e'' (List.mem_cons_of_mem _ hmem')
  · rw [Distinct, insert_of_absent habsent, List.pairwise_append]
    refine ⟨h, List.pairwise_singleton .., ?_⟩
    intro e hmem e' hmem'
    rw [List.mem_singleton.1 hmem']
    exact habsent e hmem

theorem erase (name : String) : (b.erase name).Distinct := by
  rcases b.split_or_absent name with ⟨before, e, after, hsplit, hsame⟩ | habsent
  · have hpair := h
    rw [Distinct, hsplit] at hpair
    rw [Distinct, erase_of_split h hsplit hsame]
    exact hpair.sublist (List.Sublist.append_left (List.sublist_cons_self e after) before)
  · rwa [erase_of_absent habsent]

theorem get?_eq_some_iff {name : String} {value : α} :
    b.get? name = some value ↔ ∃ e ∈ b.entries, sameIgnoringCase e.1 name = true ∧ e.2 = value := by
  constructor
  · intro hget
    rcases b.split_or_absent name with ⟨before, e, after, hsplit, hsame⟩ | habsent
    · rw [get?_of_split h hsplit hsame, Option.some.injEq] at hget
      exact ⟨e, by rw [hsplit]; simp, hsame, hget⟩
    · rw [get?_of_absent habsent] at hget
      cases hget
  · rintro ⟨e, hmem, hsame, rfl⟩
    obtain ⟨before, after, hsplit⟩ := List.append_of_mem hmem
    exact get?_of_split h hsplit hsame

/-- **A bound name** is found in every spelling, and every other name as before. -/
theorem get?_insert (name other : String) (value : α) :
    (b.insert name value).get? other =
      if sameIgnoringCase other name then some value else b.get? other := by
  apply Option.ext
  intro found
  rw [(h.insert name value).get?_eq_some_iff]
  cases hother : sameIgnoringCase other name with
  | true =>
    simp only [if_true, h.mem_insert_iff]
    constructor
    · rintro ⟨e, rfl | ⟨-, hdiffers⟩, hsame, rfl⟩
      · rfl
      · rw [← Text.sameIgnoringCase_congr hsame, hdiffers] at hother
        cases hother
    · rintro heq
      cases heq
      exact ⟨(name, value), .inl rfl, Text.sameIgnoringCase_comm other name ▸ hother, rfl⟩
  | false =>
    simp only [Bool.false_eq_true, if_false, h.mem_insert_iff, h.get?_eq_some_iff]
    constructor
    · rintro ⟨e, rfl | ⟨hmem, -⟩, hsame, rfl⟩
      · rw [Text.sameIgnoringCase_comm, hsame] at hother
        cases hother
      · exact ⟨e, hmem, hsame, rfl⟩
    · rintro ⟨e, hmem, hsame, rfl⟩
      exact ⟨e, .inr ⟨hmem, (Text.sameIgnoringCase_congr hsame name).trans hother⟩, hsame, rfl⟩

theorem nodup_names : (b.entries.map Prod.fst).Nodup := by
  rw [List.Nodup, List.pairwise_map]
  refine List.Pairwise.imp ?_ h
  rintro e e' hdiffers heq
  rw [heq, Text.sameIgnoringCase_refl] at hdiffers
  cases hdiffers

end Distinct

/-- Written as an object, data loses no entry. -/
theorem Distinct.members_toJson {b : Bindings Json} (h : b.Distinct) :
    ∃ members, b.toJson = .obj members ∧ members.length = b.size :=
  ⟨_, rfl, Sorted.length_ofList h.nodup_names⟩

theorem distinct_empty : Distinct (⟨[]⟩ : Bindings α) := List.Pairwise.nil

theorem Distinct.foldl_insert {b : Bindings α} (h : b.Distinct) (members : List (String × α)) :
    (members.foldl (fun b (name, value) => b.insert name value) b).Distinct := by
  induction members generalizing b with
  | nil => exact h
  | cons member members ih => exact ih (h.insert member.1 member.2)

theorem distinct_ofList (members : List (String × α)) : (ofList members).Distinct :=
  distinct_empty.foldl_insert members

theorem distinct_of_ofModel {model : Json} {b : Bindings Json} (h : ofModel model = .ok b) :
    b.Distinct := by
  cases model <;> cases h
  · exact distinct_empty
  · exact distinct_ofList _

/-! ## Binding in place -/

section Rebind

/-- The data with `value` under `name`: in place of what has the name in any spelling, or behind
all others. -/
def rebind (b : Bindings α) (name : String) (value : α) : Bindings α :=
  if b.entries.any fun e => sameIgnoringCase e.1 name then
    ⟨b.entries.map fun e => if sameIgnoringCase e.1 name then (name, value) else e⟩
  else ⟨b.entries ++ [(name, value)]⟩

theorem any_eq_false_of_absent {b : Bindings α} {name : String}
    (h : ∀ e ∈ b.entries, sameIgnoringCase e.1 name = false) :
    (b.entries.any fun e => sameIgnoringCase e.1 name) = false :=
  List.any_eq_false.2 fun e hmem => Bool.eq_false_iff.1 (h e hmem)

/-- Entries with other names stay. -/
theorem map_of_absent {entries : List (String × α)} {name : String}
    (h : ∀ e ∈ entries, sameIgnoringCase e.1 name = false) (value : α) :
    (entries.map fun e => if sameIgnoringCase e.1 name then (name, value) else e) = entries := by
  conv_rhs => rw [← List.map_id entries]
  apply List.map_congr_left
  intro e hmem
  exact if_neg (Bool.eq_false_iff.1 (h e hmem))

theorem rebind_of_absent {b : Bindings α} {name : String}
    (h : ∀ e ∈ b.entries, sameIgnoringCase e.1 name = false) (value : α) :
    b.rebind name value = ⟨b.entries ++ [(name, value)]⟩ := by
  rw [rebind, any_eq_false_of_absent h, if_neg Bool.false_ne_true]

theorem rebind_of_any {b : Bindings α} {name : String}
    (h : (b.entries.any fun e => sameIgnoringCase e.1 name) = true) (value : α) :
    b.rebind name value =
      ⟨b.entries.map fun e => if sameIgnoringCase e.1 name then (name, value) else e⟩ :=
  if_pos h

theorem Distinct.insert_eq_rebind {b : Bindings α} (h : b.Distinct) (name : String) (value : α) :
    b.insert name value = b.rebind name value := by
  rcases b.split_or_absent name with ⟨before, e, after, hsplit, hsame⟩ | habsent
  · have hothers := others_differ h hsplit hsame
    have hentries := insert_of_split h hsplit hsame value
    have hany : (b.entries.any fun e => sameIgnoringCase e.1 name) = true :=
      List.any_eq_true.2 ⟨e, by rw [hsplit]; simp, hsame⟩
    rw [rebind_of_any hany, hsplit, List.map_append, List.map_cons, if_pos hsame,
      map_of_absent fun e' hmem => hothers e' (List.mem_append_left _ hmem),
      map_of_absent fun e' hmem => hothers e' (List.mem_append_right _ hmem), ← hentries]
  · rw [rebind_of_absent habsent, ← insert_of_absent habsent]

/-- Of two values bound to one name the later counts, in the place of the first. -/
theorem rebind_rebind (b : Bindings α) (name : String) (first later : α) :
    (b.rebind name first).rebind name later = b.rebind name later := by
  have hself : sameIgnoringCase name name = true := Text.sameIgnoringCase_refl name
  rcases b.split_or_absent name with ⟨before, e, after, hsplit, hsame⟩ | habsent
  · have hany : (b.entries.any fun e => sameIgnoringCase e.1 name) = true :=
      List.any_eq_true.2 ⟨e, by rw [hsplit]; simp, hsame⟩
    have hagain : ((b.rebind name first).entries.any fun e => sameIgnoringCase e.1 name) = true := by
      rw [rebind_of_any hany, hsplit]
      simp [hsame, hself]
    rw [rebind_of_any hagain, rebind_of_any hany, rebind_of_any hany, List.map_map]
    congr 1
    apply List.map_congr_left
    intro e' _
    cases he : sameIgnoringCase e'.1 name <;> simp [he, hself]
  · have hagain : ((b.rebind name first).entries.any fun e => sameIgnoringCase e.1 name) = true := by
      rw [rebind_of_absent habsent]
      simp [hself]
    rw [rebind_of_any hagain, rebind_of_absent habsent, rebind_of_absent habsent, List.map_append,
      map_of_absent habsent, List.map_singleton, if_pos hself]

end Rebind

/-! ## Data that is built -/

/-- Data that starts empty, from a model or from named values, and in which names are then bound
and unbound. -/
inductive Built : Bindings Json → Prop
  | empty : Built ⟨[]⟩
  | ofModel {model : Json} {b : Bindings Json} : ofModel model = .ok b → Built b
  | ofList (members : List (String × Json)) : Built (ofList members)
  | insert {b : Bindings Json} (name : String) (value : Json) : Built b → Built (b.insert name value)
  | erase {b : Bindings Json} (name : String) : Built b → Built (b.erase name)
  | withBag {b : Bindings Json} (bag : List (String × Json)) : Built b → Built (b.withBag bag)

theorem Built.distinct {b : Bindings Json} (h : Built b) : b.Distinct := by
  induction h with
  | empty => exact distinct_empty
  | ofModel h => exact distinct_of_ofModel h
  | ofList members => exact distinct_ofList members
  | insert name value _ ih => exact ih.insert name value
  | erase name _ ih => exact ih.erase name
  | withBag bag _ ih => exact ih.insert bagName (.obj bag)

/-- **Data is an ordered map of names in any spelling.** No two names are the same but for case. A
name that is there in some spelling selects this one entry: its value is found, binding the name
puts name and value in its place, and unbinding it takes it away, the others staying as they are. A
name that is not there is bound behind all others. So a bound name is found in every spelling and
other names as before, and data written as an object has as many members as entries. -/
theorem Built.selects_one {b : Bindings Json} (h : Built b) :
    (b.entries.Pairwise fun e e' => sameIgnoringCase e.1 e'.1 = false) ∧
    (∀ before e after name, b.entries = before ++ e :: after →
      sameIgnoringCase e.1 name = true →
      b.get? name = some e.2 ∧ b.contains name = true ∧
        (∀ value, (b.insert name value).entries = before ++ (name, value) :: after) ∧
        (b.erase name).entries = before ++ after) ∧
    (∀ name, (∀ e ∈ b.entries, sameIgnoringCase e.1 name = false) →
      b.get? name = none ∧ b.contains name = false ∧
        (∀ value, (b.insert name value).entries = b.entries ++ [(name, value)]) ∧
        b.erase name = b) ∧
    (∀ name other value, (b.insert name value).get? other =
      if sameIgnoringCase other name then some value else b.get? other) ∧
    ∃ members, b.toJson = .obj members ∧ members.length = b.size := by
  have hdistinct := h.distinct
  refine ⟨hdistinct, ?_, ?_, hdistinct.get?_insert, hdistinct.members_toJson⟩
  · intro before e after name hsplit hsame
    exact ⟨get?_of_split hdistinct hsplit hsame, contains_of_split hdistinct hsplit hsame,
      insert_of_split hdistinct hsplit hsame, erase_of_split hdistinct hsplit hsame⟩
  · intro name habsent
    exact ⟨get?_of_absent habsent, contains_of_absent habsent, insert_of_absent habsent,
      erase_of_absent habsent⟩

/-- Data with names of mixed spelling, one of them not in ASCII. -/
def mixed : Bindings Json :=
  ((⟨[]⟩ : Bindings Json).insert "Title" (.str "first")).insert "Été" (.str "summer")

theorem Built.selects_one_mixed :
    Built mixed ∧ mixed.get? "TITLE" = some (.str "first") ∧
      (mixed.insert "tiTLE" .null).entries = [("tiTLE", .null), ("Été", .str "summer")] ∧
      (mixed.insert "éTé" .null).entries =
        [("Title", .str "first"), ("Été", .str "summer"), ("éTé", .null)] ∧
      (mixed.insert "tiTLE" .null).get? "ÉtÉ" = mixed.get? "ÉtÉ" := by
  have hbuilt : Built mixed := (Built.empty.insert "Title" _).insert "Été" _
  obtain ⟨-, hsplit, habsent, hinsert, -⟩ := Built.selects_one hbuilt
  have htitle : ∀ name, sameIgnoringCase "Title" name = true → _ := fun name =>
    hsplit [] ("Title", .str "first") [("Été", .str "summer")] name rfl
  refine ⟨hbuilt, (htitle "TITLE" rfl).1, (htitle "tiTLE" rfl).2.2.1 .null, ?_, ?_⟩
  · have hother : ∀ e ∈ mixed.entries, sameIgnoringCase e.1 "éTé" = false :=
      List.forall_mem_cons.2 ⟨rfl, List.forall_mem_singleton.2 rfl⟩
    exact (habsent "éTé" hother).2.2.1 .null
  · exact (hinsert "tiTLE" "ÉtÉ" .null).trans (if_neg (by decide))

end Bindings

end Templating
