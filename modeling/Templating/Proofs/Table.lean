import Templating.Table

/-!
# Look-up laws of tables

Each operation on a `Table` is described by what `get?` finds afterwards. `Table.Distinct` says
that every key stands in one row only; `put`, `erase` and `modify` keep it, and under it the rows
are exactly what `get?` finds (`mem_rows_iff`).
-/

namespace Templating

/-! ## Rows under keys -/

section Rows

variable {κ α : Type} [BEq κ] [LawfulBEq κ] [DecidableEq κ]

theorem lookup_cons_key (key other : κ) (value : α) (rows : List (κ × α)) :
    ((key, value) :: rows).lookup other =
      if other = key then some value else rows.lookup other := by
  by_cases h : other = key
  · subst h
    rw [List.lookup_cons_self, if_pos rfl]
  · rw [List.lookup_cons, beq_eq_false_iff_ne.2 h, if_neg h]

theorem lookup_eq_none {rows : List (κ × α)} {key : κ} :
    rows.lookup key = none ↔ key ∉ rows.map Prod.fst := by
  induction rows with
  | nil => simp
  | cons row rows ih =>
    rw [lookup_cons_key, List.map_cons, List.mem_cons, not_or, ← ih]
    by_cases h : key = row.1 <;> simp [h]

omit [DecidableEq κ] in
theorem lookup_filter_key (rows : List (κ × α)) (p : κ → Bool) (key : κ) :
    (rows.filter fun row => p row.1).lookup key = if p key then rows.lookup key else none := by
  induction rows with
  | nil => simp
  | cons row rows ih =>
    obtain ⟨k, v⟩ := row
    by_cases hk : key = k
    · subst hk
      cases hp : p key <;> simp [hp, ih]
    · have hne : (key == k) = false := by simpa using hk
      cases hp : p k <;> simp [hp, ih, List.lookup_cons, hne]

omit [DecidableEq κ] in
theorem mem_of_lookup {rows : List (κ × α)} {key : κ} {value : α}
    (h : rows.lookup key = some value) : (key, value) ∈ rows := by
  obtain ⟨l₁, l₂, rfl, -⟩ := List.lookup_eq_some_iff.1 h
  simp

omit [DecidableEq κ] in
theorem lookup_of_mem {rows : List (κ × α)} (hd : (rows.map Prod.fst).Nodup)
    {key : κ} {value : α} (h : (key, value) ∈ rows) : rows.lookup key = some value := by
  induction rows with
  | nil => cases h
  | cons row rows ih =>
    obtain ⟨k, v⟩ := row
    rw [List.map_cons, List.nodup_cons] at hd
    rcases List.mem_cons.1 h with heq | hmem
    · cases heq
      exact List.lookup_cons_self
    · have hne : key ≠ k := by
        intro heq
        subst heq
        exact hd.1 (List.mem_map.2 ⟨(key, value), hmem, rfl⟩)
      rw [List.lookup_cons, show (key == k) = false by simpa using hne]
      exact ih hd.2 hmem

end Rows

namespace Table

variable {α : Type}

@[simp] theorem get?_empty (key : String) : (empty : Table α).get? key = none := rfl

@[simp] theorem contains_eq (t : Table α) (key : String) :
    t.contains key = (t.get? key).isSome := rfl

theorem get?_erase (t : Table α) (key other : String) :
    (t.erase key).get? other = if other = key then none else t.get? other := by
  unfold get? erase
  rw [lookup_filter_key t.rows (fun k => k != key)]
  by_cases h : other = key <;> simp [h]

@[simp] theorem get?_erase_self (t : Table α) (key : String) : (t.erase key).get? key = none := by
  simp [get?_erase]

theorem get?_erase_of_ne (t : Table α) {key other : String} (h : other ≠ key) :
    (t.erase key).get? other = t.get? other := by
  simp [get?_erase, h]

theorem get?_of_get?_erase {t : Table α} {key other : String} {value : α}
    (h : (t.erase key).get? other = some value) : other ≠ key ∧ t.get? other = some value := by
  rw [get?_erase] at h
  split at h
  · cases h
  · next hne => exact ⟨hne, h⟩

theorem get?_put (t : Table α) (key other : String) (value : α) :
    (t.put key value).get? other = if other = key then some value else t.get? other := by
  by_cases h : other = key
  · subst h
    simp [get?, put]
  · have hne : (other == key) = false := by simpa using h
    rw [if_neg h, ← t.get?_erase_of_ne h]
    simp [get?, put, List.lookup_cons, hne]

@[simp] theorem get?_put_self (t : Table α) (key : String) (value : α) :
    (t.put key value).get? key = some value := by
  simp [get?_put]

theorem get?_put_of_ne (t : Table α) {key other : String} (value : α) (h : other ≠ key) :
    (t.put key value).get? other = t.get? other := by
  simp [get?_put, h]

theorem get?_modify (t : Table α) (key other : String) (f : α → α) :
    (t.modify key f).get? other = if other = key then (t.get? key).map f else t.get? other := by
  unfold get? modify
  induction t.rows with
  | nil => simp
  | cons row rows ih =>
    obtain ⟨k, v⟩ := row
    by_cases hk : k = key
    · subst hk
      by_cases ho : other = k
      · subst ho
        simp
      · have hne : (other == k) = false := by simpa using ho
        simp only [List.map_cons, if_true, List.lookup_cons, hne, if_neg ho] at ih ⊢
        exact ih
    · by_cases ho : other = k
      · subst ho
        simp [hk]
      · have hne : (other == k) = false := by simpa using ho
        have hkey : (key == k) = false := by simpa using Ne.symm hk
        simp only [List.map_cons, if_neg hk, List.lookup_cons, hne, hkey] at ih ⊢
        exact ih

/-! ## One row for each key -/

/-- Every key stands in one row only. -/
def Distinct (t : Table α) : Prop := t.keys.Nodup

theorem distinct_empty : (empty : Table α).Distinct := List.nodup_nil

theorem Distinct.erase {t : Table α} (h : t.Distinct) (key : String) : (t.erase key).Distinct :=
  List.Nodup.sublist (List.filter_sublist.map _) h

theorem Distinct.put {t : Table α} (h : t.Distinct) (key : String) (value : α) :
    (t.put key value).Distinct := by
  refine List.nodup_cons.2 ⟨?_, h.erase key⟩
  simp [Table.erase]

theorem Distinct.modify {t : Table α} (h : t.Distinct) (key : String) (f : α → α) :
    (t.modify key f).Distinct := by
  have hkeys : (t.modify key f).keys = t.keys := by
    unfold keys Table.modify
    rw [List.map_map]
    apply List.map_congr_left
    intro row _
    simp only [Function.comp_apply]
    split <;> rfl
  unfold Distinct
  rwa [hkeys]

/-- The rows of a table are what `get?` finds. -/
theorem mem_rows_iff {t : Table α} (h : t.Distinct) {key : String} {value : α} :
    (key, value) ∈ t.rows ↔ t.get? key = some value :=
  ⟨lookup_of_mem h, mem_of_lookup⟩

theorem mem_rows_of_get? {t : Table α} {key : String} {value : α} (h : t.get? key = some value) :
    (key, value) ∈ t.rows :=
  mem_of_lookup h

end Table

end Templating
