import Mathlib.Data.String.Basic
import Templating.Proofs.Table
import Templating.Sorted

/-!
# Rows in ascending order

`Sorted.put` is described by look-ups, keeps the rows ascending, and adds one row when the key is
new. `Sorted.ofList` has a row for each key that it is given.
-/

namespace Templating.Sorted

variable {α : Type}

/-- The keys ascend, and none is there twice. -/
def Ascending (rows : List (String × α)) : Prop := rows.Pairwise fun a b => a.1 < b.1

theorem lookup_put (key other : String) (value : α) (rows : List (String × α)) :
    (put key value rows).lookup other = if other = key then some value else rows.lookup other := by
  induction rows with
  | nil => exact lookup_cons_key ..
  | cons row rows ih =>
    obtain ⟨k, v⟩ := row
    rw [put]
    split
    · next h =>
      subst h
      rw [lookup_cons_key, lookup_cons_key]
      split <;> rfl
    · next hne =>
      split
      · exact lookup_cons_key ..
      · rw [lookup_cons_key, lookup_cons_key, ih]
        by_cases hk : other = k
        · subst hk
          rw [if_pos rfl, if_pos rfl, if_neg (Ne.symm hne)]
        · rw [if_neg hk, if_neg hk]

theorem mem_keys_put (key other : String) (value : α) (rows : List (String × α)) :
    other ∈ (put key value rows).map Prod.fst ↔ other = key ∨ other ∈ rows.map Prod.fst := by
  induction rows with
  | nil => simp [put]
  | cons row rows ih =>
    obtain ⟨k, v⟩ := row
    rw [put]
    split
    · next h => simp [h]
    · split
      · simp
      · simp only [List.map_cons, List.mem_cons, ih]
        exact or_left_comm

theorem Ascending.put {rows : List (String × α)} (h : Ascending rows) (key : String) (value : α) :
    Ascending (put key value rows) := by
  induction rows with
  | nil => exact List.pairwise_singleton ..
  | cons row rows ih =>
    obtain ⟨k, v⟩ := row
    obtain ⟨hfirst, hrest⟩ := List.pairwise_cons.1 h
    rw [Sorted.put]
    split
    · next hk =>
      subst hk
      exact List.pairwise_cons.2 ⟨hfirst, hrest⟩
    · next hne =>
      split
      · next hlt =>
        refine List.pairwise_cons.2 ⟨fun row hrow => ?_, h⟩
        rcases List.mem_cons.1 hrow with rfl | hrow
        · exact hlt
        · exact lt_trans hlt (hfirst row hrow)
      · next hnot =>
        refine List.pairwise_cons.2 ⟨fun row hrow => ?_, ih hrest⟩
        have hmem : row.1 ∈ (Sorted.put key value rows).map Prod.fst := List.mem_map_of_mem hrow
        rcases (mem_keys_put ..).1 hmem with heq | hmem
        · rw [heq]
          exact lt_of_le_of_ne (not_lt.1 hnot) (Ne.symm hne)
        · obtain ⟨old, hold, heq⟩ := List.mem_map.1 hmem
          rw [← heq]
          exact hfirst old hold

theorem Ascending.filter {rows : List (String × α)} (h : Ascending rows) (p : String × α → Bool) :
    Ascending (rows.filter p) :=
  List.Pairwise.filter p h

theorem Ascending.pairwise_keys {rows : List (String × α)} (h : Ascending rows) :
    (rows.map Prod.fst).Pairwise (· < ·) :=
  List.pairwise_map.2 h

theorem length_put_of_not_mem {key : String} {rows : List (String × α)}
    (h : key ∉ rows.map Prod.fst) (value : α) : (put key value rows).length = rows.length + 1 := by
  induction rows with
  | nil => rfl
  | cons row rows ih =>
    obtain ⟨k, v⟩ := row
    simp only [List.map_cons, List.mem_cons, not_or] at h
    rw [put, if_neg h.1]
    split
    · rfl
    · rw [List.length_cons, ih h.2, List.length_cons]

/-! ## Rows from a list -/

theorem length_foldl_put {rows acc : List (String × α)} (hnodup : (rows.map Prod.fst).Nodup)
    (hacc : ∀ key ∈ rows.map Prod.fst, key ∉ acc.map Prod.fst) :
    (rows.foldl (fun acc (k, v) => put k v acc) acc).length = rows.length + acc.length := by
  induction rows generalizing acc with
  | nil => simp
  | cons row rows ih =>
    obtain ⟨k, v⟩ := row
    rw [List.map_cons, List.nodup_cons] at hnodup
    have hfresh : k ∉ acc.map Prod.fst := hacc k List.mem_cons_self
    rw [List.foldl_cons, ih hnodup.2]
    · rw [length_put_of_not_mem hfresh, List.length_cons]
      omega
    · intro key hkey hmem
      rcases (mem_keys_put ..).1 hmem with rfl | hmem
      · exact hnodup.1 hkey
      · exact hacc key (List.mem_cons_of_mem _ hkey) hmem

theorem length_ofList {rows : List (String × α)} (h : (rows.map Prod.fst).Nodup) :
    (ofList rows).length = rows.length :=
  length_foldl_put h fun _ _ => List.not_mem_nil

theorem lookup_foldl_put {rows acc : List (String × α)} (hnodup : (rows.map Prod.fst).Nodup)
    (key : String) :
    (rows.foldl (fun acc (k, v) => put k v acc) acc).lookup key =
      (rows.lookup key).or (acc.lookup key) := by
  induction rows generalizing acc with
  | nil => rfl
  | cons row rows ih =>
    obtain ⟨k, v⟩ := row
    rw [List.map_cons, List.nodup_cons] at hnodup
    rw [List.foldl_cons, ih hnodup.2, lookup_put, lookup_cons_key]
    by_cases hk : key = k
    · subst hk
      have hnone : rows.lookup key = none := lookup_eq_none.2 hnodup.1
      rw [hnone, if_pos rfl, if_pos rfl]
      rfl
    · rw [if_neg hk, if_neg hk]

theorem lookup_ofList {rows : List (String × α)} (h : (rows.map Prod.fst).Nodup) (key : String) :
    (ofList rows).lookup key = rows.lookup key := by
  have hlookup : (rows.foldl (fun acc (k, v) => put k v acc) []).lookup key =
      (rows.lookup key).or (([] : List (String × α)).lookup key) := lookup_foldl_put h key
  rwa [List.lookup_nil, Option.or_none] at hlookup

/-- A key behind all others is put at the end. -/
theorem put_last {key : String} {rows : List (String × α)} (h : ∀ row ∈ rows, row.1 < key)
    (value : α) : put key value rows = rows ++ [(key, value)] := by
  induction rows with
  | nil => rfl
  | cons row rows ih =>
    have hlt := h row List.mem_cons_self
    rw [put, if_neg (ne_of_gt hlt), if_neg (lt_asymm hlt),
      ih fun other hother => h other (List.mem_cons_of_mem _ hother)]
    rfl

theorem foldl_put_of_ascending {rows acc : List (String × α)} (h : Ascending (acc ++ rows)) :
    rows.foldl (fun acc (k, v) => put k v acc) acc = acc ++ rows := by
  induction rows generalizing acc with
  | nil => exact (List.append_nil acc).symm
  | cons row rows ih =>
    obtain ⟨k, v⟩ := row
    have hsplit : acc ++ (k, v) :: rows = (acc ++ [(k, v)]) ++ rows := List.append_cons ..
    have hbefore : ∀ row ∈ acc, row.1 < k := fun row hrow =>
      (List.pairwise_append.1 h).2.2 row hrow (k, v) List.mem_cons_self
    rw [List.foldl_cons]
    simp only [put_last hbefore v]
    rw [ih (hsplit ▸ h), ← hsplit]

theorem ofList_of_ascending {rows : List (String × α)} (h : Ascending rows) : ofList rows = rows :=
  foldl_put_of_ascending h

theorem ascending_foldl_put {acc : List (String × α)} (h : Ascending acc)
    (rows : List (String × α)) : Ascending (rows.foldl (fun acc (k, v) => put k v acc) acc) := by
  induction rows generalizing acc with
  | nil => exact h
  | cons row rows ih => exact ih (h.put row.1 row.2)

theorem ascending_ofList (rows : List (String × α)) : Ascending (ofList rows) :=
  ascending_foldl_put .nil rows

/-- What stands in rows from a list was in the list. -/
theorem mem_of_lookup_foldl_put {rows acc : List (String × α)} {key : String} {value : α}
    (h : (rows.foldl (fun acc (k, v) => put k v acc) acc).lookup key = some value) :
    (key, value) ∈ rows ∨ acc.lookup key = some value := by
  induction rows generalizing acc with
  | nil => exact .inr h
  | cons row rows ih =>
    rcases ih h with hmem | hlookup
    · exact .inl (List.mem_cons_of_mem _ hmem)
    · rw [lookup_put] at hlookup
      split at hlookup
      · next hkey =>
        cases hlookup
        subst hkey
        exact .inl List.mem_cons_self
      · exact .inr hlookup

theorem mem_of_lookup_ofList {rows : List (String × α)} {key : String} {value : α}
    (h : (ofList rows).lookup key = some value) : (key, value) ∈ rows := by
  apply (mem_of_lookup_foldl_put h).resolve_right
  intro hnil
  rw [List.lookup_nil] at hnil
  cases hnil

end Templating.Sorted
