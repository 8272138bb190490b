import Templating.Proofs.Cache.Asking

/-!
# Who leaves when a cache changes

When a cache changes, some entries leave because they were asked to: the one in the place of an
insertion, and the one that is removed. The others that are not stored any more leave by
themselves, since they are over or depend on what leaves. `Cache.leavers` reads them off the cache
before and after, and they are what every change reports as evicted, each once (`perm_leavers`). So
what stays and what leaves add up (`size_cleared`, `size_sweep`).
-/

namespace Templating

/-- The key of an evicted entry, with the entry. -/
def Evicted.row {V C : Type} (e : Evicted V C) : String × Slot V C := (e.key, e.slot)

namespace Cache

variable {V C : Type}

/-- The entries that are not stored any more in `rest`, but for those under `spared` keys, which
leave because they were asked to. -/
def leavers (c rest : Cache V C) (spared : String → Bool) : List (String × Slot V C) :=
  c.entries.rows.filter fun row => !spared row.1 && !rest.entries.contains row.1

variable {c rest : Cache V C} {key : String} {spared : String → Bool}

theorem leavers_self (c : Cache V C) (spared : String → Bool) : c.leavers c spared = [] := by
  refine List.filter_eq_nil_iff.2 fun row hrow => ?_
  have hstored : (c.entries.get? row.1).isSome = true :=
    (c.entries.mem_keys_iff row.1).1 (List.mem_map_of_mem hrow)
  simp [hstored]

theorem leavers_of_spared (hspared : ∀ key, spared key = true) : c.leavers rest spared = [] :=
  List.filter_eq_nil_iff.2 fun row _ => by simp [hspared]

/-- When the keys that are not spared are parted into those that stay and those of evicted entries,
the evicted entries are those that leave. -/
theorem perm_leavers (hc : c.entries.Distinct) {gone : List (Evicted V C)} {stay : List String}
    (hparts : (gone.map Evicted.key ++ stay).Perm (c.keys.filter fun key => !spared key))
    (hstored : ∀ e ∈ gone, c.entries.get? e.key = some e.slot)
    (hstay : ∀ key, spared key = false →
      ((rest.entries.get? key).isSome = true ↔ key ∈ stay)) :
    (gone.map Evicted.row).Perm (c.leavers rest spared) := by
  have hnodup : (gone.map Evicted.key ++ stay).Nodup :=
    hparts.nodup_iff.2 (List.Nodup.filter _ hc)
  obtain ⟨hgone, -, hapart⟩ := List.nodup_append.1 hnodup
  have hmem : ∀ key, key ∈ gone.map Evicted.key ↔
      key ∈ c.keys ∧ spared key = false ∧ key ∉ stay := by
    intro key
    have hpart := hparts.mem_iff (a := key)
    simp only [List.mem_append, List.mem_filter, Bool.not_eq_true'] at hpart
    constructor
    · intro hkey
      obtain ⟨hall, hfalse⟩ := hpart.1 (.inl hkey)
      exact ⟨hall, hfalse, fun hin => hapart key hkey key hin rfl⟩
    · rintro ⟨hall, hfalse, hout⟩
      exact (hpart.2 ⟨hall, hfalse⟩).resolve_right hout
  refine (List.perm_ext_iff_of_nodup ?_ ?_).2 fun row => ?_
  · refine List.Nodup.of_map Prod.fst ?_
    rwa [List.map_map]
  · exact List.Nodup.filter _ (List.Nodup.of_map Prod.fst hc)
  · obtain ⟨key, slot⟩ := row
    unfold leavers
    rw [List.mem_filter, Table.mem_rows_iff hc]
    simp only [Table.contains_eq, Bool.and_eq_true, Bool.not_eq_true']
    constructor
    · intro hrow
      obtain ⟨e, he, heq⟩ := List.mem_map.1 hrow
      cases heq
      obtain ⟨-, hfalse, hout⟩ := (hmem e.key).1 (List.mem_map_of_mem he)
      refine ⟨hstored e he, hfalse, ?_⟩
      rw [← Bool.not_eq_true, hstay e.key hfalse]
      exact hout
    · rintro ⟨hget, hfalse, hnone⟩
      rw [← Bool.not_eq_true, hstay key hfalse] at hnone
      have hkey : key ∈ c.keys := (c.entries.mem_keys_iff key).2 (by rw [hget]; rfl)
      obtain ⟨e, he, rfl⟩ := List.mem_map.1 ((hmem key).2 ⟨hkey, hfalse, hnone⟩)
      have hslot := (hstored e he).symm.trans hget
      cases hslot
      exact List.mem_map_of_mem he

theorem perm_leavers_detach (h : c.Linked) {d : Detached V C} (hd : c.detach key = some d) :
    (d.evicted.map Evicted.row).Perm (c.leavers d.cache (· == key)) := by
  have hparts := perm_cleared h key
  rw [cleared_of_some hd] at hparts
  exact perm_leavers h.distinct hparts (was_stored_of_detach h.toConsistent hd)
    fun other _ => (d.cache.entries.mem_keys_iff other).symm

theorem perm_leavers_place (h : c.Linked) (now : Instant) (signals : Signals) (key : String)
    (value : V) (options : Options C) :
    ((c.place now signals key value options).evicted.map Evicted.row).Perm
      (c.leavers (c.place now signals key value options).cache (· == key)) := by
  obtain ⟨hevicted, hkeys⟩ := keys_place now signals key value options h
  have hparts := perm_cleared h key
  rw [← hevicted] at hparts
  refine perm_leavers h.distinct hparts
    (fun e he => (was_stored_of_place h key now signals value options e he).1) ?_
  intro other hother
  rw [← Table.mem_keys_iff]
  have hne : other ≠ key := by simpa using hother
  rcases hkeys with hkeys | hkeys <;> simp [show Table.keys _ = _ from hkeys, hne, keys]

theorem perm_leavers_sweep (h : c.Linked) (now : Instant) (signals : Signals) :
    ((c.sweep now signals).2.map Evicted.row).Perm
      (c.leavers (c.sweep now signals).1 fun _ => false) := by
  have hall : (c.keys.filter fun _ => !false) = c.keys := List.filter_eq_self.2 fun _ _ => rfl
  have hparts := perm_sweep h now signals
  rw [← hall] at hparts
  exact perm_leavers h.distinct hparts (loses_evictEach h (c.doomed now signals)).was_stored
    fun other _ => ((c.sweep now signals).1.entries.mem_keys_iff other).symm

/-! ## How many stay -/

theorem size_eq (c : Cache V C) : c.size = c.keys.length := (List.length_map ..).symm

theorem size_detach (h : c.Linked) {d : Detached V C} (hd : c.detach key = some d) :
    d.cache.size + d.evicted.length + 1 = c.size := by
  have hlength := (perm_detach h.toConsistent hd).length_eq
  simp only [List.length_cons, List.length_append, List.length_map] at hlength
  rw [size_eq, size_eq]
  omega

theorem size_sweep (h : c.Linked) (now : Instant) (signals : Signals) :
    (c.sweep now signals).1.size + (c.sweep now signals).2.length = c.size := by
  have hlength := (perm_sweep h now signals).length_eq
  simp only [List.length_append, List.length_map] at hlength
  rw [size_eq, size_eq]
  omega

theorem size_cleared (h : c.Linked) (key : String) : (c.cleared key).1.size +
    (c.cleared key).2.1.length + (c.cleared key).2.2.toNat = c.size := by
  cases hd : c.detach key with
  | none => rw [cleared_of_none hd]; rfl
  | some d => rw [cleared_of_some hd]; exact size_detach h hd

/-- An insertion clears its place, and puts one entry in if it is not refused. -/
theorem size_place_eq (h : c.Linked) (now : Instant) (signals : Signals) (key : String) (value : V)
    (options : Options C) :
    let p := c.place now signals key value options
    p.cache.size = (c.cleared key).1.size + p.stored.toNat ∧
      p.replaced = (c.cleared key).2.2 := by
  have hfree : ((c.cleared key).1.link now key value options).size =
      (c.cleared key).1.size + 1 := by
    rw [size_eq, size_eq]
    exact congrArg List.length (Table.keys_put_of_none (get?_cleared_self h key) _)
  unfold place
  simp only
  split
  · exact ⟨rfl, rfl⟩
  · exact ⟨hfree, rfl⟩

theorem size_touch (c : Cache V C) (now : Instant) (key : String) :
    (c.touch now key).size = c.size :=
  List.length_map ..

end Cache

end Templating
