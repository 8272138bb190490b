import Templating.Cache.Index
import Templating.Proofs.Table

/-!
# The index as a relation

An `Index` keeps one relation in two tables of sets. `Index.Mirrored` says that the tables are
exact inverses of each other, that no key stands there with an empty set, and that no set lists a
key twice. `register` and `unregister` keep this, and change the parents of one key only
(`parentsOf_register`, `parentsOf_unregister`).
-/

namespace Templating

namespace Table

/-- A table of sets: each key in one row, no set empty, no member of a set listed twice. -/
structure IsSets (t : Table (List String)) : Prop where
  distinct : t.Distinct
  ne_nil : ∀ key, t.get? key ≠ some []
  nodup : ∀ key members, t.get? key = some members → members.Nodup

namespace IsSets

theorem empty : (Table.empty : Table (List String)).IsSets :=
  ⟨distinct_empty, fun _ h => (by cases h), fun _ _ h => (by cases h)⟩

theorem put {t : Table (List String)} (h : t.IsSets) (key : String) {members : List String}
    (hne : members ≠ []) (hnd : members.Nodup) : (t.put key members).IsSets where
  distinct := h.distinct.put key members
  ne_nil other hother := by
    rw [get?_put] at hother
    split at hother
    · exact hne (Option.some.inj hother)
    · exact h.ne_nil other hother
  nodup other ms hother := by
    rw [get?_put] at hother
    split at hother
    · rwa [← Option.some.inj hother]
    · exact h.nodup other ms hother

theorem erase {t : Table (List String)} (h : t.IsSets) (key : String) : (t.erase key).IsSets where
  distinct := h.distinct.erase key
  ne_nil other hother := h.ne_nil other (get?_of_get?_erase hother).2
  nodup other ms hother := h.nodup other ms (get?_of_get?_erase hother).2

end IsSets

end Table

namespace Cache.Index

/-! ## Changing the set under one parent -/

/-- The members of the set under `key`. -/
def listed (t : Table (List String)) (key : String) : List String := (t.get? key).getD []

theorem mem_listed_addDependent (key : String) (t : Table (List String)) (parent x q : String) :
    x ∈ listed (addDependent key t parent) q ↔ x ∈ listed t q ∨ x = key ∧ q = parent := by
  unfold listed addDependent
  rw [Table.get?_put]
  by_cases hq : q = parent
  · subst hq
    by_cases hk : ((t.get? q).getD []).contains key = true
    · simp only [hk, if_true, Option.getD_some, and_true]
      refine ⟨Or.inl, ?_⟩
      rintro (hx | rfl)
      · exact hx
      · simpa using hk
    · simp only [hk, if_true, Option.getD_some, and_true]
      simp [or_comm]
  · simp [hq]

theorem isSets_addDependent (key : String) {t : Table (List String)} (h : t.IsSets)
    (parent : String) : (addDependent key t parent).IsSets := by
  unfold addDependent
  cases hp : t.get? parent with
  | none => exact h.put parent (by simp) (by simp)
  | some children =>
    by_cases hk : children.contains key = true
    · simp only [Option.getD_some, hk, if_true]
      exact h.put parent (fun hnil => h.ne_nil parent (hnil ▸ hp)) (h.nodup parent children hp)
    · simp only [Option.getD_some, hk]
      refine h.put parent (by simp) (List.nodup_cons.2 ⟨?_, h.nodup parent children hp⟩)
      simpa using hk

theorem mem_listed_dropDependent (key : String) (t : Table (List String)) (parent x q : String) :
    x ∈ listed (dropDependent key t parent) q ↔ x ∈ listed t q ∧ ¬(x = key ∧ q = parent) := by
  unfold listed dropDependent
  cases hp : t.get? parent with
  | none =>
    refine ⟨fun hx => ⟨hx, ?_⟩, And.left⟩
    rintro ⟨rfl, rfl⟩
    simp [hp] at hx
  | some children =>
    simp only
    by_cases hq : q = parent
    · subst hq
      split
      · next hempty =>
        rw [List.isEmpty_iff, List.filter_eq_nil_iff] at hempty
        rw [Table.get?_erase_self, hp]
        refine ⟨fun hx => (by cases hx), ?_⟩
        rintro ⟨hx, hne⟩
        exact absurd (hempty x hx) (by simpa using hne)
      · simp [hp]
    · split
      · rw [Table.get?_erase_of_ne _ hq]
        simp [hq]
      · rw [Table.get?_put_of_ne _ _ hq]
        simp [hq]

theorem isSets_dropDependent (key : String) {t : Table (List String)} (h : t.IsSets)
    (parent : String) : (dropDependent key t parent).IsSets := by
  unfold dropDependent
  cases hp : t.get? parent with
  | none => exact h
  | some children =>
    simp only
    split
    · exact h.erase parent
    · next hne =>
      exact h.put parent (fun hnil => hne (by rw [hnil]; rfl))
        ((h.nodup parent children hp).filter _)

/-! ## Changing the sets under several parents -/

theorem mem_listed_foldl_add (key : String) (ps : List String) (t : Table (List String))
    (x q : String) :
    x ∈ listed (ps.foldl (addDependent key) t) q ↔ x ∈ listed t q ∨ x = key ∧ q ∈ ps := by
  induction ps generalizing t with
  | nil => simp
  | cons p ps ih =>
    rw [List.foldl_cons, ih, mem_listed_addDependent, List.mem_cons, and_or_left, or_assoc]

theorem mem_listed_foldl_drop (key : String) (ps : List String) (t : Table (List String))
    (x q : String) :
    x ∈ listed (ps.foldl (dropDependent key) t) q ↔ x ∈ listed t q ∧ ¬(x = key ∧ q ∈ ps) := by
  induction ps generalizing t with
  | nil => simp
  | cons p ps ih =>
    rw [List.foldl_cons, ih, mem_listed_dropDependent, List.mem_cons, and_or_left, not_or,
      and_assoc]

theorem isSets_foldl_add (key : String) (ps : List String) {t : Table (List String)}
    (h : t.IsSets) : (ps.foldl (addDependent key) t).IsSets := by
  induction ps generalizing t with
  | nil => exact h
  | cons p ps ih => exact ih (isSets_addDependent key h p)

theorem isSets_foldl_drop (key : String) (ps : List String) {t : Table (List String)}
    (h : t.IsSets) : (ps.foldl (dropDependent key) t).IsSets := by
  induction ps generalizing t with
  | nil => exact h
  | cons p ps ih => exact ih (isSets_dropDependent key h p)

/-! ## Parents -/

/-- Registering a key that has no parents yet gives it the given ones. -/
theorem parentsOf_register {i : Index} {key : String} (hnone : i.parents.get? key = none)
    (ps : List String) (q : String) :
    (i.register key ps).parentsOf q = if q = key then ps else i.parentsOf q := by
  unfold register parentsOf
  by_cases hps : ps = []
  · subst hps
    by_cases hq : q = key
    · subst hq
      simp [hnone]
    · simp [hq]
  · rw [if_neg (by simpa using hps)]
    simp only [Table.get?_put]
    split <;> rfl

theorem parentsOf_unregister (i : Index) (key q : String) :
    (i.unregister key).parentsOf q = if q = key then [] else i.parentsOf q := by
  unfold unregister parentsOf
  cases hp : i.parents.get? key with
  | none =>
    by_cases hq : q = key
    · subst hq
      simp [hp]
    · simp [hq]
  | some ps =>
    simp only [Table.get?_erase]
    split <;> rfl

/-! ## Both directions -/

/-- The two tables of an index are exact inverses of each other, as tables of sets. -/
structure Mirrored (i : Index) : Prop where
  dependents : i.dependents.IsSets
  parents : i.parents.IsSets
  inverse : ∀ key parent, key ∈ i.dependentsOf parent ↔ parent ∈ i.parentsOf key

namespace Mirrored

theorem empty : Mirrored {} :=
  ⟨.empty, .empty, fun _ _ => ⟨fun h => (by cases h), fun h => (by cases h)⟩⟩

/-- A key has recorded parents exactly if it stands in the table of parents. -/
theorem exists_parent_iff {i : Index} (h : i.Mirrored) (key : String) :
    (∃ parent, parent ∈ i.parentsOf key) ↔ (i.parents.get? key).isSome = true := by
  unfold parentsOf
  cases hp : i.parents.get? key with
  | none => simp
  | some ps =>
    simp only [Option.getD_some, Option.isSome_some, iff_true]
    exact List.exists_mem_of_ne_nil ps fun hnil => h.parents.ne_nil key (hnil ▸ hp)

theorem register {i : Index} (h : i.Mirrored) {key : String} (hnone : i.parents.get? key = none)
    {ps : List String} (hnd : ps.Nodup) : (i.register key ps).Mirrored := by
  by_cases hps : ps = []
  · subst hps
    exact h
  have hreg : i.register key ps =
      ⟨ps.foldl (addDependent key) i.dependents, i.parents.put key ps⟩ := by
    unfold Index.register
    rw [if_neg (by simpa using hps)]
  refine ⟨?_, ?_, ?_⟩
  · rw [hreg]
    exact isSets_foldl_add key ps h.dependents
  · rw [hreg]
    exact h.parents.put key hps hnd
  · intro x q
    have hdep : (i.register key ps).dependentsOf q =
        listed (ps.foldl (addDependent key) i.dependents) q := by
      rw [hreg]
      rfl
    rw [hdep, mem_listed_foldl_add, parentsOf_register hnone]
    change x ∈ i.dependentsOf q ∨ _ ↔ _
    rw [h.inverse]
    by_cases hx : x = key
    · subst hx
      simp [parentsOf, hnone]
    · simp [hx]

theorem unregister {i : Index} (h : i.Mirrored) (key : String) : (i.unregister key).Mirrored := by
  cases hp : i.parents.get? key with
  | none =>
    have hsame : i.unregister key = i := by
      unfold Index.unregister
      rw [hp]
    rwa [hsame]
  | some ps =>
    have hun : i.unregister key =
        ⟨ps.foldl (dropDependent key) i.dependents, i.parents.erase key⟩ := by
      unfold Index.unregister
      rw [hp]
    refine ⟨?_, ?_, ?_⟩
    · rw [hun]
      exact isSets_foldl_drop key ps h.dependents
    · rw [hun]
      exact h.parents.erase key
    · intro x q
      have hdep : (i.unregister key).dependentsOf q =
          listed (ps.foldl (dropDependent key) i.dependents) q := by
        rw [hun]
        rfl
      rw [hdep, mem_listed_foldl_drop, parentsOf_unregister]
      change x ∈ i.dependentsOf q ∧ _ ↔ _
      rw [h.inverse]
      by_cases hx : x = key
      · subst hx
        simp [parentsOf, hp]
      · simp [hx]

end Mirrored

end Cache.Index

end Templating
