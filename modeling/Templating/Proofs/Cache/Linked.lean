import Mathlib.Logic.Relation
import Templating.Cache.Basic
import Templating.Proofs.Cache.Index

/-!
# Linked caches

A cache is `Linked` when its index mirrors what its entries were inserted with: the two tables of
the index are inverse to each other, an entry's recorded parents are the keys that it was inserted
with and are all stored, nothing is recorded about keys that are not stored, and no entry depends
on itself through others. Every operation keeps a cache linked.

While a cascade is under way some recorded parents are gone already. `Consistent` is what holds
even then; the entries whose parents may be gone are those that the cascade has still to visit.
-/

namespace Templating.Cache

open Relation

variable {V C : Type}

/-- `parent` is recorded as a key that `child` was built on. -/
def DependsOn (c : Cache V C) (child parent : String) : Prop := parent ∈ c.index.parentsOf child

/-- What the index and the entries of a cache say about each other at any time. -/
structure Consistent (c : Cache V C) : Prop where
  distinct : c.entries.Distinct
  mirrored : c.index.Mirrored
  /-- A key with recorded parents is stored. -/
  child_stored : ∀ key, (c.index.parents.get? key).isSome = true →
    (c.entries.get? key).isSome = true
  /-- The recorded parents of an entry are the keys that it was inserted with. -/
  recorded : ∀ key slot, c.entries.get? key = some slot →
    ∀ parent, c.DependsOn key parent ↔ parent ∈ slot.options.keys
  /-- No entry depends on itself, directly or through others. -/
  acyclic : ∀ key, ¬TransGen c.DependsOn key key

/-- A consistent cache in which every recorded parent is stored. -/
structure Linked (c : Cache V C) : Prop extends Consistent c where
  parent_stored : ∀ child parent, c.DependsOn child parent → (c.entries.get? parent).isSome = true

/-- Nothing depends on what is not stored. -/
theorem Linked.not_dependsOn_of_none {c : Cache V C} (h : c.Linked) {key : String}
    (hnone : c.entries.get? key = none) (child : String) : ¬c.DependsOn child key := by
  intro hdep
  have hstored := h.parent_stored child key hdep
  rw [hnone] at hstored
  cases hstored

/-! ## Taking out one entry -/

/-- The cache without the entry under `key`. What depends on it stays. -/
def unlink (c : Cache V C) (key : String) : Cache V C :=
  { c with entries := c.entries.erase key, index := c.index.unregister key }

theorem dependsOn_unlink (c : Cache V C) (key child parent : String) :
    (c.unlink key).DependsOn child parent ↔ child ≠ key ∧ c.DependsOn child parent := by
  unfold DependsOn unlink
  rw [Index.parentsOf_unregister]
  by_cases h : child = key <;> simp [h]

/-- The children of a removed entry are what the index lists for it. -/
theorem mem_dependentsOf_unlink {c : Cache V C} (h : c.Consistent) (key child parent : String) :
    child ∈ (c.unlink key).index.dependentsOf parent ↔ child ≠ key ∧ c.DependsOn child parent :=
  ((h.mirrored.unregister key).inverse child parent).trans (dependsOn_unlink c key child parent)

namespace Consistent

theorem parents_none {c : Cache V C} (h : c.Consistent) {key : String}
    (hnone : c.entries.get? key = none) : c.index.parents.get? key = none := by
  cases hp : c.index.parents.get? key with
  | none => rfl
  | some ps =>
    have hs := h.child_stored key (by rw [hp]; rfl)
    rw [hnone] at hs
    cases hs

/-- What is not stored depends on nothing. -/
theorem stored_of_dependsOn {c : Cache V C} (h : c.Consistent) {child parent : String}
    (hd : c.DependsOn child parent) : (c.entries.get? child).isSome = true :=
  h.child_stored child ((h.mirrored.exists_parent_iff child).1 ⟨parent, hd⟩)

theorem unregister_of_none {c : Cache V C} (h : c.Consistent) {key : String}
    (hnone : c.entries.get? key = none) : c.index.unregister key = c.index := by
  unfold Index.unregister
  rw [h.parents_none hnone]

theorem unlink {c : Cache V C} (h : c.Consistent) (key : String) : (c.unlink key).Consistent where
  distinct := h.distinct.erase key
  mirrored := h.mirrored.unregister key
  child_stored other hother := by
    obtain ⟨parent, hparent⟩ := ((h.mirrored.unregister key).exists_parent_iff other).2 hother
    obtain ⟨hne, hold⟩ := (dependsOn_unlink c key other parent).1 hparent
    simp only [Cache.unlink]
    rw [Table.get?_erase_of_ne _ hne]
    exact h.stored_of_dependsOn hold
  recorded other slot hslot parent := by
    obtain ⟨hne, hold⟩ := Table.get?_of_get?_erase hslot
    rw [dependsOn_unlink, h.recorded other slot hold parent]
    exact and_iff_right hne
  acyclic other hcycle :=
    h.acyclic other (TransGen.mono
      (fun child parent hd => ((dependsOn_unlink c key child parent).1 hd).2)
      _ _ hcycle)

end Consistent

/-! ## Losing entries -/

/-- `rest` is `c` without the entries `gone`. -/
structure Loses (c : Cache V C) (gone : List (Evicted V C)) (rest : Cache V C) : Prop where
  epoch : rest.epoch = c.epoch
  flag : rest.flag = c.flag
  hint : rest.hint = c.hint
  kept : ∀ key slot, rest.entries.get? key = some slot → c.entries.get? key = some slot
  was_stored : ∀ e ∈ gone, c.entries.get? e.key = some e.slot
  is_gone : ∀ e ∈ gone, rest.entries.get? e.key = none
  kept_or_gone : ∀ key slot, c.entries.get? key = some slot →
    rest.entries.get? key = some slot ∨ ∃ e ∈ gone, e.key = key ∧ e.slot = slot

namespace Loses

theorem refl (c : Cache V C) : Loses c [] c :=
  ⟨rfl, rfl, rfl, fun _ _ h => h, fun _ h => (by cases h), fun _ h => (by cases h),
    fun _ _ h => .inl h⟩

theorem none_of_none {c rest : Cache V C} {gone : List (Evicted V C)} (h : Loses c gone rest)
    {key : String} (hnone : c.entries.get? key = none) : rest.entries.get? key = none := by
  cases hget : rest.entries.get? key with
  | none => rfl
  | some slot =>
    have := h.kept key slot hget
    rw [hnone] at this
    cases this

theorem trans {c c' c'' : Cache V C} {gone gone' : List (Evicted V C)} (h : Loses c gone c')
    (h' : Loses c' gone' c'') : Loses c (gone ++ gone') c'' where
  epoch := h'.epoch.trans h.epoch
  flag := h'.flag.trans h.flag
  hint := h'.hint.trans h.hint
  kept key slot hget := h.kept key slot (h'.kept key slot hget)
  was_stored e he := by
    rcases List.mem_append.1 he with he | he
    · exact h.was_stored e he
    · exact h.kept e.key e.slot (h'.was_stored e he)
  is_gone e he := by
    rcases List.mem_append.1 he with he | he
    · exact h'.none_of_none (h.is_gone e he)
    · exact h'.is_gone e he
  kept_or_gone key slot hget := by
    rcases h.kept_or_gone key slot hget with hkept | ⟨e, he, hkey, hslot⟩
    · rcases h'.kept_or_gone key slot hkept with hkept' | ⟨e, he, hkey, hslot⟩
      · exact .inl hkept'
      · exact .inr ⟨e, List.mem_append_right _ he, hkey, hslot⟩
    · exact .inr ⟨e, List.mem_append_left _ he, hkey, hslot⟩

theorem perm {c rest : Cache V C} {gone gone' : List (Evicted V C)} (h : Loses c gone rest)
    (hmem : ∀ e, e ∈ gone' ↔ e ∈ gone) : Loses c gone' rest where
  epoch := h.epoch
  flag := h.flag
  hint := h.hint
  kept := h.kept
  was_stored e he := h.was_stored e ((hmem e).1 he)
  is_gone e he := h.is_gone e ((hmem e).1 he)
  kept_or_gone key slot hget := by
    rcases h.kept_or_gone key slot hget with hkept | ⟨e, he, hkey, hslot⟩
    · exact .inl hkept
    · exact .inr ⟨e, (hmem e).2 he, hkey, hslot⟩

theorem unlink {c : Cache V C} {key : String} {slot : Slot V C}
    (h : c.entries.get? key = some slot) (reason : Reason) :
    Loses c [⟨key, slot, reason⟩] (c.unlink key) where
  epoch := rfl
  flag := rfl
  hint := rfl
  kept other slot' hget := (Table.get?_of_get?_erase hget).2
  was_stored e he := by
    rw [List.mem_singleton.1 he]
    exact h
  is_gone e he := by
    rw [List.mem_singleton.1 he]
    exact Table.get?_erase_self ..
  kept_or_gone other slot' hget := by
    by_cases hk : other = key
    · subst hk
      rw [h] at hget
      exact .inr ⟨_, List.mem_singleton_self _, rfl, Option.some.inj hget⟩
    · refine .inl ?_
      simp only [Cache.unlink]
      rwa [Table.get?_erase_of_ne _ hk]

end Loses

/-! ## Cascades -/

/-- A key that is stored leaves, and what depends on it is visited next. -/
theorem cascade_cons_some {c : Cache V C} {key : String} {slot : Slot V C}
    (h : c.entries.get? key = some slot)
    (pending : List String) :
    c.cascade (key :: pending) =
      let rest := (c.unlink key).cascade ((c.unlink key).index.dependentsOf key ++ pending)
      (rest.1, ⟨key, slot, .dependencyChanged⟩ :: rest.2) := by
  rw [cascade]
  split
  · next hnone =>
    rw [h] at hnone
    cases hnone
  · next slot' hslot =>
    rw [h] at hslot
    cases hslot
    rfl

/-- Induction along a cascade over a consistent cache: a key that is not stored is passed over,
one that is stored leaves, and what depends on it is visited next. -/
theorem cascade_induction {motive : Cache V C → List String → Cache V C → List (Evicted V C) → Prop}
    (nil : ∀ c, c.Consistent → motive c [] c [])
    (absent : ∀ c child pending rest gone, c.Consistent → c.entries.get? child = none →
      motive c pending rest gone → motive c (child :: pending) rest gone)
    (present : ∀ c child pending slot rest gone, c.Consistent →
      c.entries.get? child = some slot →
      motive (c.unlink child) ((c.unlink child).index.dependentsOf child ++ pending) rest gone →
        motive c (child :: pending) rest (⟨child, slot, .dependencyChanged⟩ :: gone))
    (c : Cache V C) (pending : List String) (h : c.Consistent) :
    motive c pending (c.cascade pending).1 (c.cascade pending).2 := by
  fun_induction cascade c pending with
  | case1 c => exact nil c h
  | case2 c child pending hnone ih =>
    have hsame : { c with index := c.index.unregister child } = c := by
      rw [h.unregister_of_none hnone]
    rw [hsame] at ih ⊢
    exact absent c child pending _ _ h hnone (ih h)
  | case3 c child pending slot hslot index rest ih =>
    exact present c child pending slot _ _ h hslot (ih (h.unlink child))

theorem loses_cascade {c : Cache V C} (pending : List String) (h : c.Consistent) :
    Loses c (c.cascade pending).2 (c.cascade pending).1 := by
  refine cascade_induction (motive := fun c _ rest gone => Loses c gone rest)
    ?nil ?absent ?present c pending h
  case nil => exact fun c _ => .refl c
  case absent => exact fun _ _ _ _ _ _ _ ih => ih
  case present => exact fun c child _ slot _ _ _ hslot ih => (Loses.unlink hslot _).trans ih

/-- Everything that a cascade takes out by itself leaves for a dependency. -/
theorem reason_of_cascade {c : Cache V C} (pending : List String) (h : c.Consistent) :
    ∀ e ∈ (c.cascade pending).2, e.reason = .dependencyChanged := by
  refine cascade_induction (motive := fun _ _ _ gone => ∀ e ∈ gone,
    e.reason = .dependencyChanged) ?nil ?absent ?present c pending h
  case nil => intro _ _ e he; cases he
  case absent => exact fun _ _ _ _ _ _ _ ih => ih
  case present =>
    intro c child pending slot rest gone _ _ ih e he
    rcases List.mem_cons.1 he with rfl | he
    · rfl
    · exact ih e he

/-- When only what is still to be visited may lack a parent, all parents are there in the end. -/
theorem linked_cascade {c : Cache V C} {pending : List String} (h : c.Consistent)
    (hparents : ∀ child parent, c.DependsOn child parent →
      (c.entries.get? parent).isSome = true ∨ child ∈ pending) :
    (c.cascade pending).1.Linked := by
  revert hparents
  refine cascade_induction (motive := fun c pending rest _ => (∀ child parent,
    c.DependsOn child parent → (c.entries.get? parent).isSome = true ∨ child ∈ pending) →
      rest.Linked) ?nil ?absent ?present c pending h
  case nil =>
    intro c hc hparents
    refine ⟨hc, fun child parent hd => (hparents child parent hd).resolve_right ?_⟩
    exact List.not_mem_nil
  case absent =>
    intro c child pending rest gone hc hnone ih hparents
    refine ih fun other parent hd => (hparents other parent hd).imp_right fun hmem => ?_
    refine (List.mem_cons.1 hmem).resolve_left ?_
    rintro rfl
    have hstored := hc.stored_of_dependsOn hd
    rw [hnone] at hstored
    cases hstored
  case present =>
    intro c child pending slot rest gone hc hslot ih hparents
    apply ih
    intro other parent hd
    obtain ⟨hne, hold⟩ := (dependsOn_unlink c child other parent).1 hd
    by_cases hp : parent = child
    · subst hp
      exact .inr (List.mem_append_left _
        ((mem_dependentsOf_unlink hc parent other parent).2 ⟨hne, hold⟩))
    · refine (hparents other parent hold).imp ?_ ?_
      · intro hstored
        simp only [Cache.unlink]
        rwa [Table.get?_erase_of_ne _ hp]
      · intro hmem
        exact List.mem_append_right _ ((List.mem_cons.1 hmem).resolve_left hne)

/-- A cascade whose start lacks a parent takes no entry out whose parents all stay. -/
theorem survives_cascade {c : Cache V C} {pending : List String} {key : String}
    {slot : Slot V C} (h : c.Consistent)
    (hpending : ∀ child ∈ pending, (c.entries.get? child).isSome = true →
      ∃ parent, c.DependsOn child parent ∧ c.entries.get? parent = none)
    (hget : c.entries.get? key = some slot)
    (hparents : ∀ parent, c.DependsOn key parent →
      ((c.cascade pending).1.entries.get? parent).isSome = true) :
    (c.cascade pending).1.entries.get? key = some slot := by
  revert hpending hget hparents
  refine And.right (cascade_induction (motive := fun c pending rest gone => Loses c gone rest ∧
    ((∀ child ∈ pending, (c.entries.get? child).isSome = true →
        ∃ parent, c.DependsOn child parent ∧ c.entries.get? parent = none) →
      c.entries.get? key = some slot →
      (∀ parent, c.DependsOn key parent → (rest.entries.get? parent).isSome = true) →
        rest.entries.get? key = some slot)) ?nil ?absent ?present c pending h)
  case nil => exact fun c _ => ⟨.refl c, fun _ hget _ => hget⟩
  case absent =>
    intro c child pending rest gone _ _ ih
    exact ⟨ih.1, fun hpending => ih.2 fun x hx => hpending x (List.mem_cons_of_mem _ hx)⟩
  case present =>
    intro c child pending slot' rest gone hc hslot ih
    have hloses := (Loses.unlink hslot .dependencyChanged).trans ih.1
    refine ⟨hloses, ?_⟩
    intro hpending hget hparents
    have hne : key ≠ child := by
      rintro rfl
      obtain ⟨parent, hd, hnone⟩ := hpending key List.mem_cons_self (by rw [hget]; rfl)
      have hstored := hparents parent hd
      rw [hloses.none_of_none hnone] at hstored
      cases hstored
    refine ih.2 ?_ ?_ ?_
    · intro x hx hstored
      rcases List.mem_append.1 hx with hx | hx
      · have hx := (mem_dependentsOf_unlink hc child x child).1 hx
        exact ⟨child, (dependsOn_unlink c child x child).2 hx, Table.get?_erase_self ..⟩
      · obtain ⟨s, hs⟩ := Option.isSome_iff_exists.1 hstored
        obtain ⟨hxne, hold⟩ := Table.get?_of_get?_erase hs
        obtain ⟨parent, hd, hnone⟩ := hpending x (List.mem_cons_of_mem _ hx) (by rw [hold]; rfl)
        exact ⟨parent, (dependsOn_unlink c child x parent).2 ⟨hxne, hd⟩,
          (Loses.unlink hslot .dependencyChanged).none_of_none hnone⟩
    · simp only [Cache.unlink]
      rwa [Table.get?_erase_of_ne _ hne]
    · intro parent hd
      exact hparents parent ((dependsOn_unlink c child key parent).1 hd).2

/-! ## Taking out an entry with what depends on it -/

theorem detach_eq_none {c : Cache V C} {key : String} (h : c.detach key = none) :
    c.entries.get? key = none := by
  unfold detach at h
  exact Option.map_eq_none_iff.1 h

theorem detach_eq_some {c : Cache V C} {key : String} {d : Detached V C}
    (h : c.detach key = some d) : c.entries.get? key = some d.slot ∧
      d.cache = ((c.unlink key).cascade ((c.unlink key).index.dependentsOf key)).1 ∧
      d.evicted = ((c.unlink key).cascade ((c.unlink key).index.dependentsOf key)).2 := by
  unfold detach at h
  obtain ⟨slot, hslot, rfl⟩ := Option.map_eq_some_iff.1 h
  exact ⟨hslot, rfl, rfl⟩

section Detach

variable {c : Cache V C} {key : String} {d : Detached V C}

theorem loses_detach (h : c.Consistent) (hd : c.detach key = some d) (reason : Reason) :
    Loses c (⟨key, d.slot, reason⟩ :: d.evicted) d.cache := by
  obtain ⟨hslot, hcache, hevicted⟩ := detach_eq_some hd
  rw [hcache, hevicted]
  exact (Loses.unlink hslot reason).trans (loses_cascade _ (h.unlink key))

theorem was_stored_of_detach (h : c.Consistent) (hd : c.detach key = some d) :
    ∀ e ∈ d.evicted, c.entries.get? e.key = some e.slot :=
  fun e he => (loses_detach h hd .expired).was_stored e (List.mem_cons_of_mem _ he)

theorem get?_detach_self (h : c.Consistent) (hd : c.detach key = some d) :
    d.cache.entries.get? key = none :=
  (loses_detach h hd .expired).is_gone _ List.mem_cons_self

theorem reason_of_detach (h : c.Consistent) (hd : c.detach key = some d) :
    ∀ e ∈ d.evicted, e.reason = .dependencyChanged := by
  obtain ⟨-, -, hevicted⟩ := detach_eq_some hd
  rw [hevicted]
  exact reason_of_cascade _ (h.unlink key)

theorem Linked.detach (h : c.Linked) (hd : c.detach key = some d) : d.cache.Linked := by
  obtain ⟨-, hcache, -⟩ := detach_eq_some hd
  rw [hcache]
  apply linked_cascade (h.unlink key)
  intro child parent hdep
  obtain ⟨hne, hold⟩ := (dependsOn_unlink c key child parent).1 hdep
  by_cases hp : parent = key
  · subst hp
    exact .inr ((mem_dependentsOf_unlink h.toConsistent parent child parent).2 ⟨hne, hold⟩)
  · refine .inl ?_
    simp only [unlink]
    rw [Table.get?_erase_of_ne _ hp]
    exact h.parent_stored child parent hold

/-- Another entry leaves together with the one under `key` only if one of its parents does. -/
theorem survives_detach (h : c.Consistent) (hd : c.detach key = some d) {other : String}
    {slot : Slot V C} (hne : other ≠ key) (hget : c.entries.get? other = some slot)
    (hparents : ∀ parent ∈ slot.options.keys, (d.cache.entries.get? parent).isSome = true) :
    d.cache.entries.get? other = some slot := by
  obtain ⟨-, hcache, -⟩ := detach_eq_some hd
  rw [hcache] at hparents ⊢
  refine survives_cascade (h.unlink key) ?_ ?_ ?_
  · intro child hchild _
    have hchild := (mem_dependentsOf_unlink h key child key).1 hchild
    exact ⟨key, (dependsOn_unlink c key child key).2 hchild, Table.get?_erase_self ..⟩
  · simp only [unlink]
    rwa [Table.get?_erase_of_ne _ hne]
  · intro parent hdep
    have hold := ((dependsOn_unlink c key other parent).1 hdep).2
    exact hparents parent ((h.recorded other slot hget parent).1 hold)

theorem ne_of_evicted (h : c.Consistent) (hd : c.detach key = some d) :
    ∀ e ∈ d.evicted, e.key ≠ key := by
  obtain ⟨-, -, hevicted⟩ := detach_eq_some hd
  rw [hevicted]
  intro e he
  exact (Table.get?_of_get?_erase ((loses_cascade _ (h.unlink key)).was_stored e he)).1

theorem orphan_of_detach (h : c.Consistent) (hd : c.detach key = some d) :
    ∀ e ∈ d.evicted, ∃ parent ∈ e.slot.options.keys, d.cache.entries.get? parent = none := by
  intro e he
  have hloses := loses_detach h hd .expired
  have he' := List.mem_cons_of_mem ⟨key, d.slot, .expired⟩ he
  apply Classical.byContradiction
  intro hall
  have hstays := survives_detach h hd (ne_of_evicted h hd e he) (hloses.was_stored e he')
    fun parent hp => Option.isSome_iff_ne_none.2 fun hnone => hall ⟨parent, hp, hnone⟩
  rw [hloses.is_gone e he'] at hstays
  cases hstays

end Detach

end Templating.Cache
