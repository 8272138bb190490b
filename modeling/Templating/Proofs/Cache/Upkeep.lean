import Templating.Proofs.Cache.Linked

/-!
# Sweeps and insertions

The operations that take out or put in entries, over a linked cache: what they leave, what they
report, and that they leave the cache linked. A sweep leaves live entries only
(`isLive_of_sweep`), and reports what it takes out with the reason for it (`doomed_or_orphan`). An
insertion closes no circle of dependencies, because what depended on the key has left before
(`acyclic_link`).
-/

namespace Templating.Cache

open Relation

variable {V C : Type}

/-! ## Taking out several entries -/

theorem evictEach_cons_none {c : Cache V C} {key : String} (h : c.detach key = none)
    (reason : Reason) (rest : List (String × Reason)) :
    c.evictEach ((key, reason) :: rest) = c.evictEach rest := by
  rw [evictEach, h]

theorem evictEach_cons_some {c : Cache V C} {key : String} {d : Detached V C}
    (h : c.detach key = some d) (reason : Reason) (rest : List (String × Reason)) :
    c.evictEach ((key, reason) :: rest) = ((d.cache.evictEach rest).1,
      d.evicted ++ ⟨key, d.slot, reason⟩ :: (d.cache.evictEach rest).2) := by
  rw [evictEach, h]

theorem Linked.evictEach {c : Cache V C} (h : c.Linked) (doomed : List (String × Reason)) :
    (c.evictEach doomed).1.Linked := by
  induction doomed generalizing c with
  | nil => exact h
  | cons row doomed ih =>
    obtain ⟨key, reason⟩ := row
    cases hd : c.detach key with
    | none =>
      rw [evictEach_cons_none hd]
      exact ih h
    | some d =>
      rw [evictEach_cons_some hd]
      exact ih (h.detach hd)

theorem loses_evictEach {c : Cache V C} (h : c.Linked) (doomed : List (String × Reason)) :
    Loses c (c.evictEach doomed).2 (c.evictEach doomed).1 := by
  induction doomed generalizing c with
  | nil => exact .refl c
  | cons row doomed ih =>
    obtain ⟨key, reason⟩ := row
    cases hd : c.detach key with
    | none =>
      rw [evictEach_cons_none hd]
      exact ih h
    | some d =>
      rw [evictEach_cons_some hd]
      apply ((loses_detach h.toConsistent hd reason).trans (ih (h.detach hd))).perm
      intro e
      simp only [List.mem_append, List.mem_cons]
      exact ⟨fun he => by rcases he with he | he | he <;> simp [he],
        fun he => by rcases he with (he | he) | he <;> simp [he]⟩

theorem get?_evictEach_of_mem {c : Cache V C} (h : c.Linked) {doomed : List (String × Reason)} :
    ∀ row ∈ doomed, (c.evictEach doomed).1.entries.get? row.1 = none := by
  induction doomed generalizing c with
  | nil => intro row hrow; cases hrow
  | cons first doomed ih =>
    obtain ⟨key, reason⟩ := first
    intro row hrow
    cases hd : c.detach key with
    | none =>
      rw [evictEach_cons_none hd]
      rcases List.mem_cons.1 hrow with rfl | hrow
      · exact (loses_evictEach h doomed).none_of_none (detach_eq_none hd)
      · exact ih h row hrow
    | some d =>
      rw [evictEach_cons_some hd]
      have hlinked := h.detach hd
      rcases List.mem_cons.1 hrow with rfl | hrow
      · exact (loses_evictEach hlinked doomed).none_of_none (get?_detach_self h.toConsistent hd)
      · exact ih hlinked row hrow

/-- What leaves is doomed itself, with the reason reported, or has lost a parent. -/
theorem doomed_or_orphan {c : Cache V C} (h : c.Linked) {doomed : List (String × Reason)} :
    ∀ e ∈ (c.evictEach doomed).2, (e.key, e.reason) ∈ doomed ∨
      ∃ parent ∈ e.slot.options.keys, (c.evictEach doomed).1.entries.get? parent = none := by
  induction doomed generalizing c with
  | nil => intro e he; cases he
  | cons first doomed ih =>
    obtain ⟨key, reason⟩ := first
    intro e he
    cases hd : c.detach key with
    | none =>
      rw [evictEach_cons_none hd] at he ⊢
      exact (ih h e he).imp_left (List.mem_cons_of_mem _)
    | some d =>
      rw [evictEach_cons_some hd] at he ⊢
      have hlinked := h.detach hd
      rcases List.mem_append.1 he with he | he
      · obtain ⟨parent, hp, hnone⟩ := orphan_of_detach h.toConsistent hd e he
        exact .inr ⟨parent, hp, (loses_evictEach hlinked doomed).none_of_none hnone⟩
      · rcases List.mem_cons.1 he with rfl | he
        · exact .inl List.mem_cons_self
        · exact (ih hlinked e he).imp_left (List.mem_cons_of_mem _)

/-! ## Sweeps -/

theorem doom?_eq_none {slot : Slot V C} {epoch now : Instant} {signals : Signals} :
    slot.doom? epoch now signals = none ↔ slot.isLive epoch now signals = true := by
  unfold Slot.doom? Slot.isLive
  cases slot.hasFired signals <;> cases slot.isExpired epoch now <;> simp

theorem mem_doomed {c : Cache V C} (h : c.entries.Distinct) {now : Instant} {signals : Signals}
    {key : String} {reason : Reason} :
    (key, reason) ∈ c.doomed now signals ↔
      ∃ slot, c.entries.get? key = some slot ∧
        slot.doom? c.epoch now signals = some reason := by
  unfold doomed
  simp only [List.mem_filterMap, Option.map_eq_some_iff, Prod.mk.injEq, Prod.exists]
  constructor
  · rintro ⟨k, slot, hrow, r, hr, rfl, rfl⟩
    exact ⟨slot, (Table.mem_rows_iff h).1 hrow, hr⟩
  · rintro ⟨slot, hslot, hr⟩
    exact ⟨key, slot, (Table.mem_rows_iff h).2 hslot, reason, hr, rfl, rfl⟩

/-- What entries and index say about each other does not hang on the other fields. -/
theorem Linked.of_eq {c c' : Cache V C} (h : c.Linked) (hentries : c'.entries = c.entries)
    (hindex : c'.index = c.index) : c'.Linked := by
  obtain ⟨epoch, flag, entries, index, hint⟩ := c
  obtain ⟨epoch', flag', entries', index', hint'⟩ := c'
  simp only at hentries hindex
  subst hentries hindex
  exact ⟨⟨h.distinct, h.mirrored, h.child_stored, h.recorded, h.acyclic⟩, h.parent_stored⟩

section Sweep

variable {c : Cache V C} (h : c.Linked) (now : Instant) (signals : Signals)

include h in
theorem Linked.sweep : (c.sweep now signals).1.Linked :=
  (h.evictEach (c.doomed now signals)).of_eq rfl rfl

include h in
theorem kept_of_sweep {key : String} {slot : Slot V C}
    (hget : (c.sweep now signals).1.entries.get? key = some slot) :
    c.entries.get? key = some slot :=
  (loses_evictEach h (c.doomed now signals)).kept key slot hget

include h in
/-- No entry that a sweep leaves has to leave. -/
theorem isLive_of_sweep {key : String} {slot : Slot V C}
    (hget : (c.sweep now signals).1.entries.get? key = some slot) :
    slot.isLive c.epoch now signals = true := by
  have hold := kept_of_sweep h now signals hget
  rw [← doom?_eq_none]
  cases hdoom : slot.doom? c.epoch now signals with
  | none => rfl
  | some reason =>
    have hmem := (mem_doomed h.distinct).2 ⟨slot, hold, hdoom⟩
    have hnone := get?_evictEach_of_mem h _ hmem
    change (c.evictEach (c.doomed now signals)).1.entries.get? key = some slot at hget
    rw [hnone] at hget
    cases hget

end Sweep

/-! ## Insertions -/

theorem nodup_eraseDups (l : List String) : l.eraseDups.Nodup := by
  generalize hn : l.length = n
  induction n using Nat.strongRecOn generalizing l with
  | _ n ih =>
    cases l with
    | nil => simp
    | cons a l =>
      rw [List.eraseDups_cons, List.nodup_cons]
      have hlt : (l.filter fun b => !b == a).length < n := by
        have := List.length_filter_le (fun b => !b == a) l
        simp only [List.length_cons] at hn
        omega
      exact ⟨by simp [List.mem_eraseDups], ih _ hlt _ rfl⟩

theorem not_refuses {c : Cache V C} {signals : Signals} {key : String} {options : Options C}
    (h : c.refuses signals key options = false) :
    (∀ parent ∈ options.keys, parent ≠ key ∧ (c.entries.get? parent).isSome = true) ∧
      ∀ t ∈ options.tokens, signals.hasFired t = false := by
  unfold refuses at h
  rw [Bool.or_eq_false_iff, List.any_eq_false, List.any_eq_false] at h
  constructor
  · intro parent hp
    have := h.1 parent hp
    simpa [Option.isSome_iff_ne_none] using this
  · intro t ht
    simpa using h.2 t ht

section Link

variable {c : Cache V C} (now : Instant) {key : String} (value : V) (options : Options C)

theorem get?_link (key other : String) :
    (c.link now key value options).entries.get? other =
      if other = key then some ⟨value, options, c.millis now⟩ else c.entries.get? other :=
  Table.get?_put ..

/-- An entry is the new one, or was there before under another key. -/
theorem get?_of_get?_link {now : Instant} {value : V} {options : Options C} {other : String}
    {slot : Slot V C} (h : (c.link now key value options).entries.get? other = some slot) :
    other = key ∧ slot = ⟨value, options, c.millis now⟩ ∨
      other ≠ key ∧ c.entries.get? other = some slot := by
  rw [get?_link] at h
  split at h
  · next heq => exact .inl ⟨heq, (Option.some.inj h).symm⟩
  · next hne => exact .inr ⟨hne, h⟩

theorem dependsOn_link (h : c.Consistent) (hfree : c.entries.get? key = none)
    (child parent : String) :
    (c.link now key value options).DependsOn child parent ↔
      if child = key then parent ∈ options.keys else c.DependsOn child parent := by
  unfold DependsOn link
  rw [Index.parentsOf_register (h.parents_none hfree)]
  split
  · exact List.mem_eraseDups
  · rfl

/-- A new entry on stored parents closes no circle, since nothing depends on it yet. -/
theorem acyclic_link (h : c.Linked) (hfree : c.entries.get? key = none)
    (hself : key ∉ options.keys) (other : String) :
    ¬TransGen (c.link now key value options).DependsOn other other := by
  have hstep : ∀ child parent, (c.link now key value options).DependsOn child parent →
      parent ≠ key := by
    rintro child parent hdep rfl
    rw [dependsOn_link now value options h.toConsistent hfree] at hdep
    split at hdep
    · exact hself hdep
    · exact h.not_dependsOn_of_none hfree child hdep
  have hpath : ∀ {a b}, TransGen (c.link now key value options).DependsOn a b → a ≠ key →
      TransGen c.DependsOn a b := by
    intro a b hab ha
    induction hab with
    | single hd =>
      rw [dependsOn_link now value options h.toConsistent hfree, if_neg ha] at hd
      exact .single hd
    | @tail b _ hab hd ih =>
      have hb : b ≠ key := by
        cases hab with
        | single hd' => exact hstep _ _ hd'
        | tail _ hd' => exact hstep _ _ hd'
      rw [dependsOn_link now value options h.toConsistent hfree, if_neg hb] at hd
      exact ih.tail hd
  intro hcycle
  have hne : other ≠ key := by
    cases hcycle with
    | single hd => exact hstep _ _ hd
    | tail _ hd => exact hstep _ _ hd
  exact h.acyclic other (hpath hcycle hne)

theorem Linked.link (h : c.Linked) (hfree : c.entries.get? key = none)
    (hparents : ∀ parent ∈ options.keys, parent ≠ key ∧ (c.entries.get? parent).isSome = true) :
    (c.link now key value options).Linked := by
  have hdep := dependsOn_link now value options h.toConsistent hfree
  have hmirrored := h.mirrored.register (h.parents_none hfree) (nodup_eraseDups options.keys)
  refine ⟨⟨h.distinct.put .., hmirrored, ?_, ?_,
    acyclic_link now value options h hfree fun hmem => (hparents key hmem).1 rfl⟩,
    ?_⟩
  · intro other hother
    obtain ⟨parent, hp⟩ := (hmirrored.exists_parent_iff other).2 hother
    have hp := (hdep other parent).1 hp
    rw [get?_link]
    split at hp
    · next hk => rw [if_pos hk]; rfl
    · next hk => rw [if_neg hk]; exact h.stored_of_dependsOn hp
  · intro other slot hget parent
    rw [hdep]
    rcases get?_of_get?_link hget with ⟨rfl, rfl⟩ | ⟨hne, hget⟩
    · rw [if_pos rfl]
    · rw [if_neg hne]
      exact h.recorded other slot hget parent
  · intro child parent hd
    rw [get?_link]
    split
    · rfl
    · rw [hdep] at hd
      split at hd
      · exact (hparents parent hd).2
      · exact h.parent_stored child parent hd

end Link

/-! ## Putting in and reading -/

theorem cleared_of_none {c : Cache V C} {key : String} (h : c.detach key = none) :
    c.cleared key = (c, [], false) := by
  unfold cleared
  rw [h]

theorem cleared_of_some {c : Cache V C} {key : String} {d : Detached V C}
    (h : c.detach key = some d) : c.cleared key = (d.cache, d.evicted, true) := by
  unfold cleared
  rw [h]

section Place

variable {c : Cache V C} (h : c.Linked) (key : String)

include h in
theorem Linked.cleared : (c.cleared key).1.Linked := by
  cases hd : c.detach key with
  | none =>
    rw [cleared_of_none hd]
    exact h
  | some d =>
    rw [cleared_of_some hd]
    exact h.detach hd

include h in
theorem get?_cleared_self : (c.cleared key).1.entries.get? key = none := by
  cases hd : c.detach key with
  | none =>
    rw [cleared_of_none hd]
    exact detach_eq_none hd
  | some d =>
    rw [cleared_of_some hd]
    exact get?_detach_self h.toConsistent hd

include h in
theorem kept_of_cleared {other : String} {slot : Slot V C}
    (hget : (c.cleared key).1.entries.get? other = some slot) :
    other ≠ key ∧ c.entries.get? other = some slot := by
  constructor
  · rintro rfl
    rw [get?_cleared_self h] at hget
    cases hget
  · cases hd : c.detach key with
    | none => rwa [cleared_of_none hd] at hget
    | some d =>
      rw [cleared_of_some hd] at hget
      exact (loses_detach h.toConsistent hd .expired).kept other slot hget

include h in
theorem was_stored_of_cleared : ∀ e ∈ (c.cleared key).2.1,
    c.entries.get? e.key = some e.slot ∧ e.reason = .dependencyChanged := by
  intro e he
  cases hd : c.detach key with
  | none =>
    rw [cleared_of_none hd] at he
    cases he
  | some d =>
    rw [cleared_of_some hd] at he
    exact ⟨(loses_detach h.toConsistent hd .expired).was_stored e (List.mem_cons_of_mem _ he),
      reason_of_detach h.toConsistent hd e he⟩

variable (now : Instant) (signals : Signals) (value : V) (options : Options C)

include h in
theorem Linked.place : (c.place now signals key value options).cache.Linked := by
  unfold Cache.place
  simp only
  split
  · exact h.cleared key
  · next hrefuses =>
    exact (h.cleared key).link now value options (get?_cleared_self h key)
      (not_refuses (by simpa using hrefuses)).1

include h in
theorem epoch_cleared : (c.cleared key).1.epoch = c.epoch := by
  cases hd : c.detach key with
  | none => rw [cleared_of_none hd]
  | some d =>
    rw [cleared_of_some hd]
    exact (loses_detach h.toConsistent hd .expired).epoch

include h in
theorem epoch_place : (c.place now signals key value options).cache.epoch = c.epoch := by
  rw [← epoch_cleared h key]
  unfold Cache.place
  simp only
  split <;> rfl

include h in
/-- What leaves because of an insertion was built on the entry whose place it takes. -/
theorem was_stored_of_place :
    ∀ e ∈ (c.place now signals key value options).evicted,
      c.entries.get? e.key = some e.slot ∧ e.reason = .dependencyChanged := by
  have hevicted : (c.place now signals key value options).evicted = (c.cleared key).2.1 := by
    unfold Cache.place
    simp only
    split <;> rfl
  rw [hevicted]
  exact was_stored_of_cleared h key

include h in
/-- After an insertion an entry is the new one, if that was stored, or was there before under
another key. -/
theorem get?_place {other : String} {slot : Slot V C}
    (hget : (c.place now signals key value options).cache.entries.get? other = some slot) :
    (other = key ∧ slot = ⟨value, options, c.millis now⟩ ∧
      (c.place now signals key value options).stored = true ∧
        ∀ t ∈ options.tokens, signals.hasFired t = false) ∨
      other ≠ key ∧ c.entries.get? other = some slot := by
  unfold Cache.place at hget ⊢
  simp only at hget ⊢
  split at hget
  · exact .inr (kept_of_cleared h key hget)
  · next hrefuses =>
    rw [if_neg hrefuses]
    rcases get?_of_get?_link hget with ⟨heq, rfl⟩ | ⟨-, hget⟩
    · refine .inl ⟨heq, ?_, rfl, (not_refuses (by simpa using hrefuses)).2⟩
      unfold millis
      rw [epoch_cleared h key]
    · exact .inr (kept_of_cleared h key hget)

end Place

theorem get?_touch (c : Cache V C) (now : Instant) (key other : String) :
    (c.touch now key).entries.get? other =
      if other = key then
        (c.entries.get? key).map fun slot => { slot with touched := c.millis now }
      else c.entries.get? other :=
  Table.get?_modify ..

theorem get?_of_get?_touch {c : Cache V C} {now : Instant} {key other : String} {slot : Slot V C}
    (h : (c.touch now key).entries.get? other = some slot) :
    ∃ old, c.entries.get? other = some old ∧ slot.value = old.value ∧
      slot.options = old.options ∧ (slot.touched = old.touched ∨ slot.touched = c.millis now) := by
  rw [get?_touch] at h
  split at h
  · next hk =>
    subst hk
    obtain ⟨old, hold, rfl⟩ := Option.map_eq_some_iff.1 h
    exact ⟨old, hold, rfl, rfl, .inr rfl⟩
  · exact ⟨slot, h, rfl, rfl, .inl rfl⟩

theorem isSome_get?_touch (c : Cache V C) (now : Instant) (key other : String) :
    ((c.touch now key).entries.get? other).isSome = (c.entries.get? other).isSome := by
  rw [get?_touch]
  split
  · next hk => rw [hk, Option.isSome_map]
  · rfl

theorem Linked.touch {c : Cache V C} (h : c.Linked) (now : Instant) (key : String) :
    (c.touch now key).Linked := by
  refine ⟨⟨h.distinct.modify .., h.mirrored, ?_, ?_, h.acyclic⟩, ?_⟩
  · intro other hother
    rw [isSome_get?_touch]
    exact h.child_stored other hother
  · intro other slot hget parent
    obtain ⟨old, hold, -, hoptions, -⟩ := get?_of_get?_touch hget
    rw [hoptions]
    exact h.recorded other old hold parent
  · intro child parent hd
    rw [isSome_get?_touch]
    exact h.parent_stored child parent hd

theorem Linked.dropAll (c : Cache V C) : c.dropAll.Linked := by
  have hnone : ∀ child parent, ¬c.dropAll.DependsOn child parent :=
    fun child parent hd => absurd hd List.not_mem_nil
  refine ⟨⟨Table.distinct_empty, .empty, fun _ h => (by cases h), fun _ _ h => (by cases h),
    fun key hcycle => ?_⟩, fun child parent hd => absurd hd (hnone child parent)⟩
  cases hcycle with
  | single hd => exact hnone _ _ hd
  | tail _ hd => exact hnone _ _ hd

end Templating.Cache
