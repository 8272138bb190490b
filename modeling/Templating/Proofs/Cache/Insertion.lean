import Templating.Proofs.Cache.Standing

/-!
# What an insertion does

An insertion first takes out the entry under its key with all that was built on it, and only then
looks whether the new entry may be stored. So a parent that was itself built on the key is not there
any more, and the new entry closes no circle; and an insertion that is refused has taken out the old
entries all the same.

`takesOut_cleared` says what the first part takes out, `stored_place_iff` what the second part asks
for, in terms of the cache as it was before. `Commons.inserts_exactly` puts them together at every
moment of every run.
-/

namespace Templating

open Relation

namespace Cache

variable {V C : Type} {c : Cache V C}

/-! ## What leaves first -/

/-- Where nothing is stored under a key, nothing was built on it. -/
theorem Linked.not_transGen_of_none (h : c.Linked) {key : String}
    (hnone : c.entries.get? key = none) (other : String) : ¬TransGen c.DependsOn other key := by
  intro hreaches
  obtain ⟨last, -, hdep⟩ := TransGen.tail'_iff.1 hreaches
  exact h.not_dependsOn_of_none hnone last hdep

/-- An entry that was built on the key is another one. -/
theorem Linked.reflTransGen_iff (h : c.Linked) {key other : String} :
    ReflTransGen c.DependsOn other key ∧ other ≠ key ↔ TransGen c.DependsOn other key := by
  constructor
  · rintro ⟨hreaches, hne⟩
    exact (reflTransGen_iff_eq_or_transGen.1 hreaches).resolve_left fun heq => hne heq.symm
  · intro hreaches
    refine ⟨hreaches.to_reflTransGen, ?_⟩
    rintro rfl
    exact h.acyclic other hreaches

/-- **What makes place for an insertion**: the entry under the key leaves, and the entries reported
are those that were built on it, each once. -/
theorem takesOut_cleared (h : c.Linked) (key : String) :
    ((c.cleared key).2.1.map Evicted.key).Nodup ∧
    (∀ other, other ∈ (c.cleared key).2.1.map Evicted.key ↔ TransGen c.DependsOn other key) ∧
    (∀ other slot, (c.cleared key).1.entries.get? other = some slot ↔
      c.entries.get? other = some slot ∧ ¬ReflTransGen c.DependsOn other key) ∧
    ∀ other parent, (c.cleared key).1.DependsOn other parent ↔
      c.DependsOn other parent ∧ ¬ReflTransGen c.DependsOn other key := by
  cases hd : c.detach key with
  | none =>
    have hnone := detach_eq_none hd
    have hreaches : ∀ other, ReflTransGen c.DependsOn other key → other = key := fun other hother =>
      by_contra fun hne => h.not_transGen_of_none hnone other (h.reflTransGen_iff.1 ⟨hother, hne⟩)
    rw [cleared_of_none hd]
    refine ⟨List.nodup_nil, fun other => ?_, fun other slot => ?_, fun other parent => ?_⟩
    · simpa using h.not_transGen_of_none hnone other
    · refine ⟨fun hget => ⟨hget, fun hother => ?_⟩, And.left⟩
      have hget : c.entries.get? other = some slot := hget
      rw [hreaches other hother, hnone] at hget
      cases hget
    · refine ⟨fun hdep => ⟨hdep, fun hother => ?_⟩, And.left⟩
      have hstored := h.toConsistent.stored_of_dependsOn hdep
      rw [hreaches other hother, hnone] at hstored
      cases hstored
  | some d =>
    obtain ⟨htakes, -⟩ := (removes_detach hd).takesOut h (.refl h)
    obtain ⟨hkey, hnodup⟩ := List.nodup_cons.1 htakes.nodup
    rw [cleared_of_some hd]
    refine ⟨hnodup, fun other => ?_, htakes.entries, htakes.depends⟩
    · rw [← h.reflTransGen_iff, ← htakes.mem_iff, List.mem_cons]
      constructor
      · intro hmem
        refine ⟨.inr hmem, ?_⟩
        rintro rfl
        exact hkey hmem
      · rintro ⟨hmem, hne⟩
        exact hmem.resolve_left hne

/-! ## What is asked for then -/

theorem refuses_eq_false_iff {signals : Signals} {key : String} {options : Options C} :
    c.refuses signals key options = false ↔
      (∀ t ∈ options.tokens, signals.hasFired t = false) ∧ key ∉ options.keys ∧
        ∀ parent ∈ options.keys, (c.entries.get? parent).isSome = true := by
  constructor
  · intro h
    obtain ⟨hkeys, htokens⟩ := not_refuses h
    exact ⟨htokens, fun hmem => (hkeys key hmem).1 rfl, fun parent hp => (hkeys parent hp).2⟩
  · rintro ⟨htokens, hself, hstored⟩
    refine refuses_eq_false (fun parent hp => ⟨?_, hstored parent hp⟩) htokens
    rintro rfl
    exact hself hp

/-- **When an insertion is granted**, in terms of the cache before it: the new entry has no token
that has fired, does not depend on itself, and depends on stored entries only, none of which was
built on the entry in its place. -/
theorem stored_place_iff (h : c.Linked) {now : Instant} {signals : Signals} {key : String}
    {value : V} {options : Options C} :
    (c.place now signals key value options).stored = true ↔
      (∀ t ∈ options.tokens, signals.hasFired t = false) ∧ key ∉ options.keys ∧
        ∀ parent ∈ options.keys,
          (c.entries.get? parent).isSome = true ∧ ¬TransGen c.DependsOn parent key := by
  have hstored : (c.place now signals key value options).stored = true ↔
      (c.cleared key).1.refuses signals key options = false := by
    unfold place
    cases hrefuses : (c.cleared key).1.refuses signals key options <;> simp [hrefuses]
  rw [hstored, refuses_eq_false_iff]
  refine and_congr_right fun _ => and_congr_right fun hself => forall₂_congr fun parent hp => ?_
  have hne : parent ≠ key := fun heq => hself (heq ▸ hp)
  simp only [Option.isSome_iff_exists, (takesOut_cleared h key).2.2.1, ← h.reflTransGen_iff,
    exists_and_right, hne, ne_eq, not_false_eq_true, and_true]

/-! ## What an insertion leaves -/

section Place

variable (h : c.Linked) (now : Instant) (signals : Signals) (key : String) (value : V)
  (options : Options C)

include h in
/-- What is found under the key of an insertion: the new entry, if it was stored, and otherwise
nothing. -/
theorem get?_place_self : (c.place now signals key value options).cache.entries.get? key =
    if (c.place now signals key value options).stored = true then
      some ⟨value, options, c.millis now⟩
    else none := by
  unfold place
  cases hrefuses : (c.cleared key).1.refuses signals key options with
  | true =>
    simp only [hrefuses, if_true, Bool.false_eq_true, if_false]
    exact get?_cleared_self h key
  | false =>
    simp only [hrefuses, Bool.false_eq_true, if_false, if_true]
    rw [get?_link, if_pos rfl, millis, millis, epoch_cleared h key]

theorem get?_place_of_ne {other : String} (hne : other ≠ key) :
    (c.place now signals key value options).cache.entries.get? other =
      (c.cleared key).1.entries.get? other := by
  unfold place
  simp only
  split
  · rfl
  · exact (get?_link ..).trans (if_neg hne)

include h in
/-- What the entry under the key of an insertion depends on. -/
theorem dependsOn_place_self (parent : String) :
    (c.place now signals key value options).cache.DependsOn key parent ↔
      (c.place now signals key value options).stored = true ∧ parent ∈ options.keys := by
  have hfree := get?_cleared_self h key
  unfold place
  cases hrefuses : (c.cleared key).1.refuses signals key options with
  | true =>
    simp only [hrefuses, if_true, Bool.false_eq_true, false_and, iff_false]
    intro hdep
    have hstored := (h.cleared key).toConsistent.stored_of_dependsOn hdep
    rw [hfree] at hstored
    cases hstored
  | false =>
    simp only [hrefuses, Bool.false_eq_true, if_false, true_and]
    rw [dependsOn_link now value options (h.cleared key).toConsistent hfree, if_pos rfl]

include h in
theorem dependsOn_place_of_ne {other : String} (hne : other ≠ key) (parent : String) :
    (c.place now signals key value options).cache.DependsOn other parent ↔
      (c.cleared key).1.DependsOn other parent := by
  unfold place
  simp only
  split
  · rfl
  · rw [dependsOn_link now value options (h.cleared key).toConsistent (get?_cleared_self h key),
      if_neg hne]

include h in
/-- A stored entry hears of each of its tokens, and an insertion that is refused leaves all tokens
and flags as they are. -/
theorem signals_place :
    ((c.place now signals key value options).stored = true → ∀ t ∈ options.tokens,
      (c.place now signals key value options).signals.Tells t c.flag) ∧
    ((c.place now signals key value options).stored = false →
      (c.place now signals key value options).signals = signals) := by
  unfold place
  cases hrefuses : (c.cleared key).1.refuses signals key options with
  | true => simp [hrefuses]
  | false =>
    simp only [hrefuses, Bool.false_eq_true, if_false, forall_const, reduceCtorEq, false_implies,
      and_true]
    rw [Session.flag_cleared h key]
    exact Signals.Tells.of_foldl_subscribe signals options.tokens c.flag

end Place

end Cache

namespace Commons

variable {ι V C W : Type} [DecidableEq ι]

/-- **Insertion is exact**, at every moment of every run, also while hooks wait to be asked. What
was built on the entry under the key is evicted, each once, for its dependency, and is asked about
last; the old entry itself is asked nothing. The new entry is stored if and only if none of its
tokens has fired, it does not depend on itself, and all that it depends on was stored and not built
on the entry in its place. If it is stored it is found with what it was inserted with, as if read
now, depends on the keys it names and no other, and hears of its tokens; if not, nothing is found
under the key and no token or flag has changed. Every other entry that was not built on the key is
as it was, with what it depends on. An insertion where nothing live may be replaced does the same
when no live entry is there, and otherwise does nothing at all. -/
theorem inserts_exactly (decide : Decisions V C W) (flags : ι ↪ Flag) (epochs : ι → Instant)
    (now : Instant) (scene : Scene W) (moves : List (Move ι V C W)) (i : ι) (key : String)
    (value : V) (options : Options C) :
    let σ := (start flags epochs now scene).run decide moves
    let m := σ.moment decide
    let s := σ.session i
    let c := s.cache
    let signals := s.scene.signals
    let begun := (Cache.Request.insert key value options).begin m s
    let stored := (Session.insert m key value options s).1
    let live := ∃ slot, c.entries.get? key = some slot ∧
      (∀ deadline, slot.deadline? c.epoch = some deadline → m.now < deadline) ∧
      ∀ t ∈ slot.options.tokens, signals.hasFired t = false
    Session.insert m key value options s =
        (stored, begun.1.settle m (begun.2.map .consult)) ∧
    (begun.2.map Evicted.key).Nodup ∧
    (∀ other, other ∈ begun.2.map Evicted.key ↔ TransGen c.DependsOn other key) ∧
    (∀ e ∈ begun.2, c.entries.get? e.key = some e.slot ∧ e.reason = .dependencyChanged) ∧
    (stored = true ↔ (∀ t ∈ options.tokens, signals.hasFired t = false) ∧ key ∉ options.keys ∧
      ∀ parent ∈ options.keys,
        (c.entries.get? parent).isSome = true ∧ ¬TransGen c.DependsOn parent key) ∧
    begun.1.cache.entries.get? key =
      (if stored = true then some ⟨value, options, c.millis m.now⟩ else none) ∧
    (∀ parent, begun.1.cache.DependsOn key parent ↔ stored = true ∧ parent ∈ options.keys) ∧
    (stored = true → ∀ t ∈ options.tokens, begun.1.scene.signals.Tells t c.flag) ∧
    (stored = false → begun.1.scene.signals = signals) ∧
    (∀ other, other ≠ key →
      (∀ slot, begun.1.cache.entries.get? other = some slot ↔
        c.entries.get? other = some slot ∧ ¬TransGen c.DependsOn other key) ∧
      ∀ parent, begun.1.cache.DependsOn other parent ↔
        c.DependsOn other parent ∧ ¬TransGen c.DependsOn other key) ∧
    (live → Session.insertIfAbsent m key value options s = (false, s) ∧
      (Cache.Request.insertIfAbsent key value options).begin m s = (s, [])) ∧
    (¬live → Session.insertIfAbsent m key value options s = Session.insert m key value options s ∧
      (Cache.Request.insertIfAbsent key value options).begin m s = begun) := by
  intro σ m s c signals begun stored live
  have hlinked : c.Linked := linked_run decide flags epochs now scene moves i
  obtain ⟨hnodup, hgone, hentries, hdepends⟩ := Cache.takesOut_cleared hlinked key
  have hevicted : begun.2 = (c.cleared key).2.1 :=
    (Cache.keys_place m.now signals key value options hlinked).1
  have hsignals : begun.1.scene.signals =
      (c.place m.now signals key value options).signals := Session.signals_commit ..
  have htold := Cache.signals_place hlinked m.now signals key value options
  have hlive : s.contains m key = true ↔ live := by
    refine Cache.contains_iff.trans (exists_congr fun slot => and_congr_right fun _ => ?_)
    rw [Slot.isLive_eq_true, Slot.isExpired_eq_false, Slot.hasFired_eq_false]
  rw [← hevicted] at hnodup hgone
  refine ⟨rfl, hnodup, hgone,
    Cache.was_stored_of_place hlinked key m.now signals value options,
    Cache.stored_place_iff hlinked, Cache.get?_place_self hlinked m.now signals key value options,
    Cache.dependsOn_place_self hlinked m.now signals key value options,
    fun hstored => ?_, fun hrefused => ?_, fun other hne => ⟨fun slot => ?_, fun parent => ?_⟩,
    fun hyes => ?_, fun hno => ?_⟩
  · rw [hsignals]
    exact htold.1 hstored
  · rw [hsignals]
    exact htold.2 hrefused
  · rw [← hlinked.reflTransGen_iff, and_iff_left hne, ← hentries other slot,
      ← Cache.get?_place_of_ne m.now signals key value options hne]
    rfl
  · rw [← hlinked.reflTransGen_iff, and_iff_left hne, ← hdepends other parent,
      ← Cache.dependsOn_place_of_ne hlinked m.now signals key value options hne]
    rfl
  · have hcontains := hlive.2 hyes
    exact ⟨if_pos hcontains, if_pos hcontains⟩
  · have hcontains := fun h => hno (hlive.1 h)
    exact ⟨if_neg hcontains, if_neg hcontains⟩

end Commons

end Templating
