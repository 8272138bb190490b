import Templating.Proofs.Cache.Lull

/-!
# What is put in stands

An insertion is refused if the entry depends on what is not there or holds a token that has fired,
and an entry may be out of date as soon as it is stored. Otherwise it can be seen afterwards, and
nothing else has changed but what depended on the entry whose place it took, as long as none of
that has a hook (`Session.insert_stands`). Through a series of operations that put entries in where
nothing depends on their keys, what stood stands on (`Session.Abides`).

A sliding expiration counts from the start of the millisecond in which an entry was read last, so
that it takes a millisecond at least for the entry to outlive the instant at which it was put in
(`Expiration.Lasts`).
-/

namespace Templating

open Relation

/-! ## Expiration -/

/-- What is put in now with this expiration is not out of date at once. -/
def Expiration.Lasts (now : Instant) : Expiration → Prop
  | .never => True
  | .absolute instant => now < instant
  | .sliding window => Duration.ofMillis 1 ≤ window

namespace Cache

variable {V C : Type} {c : Cache V C} {now : Instant} {signals : Signals} {key other : String}
  {value : V} {options : Options C}

theorem isExpired_new (c : Cache V C) (value : V) (h : options.expiration.Lasts now) :
    (⟨value, options, c.millis now⟩ : Slot V C).isExpired c.epoch now = false := by
  obtain ⟨keys, tokens, expiration, hook⟩ := options
  refine Slot.isExpired_eq_false.2 fun deadline hdeadline => ?_
  cases expiration with
  | never => cases hdeadline
  | absolute instant =>
    cases hdeadline
    exact h
  | sliding window =>
    cases hdeadline
    have hlater : ∀ now epoch window : Nat, 1000000 ≤ window →
        now < epoch + (now - epoch) / 1000000 * 1000000 + window := by omega
    exact hlater now c.epoch window h

/-! ## Places -/

/-- What leaves with the entry under a key depends on it. -/
theorem depends_of_cleared (h : c.Linked) (key : String) :
    ∀ e ∈ (c.cleared key).2.1, TransGen c.DependsOn e.key key := by
  intro e he
  cases hd : c.detach key with
  | none =>
    rw [cleared_of_none hd] at he
    cases he
  | some d =>
    rw [cleared_of_some hd] at he
    obtain ⟨htakes, -⟩ := (removes_detach hd).takesOut h (.refl h)
    have hreaches := (htakes.mem_iff e.key).1 (List.mem_cons_of_mem _ (List.mem_map_of_mem he))
    have hne := ne_of_evicted h.toConsistent hd e he
    exact (reflTransGen_iff_eq_or_transGen.1 hreaches).resolve_left hne.symm

/-- What does not depend on the entry under a key stays. -/
theorem get?_cleared_of_not (h : c.Linked) (hne : other ≠ key)
    (hdep : ¬TransGen c.DependsOn other key) :
    (c.cleared key).1.entries.get? other = c.entries.get? other := by
  cases hd : c.detach key with
  | none => rw [cleared_of_none hd]
  | some d =>
    rw [cleared_of_some hd]
    obtain ⟨htakes, -⟩ := (removes_detach hd).takesOut h (.refl h)
    have hstays : ¬ReflTransGen c.DependsOn other key := fun hreaches =>
      hdep ((reflTransGen_iff_eq_or_transGen.1 hreaches).resolve_left hne.symm)
    exact Option.ext fun slot => (htakes.entries other slot).trans (and_iff_left hstays)

theorem refuses_eq_false (hkeys : ∀ parent ∈ options.keys,
      parent ≠ key ∧ (c.entries.get? parent).isSome = true)
    (htokens : ∀ t ∈ options.tokens, signals.hasFired t = false) :
    c.refuses signals key options = false := by
  unfold refuses
  rw [Bool.or_eq_false_iff, List.any_eq_false, List.any_eq_false]
  refine ⟨fun parent hparent => ?_, fun t ht => by simpa using htokens t ht⟩
  obtain ⟨hne, hstored⟩ := hkeys parent hparent
  simpa [hne, Option.isSome_iff_ne_none] using hstored

variable (now signals) in
/-- **An entry is stored** if what it depends on is there and stays, and its tokens have not
fired. -/
theorem place_stored (h : c.Linked) (value : V)
    (hkeys : ∀ parent ∈ options.keys, parent ≠ key ∧ (c.entries.get? parent).isSome = true ∧
      ¬TransGen c.DependsOn parent key)
    (htokens : ∀ t ∈ options.tokens, signals.hasFired t = false) :
    let p := c.place now signals key value options
    p.stored = true ∧ p.evicted = (c.cleared key).2.1 ∧
      p.cache.entries.get? key = some ⟨value, options, c.millis now⟩ ∧
      ∀ other, other ≠ key → ¬TransGen c.DependsOn other key →
        p.cache.entries.get? other = c.entries.get? other := by
  have haccepts : (c.cleared key).1.refuses signals key options = false := by
    refine refuses_eq_false (fun parent hparent => ?_) htokens
    obtain ⟨hne, hstored, hstays⟩ := hkeys parent hparent
    exact ⟨hne, by rwa [get?_cleared_of_not h hne hstays]⟩
  have hmillis : (c.cleared key).1.millis now = c.millis now := by
    unfold millis
    rw [epoch_cleared h key]
  unfold place
  simp only [haccepts, Bool.false_eq_true, if_false, get?_link, hmillis]
  refine ⟨trivial, trivial, if_pos trivial, fun other hne hdep => ?_⟩
  rw [if_neg hne, get?_cleared_of_not h hne hdep]

end Cache

/-! ## Sessions -/

namespace Session

variable {V C W : Type} {m : Moment V C W} {s : Session V C W} {key : String} {value : V}
  {options : Options C}

variable (value options) in
/-- **What is put in stands**, if what it depends on is there and stays, its tokens have not fired,
and it is not out of date. What does not depend on the entry whose place it takes stands as
before. -/
theorem insert_stands (h : s.cache.Linked)
    (hsilent : ∀ other slot, s.cache.entries.get? other = some slot →
      TransGen s.cache.DependsOn other key → slot.options.hook = none)
    (hkeys : ∀ parent ∈ options.keys, parent ≠ key ∧ (s.cache.entries.get? parent).isSome = true ∧
      ¬TransGen s.cache.DependsOn parent key)
    (htokens : ∀ t ∈ options.tokens, s.scene.signals.hasFired t = false)
    (hlasts : options.expiration.Lasts m.now) :
    let r := Session.insert m key value options s
    r.1 = true ∧ r.2.standing m.now key = some value ∧
      ∀ other, other ≠ key → ¬TransGen s.cache.DependsOn other key →
        r.2.standing m.now other = s.standing m.now other := by
  obtain ⟨hstored, hevicted, hself, hothers⟩ :=
    Cache.place_stored m.now s.scene.signals h value hkeys htokens
  let p := s.cache.place m.now s.scene.signals key value options
  have hquiet : ∀ e ∈ p.evicted, e.slot.options.hook = none := by
    intro e he
    have hget := (Cache.was_stored_of_place h key m.now s.scene.signals value options e he).1
    rw [hevicted] at he
    exact hsilent e.key e.slot hget (Cache.depends_of_cleared h key e he)
  have hafter : (Session.insert m key value options s).2 =
      ⟨p.cache, countOff (s.commit key p).scene p.evicted⟩ := consultAll_silent hquiet
  have hepoch : p.cache.epoch = s.cache.epoch :=
    Cache.epoch_place h key m.now s.scene.signals value options
  have hfired : (countOff (s.commit key p).scene p.evicted).signals.fired =
      s.scene.signals.fired := by
    rw [signals_countOff, signals_commit]
    exact (fired_place s.cache m.now s.scene.signals key value options).1
  have hlive : ∀ slot : Slot V C, slot.isLive p.cache.epoch m.now
      (countOff (s.commit key p).scene p.evicted).signals =
        slot.isLive s.cache.epoch m.now s.scene.signals := by
    intro slot
    rw [hepoch]
    exact isLive_congr hfired slot _
  intro r
  refine ⟨hstored, ?_, fun other hne hdep => ?_⟩
  · refine standing_eq_some.2 ⟨⟨value, options, s.cache.millis m.now⟩, ?_, ?_, rfl⟩
    · rw [hafter]
      exact hself
    · rw [hafter, hlive]
      exact Slot.isLive_eq_true.2
        ⟨s.cache.isExpired_new value hlasts, Slot.hasFired_eq_false.2 htokens⟩
  · unfold standing
    rw [hafter]
    simp only [hlive]
    rw [hothers other hne hdep]

/-! ## What stands on -/

/-- There is a lull, and what stood in an earlier session stands on, as far as `B` says. -/
structure Abides (B : String → V → Prop) (leaf : String → Prop) (Q : W → Prop)
    (fired : List Token) (now : Instant) (s₀ s : Session V C W) : Prop where
  lull : s.Lull leaf Q fired now
  stands : ∀ key value, B key value → s₀.standing now key = some value →
    s.standing now key = some value

namespace Abides

variable {B : String → V → Prop} {leaf : String → Prop} {Q : W → Prop} {fired : List Token}
  {m : Moment V C W} {s₀ s : Session V C W} {key : String} {value : V} {options : Options C}
  (h : Abides B leaf Q fired m.now s₀ s)

include h

theorem same {s' : Session V C W} (hlull : s'.Lull leaf Q fired m.now) (hsame : s.Same m.now s') :
    Abides B leaf Q fired m.now s₀ s' :=
  ⟨hlull, fun key value hB hstands => (hsame key).trans (h.stands key value hB hstands)⟩

theorem get (key : String) : Abides B leaf Q fired m.now s₀ (Session.get m key s).2 :=
  have ⟨_, hlull, hsame⟩ := h.lull.get key
  h.same hlull hsame

theorem scene (scene : Scene W) (hstill : Q s.scene.world →
      Q scene.world ∧ scene.signals.fired = s.scene.signals.fired) :
    Abides B leaf Q fired m.now s₀ { s with scene } :=
  have ⟨hworld, hfired⟩ := hstill h.lull.world
  have ⟨hlull, hsame⟩ := h.lull.scene scene hworld hfired
  h.same hlull hsame

/-- What stands under one key may change, if nothing is said about it. -/
theorem of_ne {s' : Session V C W} (hlull : s'.Lull leaf Q fired m.now)
    (hothers : ∀ other, other ≠ key → s'.standing m.now other = s.standing m.now other)
    (hB : ∀ old, s.standing m.now key = some old → ¬B key old) :
    Abides B leaf Q fired m.now s₀ s' := by
  refine ⟨hlull, fun other old hother hstands => ?_⟩
  have hstands := h.stands other old hother hstands
  have hne : other ≠ key := by
    rintro rfl
    exact hB old hstands hother
  exact (hothers other hne).trans hstands

variable (value options) in
theorem insert_childless (hchild : ∀ child, ¬s.cache.DependsOn child key)
    (hB : ∀ old, s.standing m.now key = some old → ¬B key old)
    (hkeys : ∀ parent ∈ options.keys, ¬leaf parent) (hlasts : options.expiration.Lasts m.now) :
    let s' := (Session.insert m key value options s).2
    Abides B leaf Q fired m.now s₀ s' ∧
      (∀ other, other ≠ key → s'.cache.entries.get? other = s.cache.entries.get? other) ∧
      ∀ slot, s'.cache.entries.get? key = some slot → slot.options = options := by
  obtain ⟨hlull, hothers, hself⟩ := h.lull.insert_childless hchild value hkeys
    (.inl (s.cache.isExpired_new value hlasts))
  refine ⟨h.of_ne hlull (fun other hne => (hothers other hne).2) hB,
    fun other hne => (hothers other hne).1, fun slot hslot => ?_⟩
  rw [hself slot hslot]

variable (value options) in
/-- An entry that is no leaf is put in if there is none. -/
theorem insertIfAbsent (hleaf : ¬leaf key) (hkeys : ∀ parent ∈ options.keys, ¬leaf parent)
    (hlasts : options.expiration.Lasts m.now) :
    let s' := (Session.insertIfAbsent m key value options s).2
    Abides B leaf Q fired m.now s₀ s' ∧
      ∀ other, other ≠ key → s'.standing m.now other = s.standing m.now other := by
  rcases h.lull.insertIfAbsent_cases value options hleaf with ⟨-, heq⟩ | ⟨hnone, hchild, heq⟩
  · rw [heq]
    exact ⟨h, fun _ _ => rfl⟩
  · rw [heq]
    obtain ⟨hlull, hothers, -⟩ := h.lull.insert_childless hchild value hkeys
      (.inl (s.cache.isExpired_new value hlasts))
    refine ⟨h.of_ne hlull (fun other hne => (hothers other hne).2) fun old hstands => ?_,
      fun other hne => (hothers other hne).2⟩
    rw [standing, hnone] at hstands
    cases hstands

theorem insert_leaf (hleaf : leaf key) (hB : ∀ old, ¬B key old) (hhook : options.hook = none)
    (hkeys : ∀ parent ∈ options.keys, ¬leaf parent) :
    Abides B leaf Q fired m.now s₀ (Session.insert m key value options s).2 :=
  have ⟨hlull, hothers, _⟩ := h.lull.insert_leaf hleaf value hhook hkeys
  h.of_ne hlull hothers fun old _ => hB old

theorem remove_leaf (hleaf : leaf key) (hB : ∀ old, ¬B key old) :
    Abides B leaf Q fired m.now s₀ (Session.remove m key s).2 :=
  have ⟨hlull, hothers, _⟩ := h.lull.remove_leaf hleaf
  h.of_ne hlull hothers fun old _ => hB old

end Abides

/-! ## Scenes beside a cache -/

/-- Whether this holds of a scene is a matter of its world and of the tokens, of which some have
been issued and some have fired. -/
def Steadfast (S : Scene W → Prop) : Prop :=
  ∀ a b : Scene W, b.world = a.world → b.signals.fired = a.signals.fired →
    b.signals.issued = a.signals.issued → S a → S b

/-- What every entry is like, beside a property of the scene, lasts if the hooks keep it. -/
theorem lasting_holds {A : String → V → Options C → Prop} {S : Scene W → Prop}
    (hsteadfast : Steadfast S)
    (hdecide : ∀ (e : Evicted V C) hook scene, A e.key e.slot.value e.slot.options →
      e.slot.options.hook = some hook → S scene →
        S (m.decide hook e.key e.slot.value e.reason scene).2)
    (hrenew : ∀ (e : Evicted V C) hook (scene : Scene W) value options,
      A e.key e.slot.value e.slot.options → e.slot.options.hook = some hook →
        (m.decide hook e.key e.slot.value e.reason scene).1 = .reinsert value options →
          A e.key value options) :
    Lasting m A fun s pending => s.cache.Holds A pending ∧ S s.scene where
  note s _ _ h := ⟨h.1, hsteadfast s.scene _ rfl rfl rfl h.2⟩
  forget _ _ _ h := ⟨h.1.forget, h.2⟩
  decide _ e _ hook h hhook :=
    ⟨h.1.forget, hdecide e hook _ (h.1.pending e List.mem_cons_self) hhook h.2⟩
  renew _ e _ hook value options h hhook :=
    hrenew e hook _ value options (h.1.pending e List.mem_cons_self) hhook
  place s _ key value options h hnew := by
    have hplace := fired_place s.cache m.now s.scene.signals key value options
    refine ⟨h.1.place m.now s.scene.signals hnew,
      hsteadfast _ _ (world_commit ..) ?_ ?_ h.2⟩ <;> rw [signals_commit]
    · exact hplace.1
    · exact hplace.2
  detach _ _ _ _ h hd :=
    ⟨h.1.thin (.detach h.1.linked hd)
      (Cache.was_stored_of_detach h.1.linked.toConsistent hd), h.2⟩
  sweep s h := by
    have hswept := h.1.thin (.sweep h.1.linked m.now (s.scene.signals.lower s.cache.flag))
      (Cache.loses_evictEach h.1.linked
        (s.cache.doomed m.now (s.scene.signals.lower s.cache.flag))).was_stored
    rw [List.append_nil] at hswept
    exact ⟨hswept, hsteadfast s.scene _ rfl rfl rfl h.2⟩
  touch _ key h := ⟨h.1.thin (.touch h.1.linked m.now key) (List.forall_mem_nil _), h.2⟩
  dropAll s h := ⟨h.1.thin (.dropAll s.cache) (List.forall_mem_nil _), h.2⟩

end Session

/-! ## Touch times -/

/-- No entry was read in the future. -/
def Cache.Timely {V C : Type} (c : Cache V C) (now : Instant) : Prop :=
  ∀ key slot, c.entries.get? key = some slot → slot.touched ≤ c.millis now

namespace Cache.Timely

variable {V C : Type} {c rest : Cache V C} {now : Instant}

theorem later {time : Instant} (h : c.Timely now) (hle : now ≤ time) : c.Timely time :=
  fun key slot hget =>
    Nat.le_trans (h key slot hget) (Nat.div_le_div_right (Nat.sub_le_sub_right hle _))

/-- Entries leave. -/
theorem of_kept (h : c.Timely now) (hepoch : rest.epoch = c.epoch)
    (hkept : ∀ key slot, rest.entries.get? key = some slot → c.entries.get? key = some slot) :
    rest.Timely now := by
  intro key slot hget
  unfold millis
  rw [hepoch]
  exact h key slot (hkept key slot hget)

/-- An entry is put in now. -/
theorem place (h : c.Timely now) (hc : c.Linked) (signals : Signals) (key : String) (value : V)
    (options : Options C) : (c.place now signals key value options).cache.Timely now := by
  intro other slot hget
  unfold millis
  rw [epoch_place hc]
  rcases get?_place hc key now signals value options hget with ⟨-, rfl, -⟩ | ⟨-, hold⟩
  · exact Nat.le_refl _
  · exact h other slot hold

/-- An entry is read now. -/
theorem touch (h : c.Timely now) (key : String) : (c.touch now key).Timely now := by
  intro other slot hget
  obtain ⟨old, hold, -, -, htouched⟩ := get?_of_get?_touch hget
  rcases htouched with heq | heq
  · rw [heq]
    exact h other old hold
  · exact Nat.le_of_eq heq

end Cache.Timely

/-- Nothing comes to be read in the future, whatever is put in. -/
theorem Session.lasting_timely {V C W : Type} (m : Moment V C W) :
    Lasting m (fun _ _ _ => True) fun s _ => s.cache.Linked ∧ s.cache.Timely m.now where
  note _ _ _ h := h
  forget _ _ _ h := h
  decide _ _ _ _ h _ := h
  renew _ _ _ _ _ _ _ _ _ := trivial
  place s _ key value options h _ :=
    ⟨h.1.place key m.now s.scene.signals value options,
      h.2.place h.1 s.scene.signals key value options⟩
  detach _ _ _ _ h hd :=
    have hloses := Cache.loses_detach h.1.toConsistent hd .expired
    ⟨h.1.detach hd, h.2.of_kept hloses.epoch hloses.kept⟩
  sweep s h :=
    have hloses := Cache.loses_evictEach h.1
      (s.cache.doomed m.now (s.scene.signals.lower s.cache.flag))
    ⟨h.1.sweep m.now _, h.2.of_kept hloses.epoch hloses.kept⟩
  touch _ key h := ⟨h.1.touch m.now key, h.2.touch key⟩
  dropAll s _ := ⟨.dropAll s.cache, nofun⟩

end Templating
