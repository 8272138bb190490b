import Templating.Proofs.Cache.Outlook
import Templating.Proofs.Cache.Steady

/-!
# Sessions without hooks

A session is **tidy** (`Session.Tidy`) when its cache is linked and watchful and no entry has a
hook. What each operation makes of such a session and of the outlook on a zone is said here once, so
that those who work with it need not look into caches any more. Whether the operation purges, and
what it evicts, cannot be seen.
-/

namespace Templating

namespace Session

variable {V C W μ : Type} {m : Moment V C W} {s : Session V C W} {key : String}
  {A : String → V → Options C → Prop} {mark : Token → μ} {zone : String → Prop}

/-- The sturdy entries of a zone. -/
def outlook (s : Session V C W) (now : Instant) (mark : Token → μ) (zone : String → Prop) :
    Outlook V μ :=
  s.cache.outlook now s.scene.signals mark zone

/-- Nothing has changed but the entries, the flags that are raised, who is told of what, and the
journal. -/
structure Unmoved (s s' : Session V C W) : Prop where
  epoch : s'.cache.epoch = s.cache.epoch
  world : s'.scene.world = s.scene.world
  issued : s'.scene.signals.issued = s.scene.signals.issued
  fired : s'.scene.signals.fired = s.scene.signals.fired

theorem Unmoved.trans {s' s'' : Session V C W} (h : s.Unmoved s') (h' : s'.Unmoved s'') :
    s.Unmoved s'' :=
  ⟨h'.epoch.trans h.epoch, h'.world.trans h.world, h'.issued.trans h.issued,
    h'.fired.trans h.fired⟩

/-- What a session is like that reads may rely on, and its entries, which have no hooks. -/
structure Tidy (A : String → V → Options C → Prop) (now : Instant) (s : Session V C W) : Prop
    extends Cache.Holds A s.cache [] where
  watchful : s.cache.Watchful now s.scene.signals
  silent : Silent s.cache

/-- Entries like this in a zone depend on nothing outside. -/
def Confined (A : String → V → Options C → Prop) (zone : String → Prop) : Prop :=
  ∀ key value options, A key value options → zone key → ∀ parent ∈ options.keys, zone parent

theorem Tidy.closed {now : Instant} (h : s.Tidy A now) (hzone : Confined A zone) :
    s.cache.Closed zone := by
  intro key parent hkey hdep
  obtain ⟨slot, hget⟩ := Option.isSome_iff_exists.1 (h.linked.toConsistent.stored_of_dependsOn hdep)
  exact hzone key slot.value slot.options (h.stored key slot hget) hkey parent
    ((h.linked.recorded key slot hget parent).1 hdep)

theorem Tidy.of_thinned {now : Instant} (h : s.Tidy A now) {c : Cache V C} {scene : Scene W}
    (hthin : s.cache.Thinned c) (hwatchful : c.Watchful now scene.signals) :
    (⟨c, scene⟩ : Session V C W).Tidy A now where
  toHolds := h.toHolds.thin hthin (List.forall_mem_nil _)
  watchful := hwatchful
  silent key slot hget := by
    obtain ⟨old, hold, -, hoptions⟩ := hthin.kept key slot hget
    rw [hoptions]
    exact h.silent key old hold

variable (mark zone) in
/-- Before it looks, a read may purge. Then all that is stored is live. -/
theorem Tidy.maintain (h : s.Tidy A m.now) : (s.maintain m).Tidy A m.now ∧
    s.Unmoved (s.maintain m) ∧
    (∀ key slot, (s.maintain m).cache.entries.get? key = some slot →
      slot.isLive (s.maintain m).cache.epoch m.now (s.maintain m).scene.signals = true) ∧
    (s.maintain m).outlook m.now mark zone = s.outlook m.now mark zone := by
  unfold Session.maintain
  cases hdue : s.cache.mayBeDue m.now s.scene.signals with
  | false => exact ⟨h, ⟨rfl, rfl, rfl, rfl⟩,
      fun _ _ hget => h.watchful.isLive_of_not_mayBeDue hdue hget, rfl⟩
  | true =>
    have hloses := Cache.loses_evictEach h.linked
      (s.cache.doomed m.now (s.scene.signals.lower s.cache.flag))
    have hpurge : (purge m s).2 = ⟨(s.swept m).cache, countOff (s.swept m).scene
        (s.cache.sweep m.now (s.scene.signals.lower s.cache.flag)).2⟩ :=
      consultAll_silent (m := m) (s := s.swept m) (h.silent.evicted hloses.was_stored)
    have hsignals := (purge_silent (m := m) h.silent h.linked).2
    rw [if_pos rfl, hpurge]
    refine ⟨h.of_thinned (.sweep h.linked m.now _) ?_, ⟨hloses.epoch, ?_, ?_, ?_⟩, ?_, ?_⟩
    · rw [signals_countOff]
      exact h.watchful.sweep h.linked
    · exact world_countOff ..
    · rw [signals_countOff]
      rfl
    · rw [signals_countOff]
      rfl
    · intro key slot hget
      rw [signals_countOff]
      exact (congrArg (slot.isLive · m.now _) hloses.epoch).trans
        (Cache.isLive_of_sweep h.linked m.now _ hget)
    · unfold outlook
      rw [signals_countOff]
      exact Cache.outlook_sweep h.linked

variable (mark zone) in
/-- **A read** answers with what is seen under the key, which counts as read. -/
theorem Tidy.get (h : s.Tidy A m.now) (key : String) : (Session.get m key s).2.Tidy A m.now ∧
    s.Unmoved (Session.get m key s).2 ∧
    ((Session.get m key s).2.outlook m.now mark zone =
      (s.outlook m.now mark zone).touch key (s.cache.millis m.now)) ∧
    (zone key → ∀ value, (Session.get m key s).1 = some value ↔
      ∃ seen, s.outlook m.now mark zone key seen ∧ seen.value = value) := by
  obtain ⟨htidy, hunmoved, hlive, houtlook⟩ := h.maintain mark zone
  have hmillis : s.cache.millis m.now = (s.maintain m).cache.millis m.now := by
    unfold Cache.millis
    rw [hunmoved.epoch]
  rw [get_eq_look, ← houtlook, hmillis]
  generalize s.maintain m = t at *
  unfold look
  cases hget : t.cache.entries.get? key with
  | none =>
    have hunseen : ∀ seen, ¬t.outlook m.now mark zone key seen := by
      rintro seen ⟨-, -, slot, hstored, -⟩
      cases hget.symm.trans hstored
    refine ⟨⟨htidy.toHolds, htidy.watchful, htidy.silent⟩, hunmoved.trans ⟨rfl, rfl, rfl, rfl⟩, ?_,
      fun _ value => ⟨nofun, fun ⟨seen, hseen, _⟩ => absurd hseen (hunseen seen)⟩⟩
    change t.outlook m.now mark zone = _
    exact (Outlook.touch_of_not hunseen _).symm
  | some slot =>
    simp only [hlive key slot hget, if_true]
    have hsturdy : t.cache.Sturdy m.now t.scene.signals key :=
      htidy.linked.sturdy_of_isLive hlive (by rw [hget]; rfl)
    refine ⟨htidy.of_thinned (.touch htidy.linked m.now key) (htidy.watchful.touch key),
      hunmoved.trans ⟨rfl, rfl, rfl, rfl⟩, ?_, fun hzone value => ?_⟩
    · refine Cache.outlook_touch fun slot' hslot' => ?_
      exact ⟨hlive key slot' hslot', htidy.watchful.touched key slot' hslot'⟩
    · constructor
      · intro heq
        cases heq
        exact ⟨_, Cache.outlook_of_get? hget hzone hsturdy, rfl⟩
      · rintro ⟨_, ⟨-, -, slot', hslot', rfl⟩, rfl⟩
        cases hget.symm.trans hslot'
        rfl

theorem fired_foldl_subscribe (signals : Signals) (tokens : List Token) (f : Flag) :
    (tokens.foldl (fun s t => s.subscribe t f) signals).fired = signals.fired ∧
      (tokens.foldl (fun s t => s.subscribe t f) signals).issued = signals.issued := by
  induction tokens generalizing signals with
  | nil => exact ⟨rfl, rfl⟩
  | cons t tokens ih =>
    have hone : (signals.subscribe t f).fired = signals.fired ∧
        (signals.subscribe t f).issued = signals.issued := by
      unfold Signals.subscribe Signals.raise
      split
      · split <;> exact ⟨rfl, rfl⟩
      · split <;> exact ⟨rfl, rfl⟩
    exact ⟨(ih _).1.trans hone.1, (ih _).2.trans hone.2⟩

/-- To place an entry is to subscribe to its tokens at most. -/
theorem fired_place (c : Cache V C) (now : Instant) (signals : Signals) (key : String) (value : V)
    (options : Options C) :
    (c.place now signals key value options).signals.fired = signals.fired ∧
      (c.place now signals key value options).signals.issued = signals.issued := by
  unfold Cache.place
  simp only
  split
  · exact ⟨rfl, rfl⟩
  · exact fired_foldl_subscribe ..

/-- An insertion where no entry has a hook. -/
theorem insert_silent (h : Silent s.cache) (hlinked : s.cache.Linked) (key : String) (value : V)
    (options : Options C) :
    let p := s.cache.place m.now s.scene.signals key value options
    (Session.insert m key value options s).2 =
      ⟨p.cache, countOff (s.commit key p).scene p.evicted⟩ :=
  consultAll_silent (h.evicted fun e he =>
    (Cache.was_stored_of_place hlinked key m.now s.scene.signals value options e he).1)

/-- Subscriptions cannot be seen. -/
theorem Tidy.outlook_of_fired {now : Instant} (h : s.Tidy A now) (hzone : Confined A zone)
    {signals : Signals} (hfired : signals.fired = s.scene.signals.fired) :
    s.cache.outlook now signals mark zone = s.outlook now mark zone := by
  refine Cache.outlook_congr h.linked (h.closed hzone) (fun key slot _ _ => ?_) fun _ _ _ _ _ => rfl
  unfold Slot.isLive Slot.hasFired Signals.hasFired
  rw [hfired]

variable (mark zone) in
/-- **An insertion** of an entry without a hook whose tokens have not fired. -/
theorem Tidy.insert (h : s.Tidy A m.now) {value : V} {options : Options C}
    (hnew : A key value options) (hhook : options.hook = none)
    (hfired : ∀ t ∈ options.tokens, s.scene.signals.hasFired t = false) :
    let s' := (Session.insert m key value options s).2
    s'.Tidy A m.now ∧ s.Unmoved s' ∧
    (Confined A zone → zone key → s'.outlook m.now mark zone =
      ((s.outlook m.now mark zone).drop key).put key
        (Slot.sight mark ⟨value, options, s.cache.millis m.now⟩) s.cache.epoch m.now) ∧
    (Confined A zone → ¬zone key → s'.outlook m.now mark zone = s.outlook m.now mark zone) := by
  intro s'
  let p := s.cache.place m.now s.scene.signals key value options
  have hs' : s' = ⟨p.cache, countOff (s.commit key p).scene p.evicted⟩ :=
    insert_silent h.silent h.linked key value options
  have hsignals : s'.scene.signals = p.signals := by rw [hs', signals_countOff, signals_commit]
  have hplace := fired_place s.cache m.now s.scene.signals key value options
  have hunmoved : s.Unmoved s' := by
    refine ⟨?_, ?_, ?_, ?_⟩
    · rw [hs']
      exact Cache.epoch_place h.linked key m.now s.scene.signals value options
    · rw [hs', world_countOff, world_commit]
    · exact (congrArg Signals.issued hsignals).trans hplace.2
    · exact (congrArg Signals.fired hsignals).trans hplace.1
  have htidy : s'.Tidy A m.now := by
    have hholds := h.toHolds.place m.now s.scene.signals hnew
    refine ⟨⟨?_, ?_, nofun⟩, ?_, ?_⟩
    · rw [hs']
      exact hholds.linked
    · rw [hs']
      exact hholds.stored
    · rw [hsignals, hs']
      exact h.watchful.place h.linked key value options
    · intro other slot hget
      rw [hs'] at hget
      rcases Cache.get?_place h.linked key m.now s.scene.signals value options hget with
        ⟨-, rfl, -, -⟩ | ⟨-, hold⟩
      · exact hhook
      · exact h.silent other slot hold
  have houtlook : Confined A zone → s'.outlook m.now mark zone =
      p.cache.outlook m.now s.scene.signals mark zone := by
    intro hzone
    rw [← htidy.outlook_of_fired hzone hunmoved.fired.symm, hs']
  refine ⟨htidy, hunmoved, fun hzone hkey => ?_, fun hzone hkey => ?_⟩
  · exact (houtlook hzone).trans (Cache.outlook_place h.linked (h.closed hzone) hkey
      (hzone key value options hnew hkey) hfired)
  · exact (houtlook hzone).trans (Cache.outlook_place_of_not h.linked (h.closed hzone) hkey)

variable (mark zone) in
/-- **A removal**. -/
theorem Tidy.remove (h : s.Tidy A m.now) (key : String) :
    let s' := (Session.remove m key s).2
    s'.Tidy A m.now ∧ s.Unmoved s' ∧
    (Confined A zone → s'.outlook m.now mark zone = (s.outlook m.now mark zone).drop key) := by
  unfold Session.remove
  cases hd : s.cache.detach key with
  | none =>
    exact ⟨h, ⟨rfl, rfl, rfl, rfl⟩, fun hzone => (Cache.drop_outlook_of_none h.linked
      (h.closed hzone) (Cache.detach_eq_none hd)).symm⟩
  | some d =>
    have hloses := Cache.loses_detach h.linked.toConsistent hd .expired
    have hevicted : ∀ e ∈ d.evicted, e.slot.options.hook = none :=
      h.silent.evicted fun e he => hloses.was_stored e (List.mem_cons_of_mem _ he)
    simp only [consultAll_silent hevicted]
    refine ⟨h.of_thinned (.detach h.linked hd) ?_, ⟨hloses.epoch, world_countOff .., ?_, ?_⟩,
      fun hzone => ?_⟩
    · rw [signals_countOff]
      exact h.watchful.of_loses hloses
    · rw [signals_countOff]
      rfl
    · rw [signals_countOff]
      rfl
    · unfold outlook
      simp only [signals_countOff]
      exact Cache.outlook_detach h.linked (h.closed hzone) hd

end Session

end Templating
