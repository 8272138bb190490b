import Templating.Proofs.Cache.Watchful

/-!
# Reads that skip the purge

`Hooks` may do anything to the scene, except that they cannot lower a flag; only purges do this.
With such hooks every cache of a run is watchful at every moment, and so a read is the same as one
that purges in any case.
-/

namespace Templating

/-- Hooks that leave the flags of caches up. They may fire and issue tokens. -/
structure Hooks (V C W : Type) where
  decide : Decisions V C W
  orderly : ∀ now hook key value reason (scene : Scene W),
    scene.signals.Leads (decide now hook key value reason scene).2.signals

namespace Session

variable {V C W : Type}

/-- A read that purges first in any case. -/
def getAfterPurge (m : Moment V C W) (key : String) : Work V C W (Option V) := fun s =>
  look m key (purge m s).2

/-! ## What a session keeps -/

/-- The cache of the session is linked and watchful, its flag is `f`, and other flags are told of
all they were told of in the signals `before`. -/
structure Guards (f : Flag) (now : Instant) (before : Signals) (s : Session V C W) : Prop where
  flag : s.cache.flag = f
  linked : s.cache.Linked
  watchful : s.cache.Watchful now s.scene.signals
  others : ∀ t g, g ≠ f → before.Tells t g → s.scene.signals.Tells t g

theorem signals_commit (s : Session V C W) (key : String) (p : Cache.Placed V C) :
    (s.commit key p).scene.signals = p.signals := by
  unfold commit Scene.noteIf
  split <;> split <;> rfl

theorem flag_cleared {c : Cache V C} (h : c.Linked) (key : String) :
    (c.cleared key).1.flag = c.flag := by
  cases hd : c.detach key with
  | none => rw [Cache.cleared_of_none hd]
  | some d =>
    rw [Cache.cleared_of_some hd]
    exact (Cache.loses_detach h.toConsistent hd .expired).flag

namespace Guards

variable {f : Flag} {now : Instant} {before : Signals} {s : Session V C W}

theorem place (h : s.Guards f now before) (key : String) (value : V) (options : Options C) :
    (s.commit key (s.cache.place now s.scene.signals key value options)).Guards f now before := by
  refine ⟨?_, h.linked.place key now s.scene.signals value options, ?_, ?_⟩
  · change (s.cache.place now s.scene.signals key value options).cache.flag = f
    rw [← h.flag, ← flag_cleared h.linked key]
    unfold Cache.place
    simp only
    split <;> rfl
  · rw [signals_commit]
    exact h.watchful.place h.linked key value options
  · intro t g hne ht
    rw [signals_commit]
    unfold Cache.place
    simp only
    split
    · exact h.others t g hne ht
    · exact (h.others t g hne ht).foldl_subscribe options.tokens _

theorem sweep (h : s.Guards f now before) {decide} :
    (s.swept ⟨now, decide⟩).Guards f now before where
  flag := (Cache.loses_evictEach h.linked _).flag.trans h.flag
  linked := h.linked.sweep now _
  watchful := h.watchful.sweep h.linked
  others t g hne ht := (h.others t g hne ht).lower_of_ne (by rwa [h.flag])

end Guards

/-- What guards a cache is kept by every operation with orderly hooks. -/
theorem kept_guards (hooks : Hooks V C W) (f : Flag) (now : Instant) (before : Signals) :
    Session.Kept ⟨now, hooks.decide now⟩ (Guards (V := V) (C := C) (W := W) f now before) where
  note _ _ h := ⟨h.flag, h.linked, h.watchful, h.others⟩
  decide s hook key value reason h :=
    have hleads := hooks.orderly now hook key value reason s.scene
    ⟨h.flag, h.linked, h.watchful.later (Nat.le_refl now) fun _ => hleads.tells,
      fun t g hne ht => hleads.tells (h.others t g hne ht)⟩
  place _ key value options h := h.place key value options
  detach _ _ _ h hd :=
    have hloses := Cache.loses_detach h.linked.toConsistent hd .expired
    ⟨hloses.flag.trans h.flag, h.linked.detach hd, h.watchful.of_loses hloses, h.others⟩
  sweep _ h := h.sweep
  touch _ key h := ⟨h.flag, h.linked.touch now key, h.watchful.touch key, h.others⟩
  dropAll s h := ⟨h.flag, .dropAll s.cache, .dropAll s.cache now s.scene.signals, h.others⟩

/-! ## Reads -/

variable {m : Moment V C W} {s : Session V C W}

theorem lower_of_not_raised {signals : Signals} {f : Flag} (h : signals.isRaised f = false) :
    signals.lower f = signals := by
  have hall : signals.raised.filter (· != f) = signals.raised := by
    apply List.filter_eq_self.2
    intro g hg
    have : f ∉ signals.raised := by simpa [Signals.isRaised] using h
    simp only [bne_iff_ne]
    rintro rfl
    exact this hg
  unfold Signals.lower
  rw [hall]

/-- A purge that a read would skip changes nothing but the hint. -/
theorem purge_of_not_mayBeDue (hw : s.cache.Watchful m.now s.scene.signals)
    (hc : s.cache.Linked) (hdue : s.cache.mayBeDue m.now s.scene.signals = false) :
    (purge m s).2 = { s with cache.hint := s.cache.nextDeadline.map s.cache.hintFor } := by
  have hlower : s.scene.signals.lower s.cache.flag = s.scene.signals :=
    lower_of_not_raised (Bool.or_eq_false_iff.1 hdue).2
  have hdoomed : s.cache.doomed m.now s.scene.signals = [] := by
    apply List.eq_nil_iff_forall_not_mem.2
    rintro ⟨key, reason⟩ hmem
    obtain ⟨slot, hget, hdoom⟩ := (Cache.mem_doomed hc.distinct).1 hmem
    rw [Cache.doom?_eq_none.2 (hw.isLive_of_not_mayBeDue hdue hget)] at hdoom
    cases hdoom
  simp [purge, hlower, Cache.sweep, hdoomed, Cache.evictEach, consultAll]

/-- The second half of a read does not heed the hint where every stored entry is live. -/
theorem look_hint (hlive : ∀ key slot, s.cache.entries.get? key = some slot →
      slot.isLive s.cache.epoch m.now s.scene.signals = true) (key : String) (hint : Option Nat) :
    look m key { s with cache.hint := hint } =
      ((look m key s).1, { (look m key s).2 with cache.hint := hint }) := by
  unfold look
  cases hget : s.cache.entries.get? key with
  | none => rfl
  | some slot =>
    simp only [hlive key slot hget, if_true]
    rfl

end Session

namespace Commons

variable {ι V C W : Type}

/-- Every cache has its flag and is linked and watchful. -/
structure Watched (flags : ι ↪ Flag) (σ : Commons ι V C W) : Prop where
  flag : ∀ i, (σ.caches i).flag = flags i
  linked : ∀ i, (σ.caches i).Linked
  watchful : ∀ i, (σ.caches i).Watchful σ.now σ.scene.signals

namespace Watched

variable {flags : ι ↪ Flag} {σ : Commons ι V C W}

theorem guards (h : σ.Watched flags) (i : ι) :
    (σ.session i).Guards (flags i) σ.now σ.scene.signals :=
  ⟨h.flag i, h.linked i, h.watchful i, fun _ _ _ ht => ht⟩

/-- Changes of the signals that lower no flag are seen by all. -/
theorem later (h : σ.Watched flags) {now : Instant} (hle : σ.now ≤ now) {scene : Scene W}
    (hleads : σ.scene.signals.Leads scene.signals) :
    ({ σ with now, scene } : Commons ι V C W).Watched flags where
  flag := h.flag
  linked := h.linked
  watchful i := (h.watchful i).later hle fun _ => hleads.tells

variable [DecidableEq ι]

/-- The other caches watch on while one of them works, since its flag is not theirs. -/
theorem after (h : σ.Watched flags) {i : ι} {s : Session V C W}
    (hs : s.Guards (flags i) σ.now σ.scene.signals) : (σ.after i s).Watched flags where
  flag := forall_after (P := fun j c => c.flag = flags j) hs.flag fun j _ => h.flag j
  linked := forall_after (P := fun _ c => c.Linked) hs.linked fun j _ => h.linked j
  watchful := forall_after (P := fun _ c => c.Watchful σ.now s.scene.signals) hs.watchful
    fun j hj => (h.watchful j).later (Nat.le_refl _) fun t ht =>
      hs.others t _ (fun heq => hj (flags.injective ((h.flag j).symm.trans heq))) ht

theorem step (h : σ.Watched flags) (hooks : Hooks V C W) (move : Move ι V C W) :
    (σ.step hooks.decide move).Watched flags := by
  have k := fun i => Session.kept_guards hooks (flags i) σ.now σ.scene.signals
  cases move with
  | perform i r => exact h.after ((k i).perform (h.guards i) r)
  | begin i r =>
    have hafter := h.after ((k i).begin (h.guards i) r)
    exact ⟨hafter.flag, hafter.linked, hafter.watchful⟩
  | attend =>
    simp only [Commons.step]
    split
    · exact h
    · next i task tasks _ =>
      have hafter := h.after ((k i).attend (h.guards i) task)
      exact ⟨hafter.flag, hafter.linked, hafter.watchful⟩
  | fire t => exact h.later (Nat.le_refl _) (.fire t (.refl _))
  | issueToken => exact h.later (Nat.le_refl _) (.issueToken (.refl _))
  | advance d => exact h.later (Nat.le_add_right σ.now d) (.refl _)
  | change world => exact h.later (Nat.le_refl _) (.refl _)

end Watched

variable [DecidableEq ι]

theorem watched_run (hooks : Hooks V C W) (flags : ι ↪ Flag) (epochs : ι → Instant)
    (now : Instant) (scene : Scene W) (moves : List (Move ι V C W)) :
    ((start flags epochs now scene).run hooks.decide moves).Watched flags :=
  run_induction (fun _ move h => h.step hooks move)
    ⟨fun _ => rfl, fun i => .dropAll { epoch := epochs i, flag := flags i },
      fun i => .dropAll { epoch := epochs i, flag := flags i } now scene.signals⟩ moves

/-- **A read may skip the purge**: whatever has happened to caches that share their signals, a read
of any of them answers the same as one that purges first, leaves the same entries, and leaves the
same scene, with the same hooks asked. For when it skips the purge, no stored entry is expired, and
none holds a token that has fired. -/
theorem get_eq_getAfterPurge (hooks : Hooks V C W) (flags : ι ↪ Flag) (epochs : ι → Instant)
    (now : Instant) (scene : Scene W) (moves : List (Move ι V C W)) (i : ι) (key : String) :
    let σ := (start flags epochs now scene).run hooks.decide moves
    let m := σ.moment hooks.decide
    let s := σ.session i
    (Session.get m key s).1 = (Session.getAfterPurge m key s).1 ∧
      (Session.get m key s).2.cache.entries = (Session.getAfterPurge m key s).2.cache.entries ∧
      (Session.get m key s).2.cache.index = (Session.getAfterPurge m key s).2.cache.index ∧
      (Session.get m key s).2.scene = (Session.getAfterPurge m key s).2.scene ∧
      (s.cache.mayBeDue σ.now s.scene.signals = true ∨
        ∀ key slot, s.cache.entries.get? key = some slot →
          slot.isExpired s.cache.epoch σ.now = false ∧ slot.hasFired s.scene.signals = false) := by
  intro σ m s
  have hwatched := watched_run hooks flags epochs now scene moves
  have hlinked : s.cache.Linked := hwatched.linked i
  have hwatchful : s.cache.Watchful m.now s.scene.signals := hwatched.watchful i
  rw [Session.get_eq_look]
  unfold Session.getAfterPurge Session.maintain
  cases hdue : s.cache.mayBeDue m.now s.scene.signals with
  | true => exact ⟨rfl, rfl, rfl, rfl, .inl hdue⟩
  | false =>
    have hlive : ∀ key slot, s.cache.entries.get? key = some slot →
        slot.isLive s.cache.epoch m.now s.scene.signals = true :=
      fun _ _ hget => hwatchful.isLive_of_not_mayBeDue hdue hget
    rw [Session.purge_of_not_mayBeDue hwatchful hlinked hdue, Session.look_hint hlive]
    refine ⟨rfl, rfl, rfl, rfl, .inr ?_⟩
    intro key slot hget
    obtain ⟨hexpired, hfired⟩ := Bool.and_eq_true_iff.1 (hlive key slot hget)
    exact ⟨(Bool.not_eq_true' _).mp hexpired, (Bool.not_eq_true' _).mp hfired⟩

end Commons

end Templating
