import Templating.Proofs.Cache.Asking
import Templating.Proofs.Cache.Reads

/-!
# Reads are never stale

Two things make up a read that is not stale. The value is the one that was last put under the key,
by a request or by a hook: the **log** of a run has all that was put in, and every stored entry has
the value that the log has for its key (`Cache.Logged`). And nothing that the entry was built on is
over: a read is answered from what its upkeep leaves (`Session.maintain`), and every entry that this
leaves is live, unless a hook puts one back that is expired at once (`Session.live_maintain`).
-/

namespace Templating

open Relation

/-! ## The log -/

/-- Every stored entry has the value that was last put in under its key. The log has the last
first. -/
def Cache.Logged {V C : Type} (c : Cache V C) (log : List (String × V)) : Prop :=
  ∀ key slot, c.entries.get? key = some slot → log.lookup key = some slot.value

namespace Cache.Logged

variable {V C : Type} {c : Cache V C} {log : List (String × V)}

theorem of_kept (h : c.Logged log) {rest : Cache V C}
    (hkept : ∀ key slot, rest.entries.get? key = some slot → c.entries.get? key = some slot) :
    rest.Logged log :=
  fun key slot hget => h key slot (hkept key slot hget)

theorem place (h : c.Logged log) (hc : c.Linked) (now : Instant) (signals : Signals) (key : String)
    (value : V) (options : Options C) :
    (c.place now signals key value options).cache.Logged
      ((if (c.place now signals key value options).stored then [(key, value)] else []) ++ log) := by
  intro other slot hget
  rcases get?_place hc key now signals value options hget with ⟨rfl, rfl, hstored, -⟩ | ⟨hne, hold⟩
  · rw [if_pos hstored]
    exact List.lookup_cons_self
  · have hlog := h other slot hold
    split
    · rw [List.singleton_append, lookup_cons_key, if_neg hne]
      exact hlog
    · exact hlog

theorem touch (h : c.Logged log) (now : Instant) (key : String) : (c.touch now key).Logged log := by
  intro other slot hget
  obtain ⟨old, hold, hvalue, -, -⟩ := get?_of_get?_touch hget
  rw [hvalue]
  exact h other old hold

end Cache.Logged

namespace Session

variable {V C W : Type}

/-- What a step puts in. -/
def Step.log (m : Moment V C W) (step : Step V C W) : List (String × V) :=
  match step.task with
  | .remove _ => []
  | .consult e =>
    match step.session.reinsertion? m e with
    | none => []
    | some (value, options) =>
      if (step.session.cache.place m.now (step.session.answered m e).signals e.key value
        options).stored then [(e.key, value)] else []

/-- What steps put in, last first. -/
def log (m : Moment V C W) : List (Step V C W) → List (String × V)
  | [] => []
  | step :: steps => log m steps ++ step.log m

theorem log_append (m : Moment V C W) (steps steps' : List (Step V C W)) :
    log m (steps ++ steps') = log m steps' ++ log m steps := by
  induction steps with
  | nil => exact (List.append_nil _).symm
  | cons step steps ih => rw [List.cons_append, log, log, ih, List.append_assoc]

/-! ## The log of a request -/

/-- The steps of what a read does first. -/
def upkeep (m : Moment V C W) (s : Session V C W) : List (Step V C W) :=
  if s.cache.mayBeDue m.now s.scene.signals then Cache.Request.purge.steps m s else []

/-- The steps of the second half of a read, which purges when the entry that it finds is over. -/
def lookSteps (m : Moment V C W) (key : String) (s : Session V C W) : List (Step V C W) :=
  match s.cache.entries.get? key with
  | none => []
  | some slot =>
    if slot.isLive s.cache.epoch m.now s.scene.signals then [] else Cache.Request.purge.steps m s

end Session

namespace Cache.Request

variable {V C W : Type}

/-- What a request puts in by itself, before any hook is asked. -/
def ownLog (m : Moment V C W) (s : Session V C W) : Cache.Request V C → List (String × V)
  | insert key value options =>
    if (s.cache.place m.now s.scene.signals key value options).stored then [(key, value)] else []
  | insertIfAbsent key value options =>
    if s.contains m key then []
    else if (s.cache.place m.now s.scene.signals key value options).stored then [(key, value)]
    else []
  | get _ | look _ | remove _ | purge | clear => []

/-- All steps of a request that is done as a whole. -/
def allSteps (m : Moment V C W) (s : Session V C W) :
    Cache.Request V C → List (Session.Step V C W)
  | get key => s.upkeep m ++ (s.maintain m).lookSteps m key
  | look key => s.lookSteps m key
  | r => r.steps m s

theorem allSteps_eq (m : Moment V C W) (s : Session V C W) {r : Cache.Request V C}
    (hget : ∀ key, r ≠ .get key) (hlook : ∀ key, r ≠ .look key) :
    r.allSteps m s = r.steps m s := by
  cases r with
  | get key => exact absurd rfl (hget key)
  | look key => exact absurd rfl (hlook key)
  | insert | insertIfAbsent | remove | purge | clear => rfl

/-- What a request that is done as a whole puts in, last first. -/
def log (m : Moment V C W) (s : Session V C W) (r : Cache.Request V C) : List (String × V) :=
  Session.log m (r.allSteps m s) ++ r.ownLog m s

end Cache.Request

/-- A property of a cache and of what was put in so far, last first, that is kept by all that
happens to a cache, but for the marks that reads leave. -/
structure Cache.Recorded {V C : Type} (now : Instant)
    (P : Cache V C → List (String × V) → Prop) : Prop where
  place : ∀ c log signals key value options, P c log →
    P (c.place now signals key value options).cache
      ((if (c.place now signals key value options).stored then [(key, value)] else []) ++ log)
  detach : ∀ c log key d, P c log → c.detach key = some d → P d.cache log
  sweep : ∀ c log signals, P c log → P (c.sweep now signals).1 log
  dropAll : ∀ c log, P c log → P c.dropAll log

namespace Cache.Recorded

variable {V C W : Type} {m : Moment V C W} {P : Cache V C → List (String × V) → Prop}
  (k : Cache.Recorded m.now P) {s : Session V C W} {old : List (String × V)}

include k

theorem attend (h : P s.cache old) (task : Session.Task V C) :
    P (s.attend m task).1.cache (Session.Step.log m ⟨s, task⟩ ++ old) := by
  cases task with
  | consult e =>
    simp only [Session.Step.log]
    cases hr : s.reinsertion? m e with
    | none =>
      obtain ⟨also, hattend⟩ := Session.attend_of_no_reinsertion hr
      rw [hattend]
      exact h
    | some p =>
      obtain ⟨value, options⟩ := p
      rw [Session.attend_of_reinsertion hr]
      exact k.place _ _ _ e.key value options h
  | remove key =>
    cases hd : s.cache.detach key with
    | none =>
      rw [Session.attend_absent hd]
      exact h
    | some d =>
      rw [Session.attend_stored hd]
      exact k.detach _ _ key d h hd

theorem settle {tasks : List (Session.Task V C)} (h : P s.cache old) :
    P (s.settle m tasks).cache (Session.log m (s.steps m tasks) ++ old) := by
  fun_induction Session.steps m s tasks generalizing old with
  | case1 s =>
    rw [Session.settle_nil]
    exact h
  | case2 s task tasks ih =>
    rw [Session.settle_cons, Session.log, List.append_assoc]
    exact ih (k.attend h task)

theorem begin (h : P s.cache old) (r : Cache.Request V C) :
    P (r.begin m s).1.cache (r.ownLog m s ++ old) := by
  cases r with
  | insert key value options => exact k.place _ _ _ key value options h
  | insertIfAbsent key value options =>
    simp only [Cache.Request.begin, Cache.Request.ownLog]
    split
    · exact h
    · exact k.place _ _ _ key value options h
  | get | look | purge => exact k.sweep _ _ _ h
  | remove key =>
    simp only [Cache.Request.begin]
    cases hd : s.cache.detach key with
    | none => exact h
    | some d => exact k.detach _ _ key d h hd
  | clear => exact k.dropAll _ _ h

theorem purge (h : P s.cache old) :
    P (Session.purge m s).2.cache (Session.log m (Cache.Request.purge.steps m s) ++ old) :=
  k.settle (k.begin h .purge)

theorem maintain (h : P s.cache old) :
    P (s.maintain m).cache (Session.log m (s.upkeep m) ++ old) := by
  unfold Session.maintain Session.upkeep
  split
  · exact k.purge h
  · exact h

/-- A request other than a read records what it puts in, also what its hooks put back. -/
theorem perform (h : P s.cache old) {r : Cache.Request V C} (hget : ∀ key, r ≠ .get key)
    (hlook : ∀ key, r ≠ .look key) : P (r.perform m s).cache (r.log m s ++ old) := by
  rw [Cache.Request.perform_eq_settle m s hget hlook, Cache.Request.log,
    Cache.Request.allSteps_eq m s hget hlook, List.append_assoc]
  exact k.settle (k.begin h r)

end Cache.Recorded

/-! ## Every entry has the value that was last put in -/

theorem Cache.recorded_logged {V C : Type} (now : Instant) :
    Cache.Recorded now fun (c : Cache V C) log => c.Linked ∧ c.Logged log where
  place _ _ signals key value options h :=
    ⟨h.1.place key now signals value options, h.2.place h.1 now signals key value options⟩
  detach _ _ _ _ h hd :=
    ⟨h.1.detach hd, h.2.of_kept (Cache.loses_detach h.1.toConsistent hd .expired).kept⟩
  sweep _ _ signals h :=
    ⟨h.1.sweep now signals, h.2.of_kept fun _ _ => Cache.kept_of_sweep h.1 now signals⟩
  dropAll c _ _ := ⟨.dropAll c, fun _ _ hget => nomatch hget⟩

namespace Session

variable {V C W : Type} (m : Moment V C W) {s : Session V C W} {old : List (String × V)}

theorem logged_maintain (h : s.cache.Logged old) (hc : s.cache.Linked) :
    (s.maintain m).cache.Logged (log m (s.upkeep m) ++ old) :=
  ((Cache.recorded_logged m.now).maintain ⟨hc, h⟩).2

theorem logged_look (h : s.cache.Logged old) (hc : s.cache.Linked) (key : String) :
    (look m key s).2.cache.Logged (log m (s.lookSteps m key) ++ old) := by
  unfold look lookSteps
  cases s.cache.entries.get? key with
  | none => exact h
  | some slot =>
    simp only
    split
    · exact h.touch m.now key
    · exact ((Cache.recorded_logged m.now).purge ⟨hc, h⟩).2

/-- **A request logs what it puts in**, also what its hooks put back. -/
theorem logged_perform (h : s.cache.Logged old) (hc : s.cache.Linked) (r : Cache.Request V C) :
    (r.perform m s).cache.Logged (r.log m s ++ old) := by
  have hother (hget : ∀ key, r ≠ .get key) (hlook : ∀ key, r ≠ .look key) :=
    ((Cache.recorded_logged m.now).perform ⟨hc, h⟩ hget hlook).2
  cases r with
  | get key =>
    simp only [Cache.Request.log, Cache.Request.allSteps, Cache.Request.perform, get_eq_look]
    rw [log_append, List.append_assoc, List.append_assoc]
    exact logged_look m (logged_maintain m h hc) ((kept_linked m).maintain hc) key
  | look key =>
    simp only [Cache.Request.log, List.append_assoc]
    exact logged_look m h hc key
  | insert | insertIfAbsent | remove | purge | clear => exact hother (by simp) (by simp)

end Session

namespace Commons

variable {ι V C W : Type} [DecidableEq ι]

/-- What a move puts into one of the caches, last first. -/
def moveLog (decide : Decisions V C W) (i : ι) (σ : Commons ι V C W) :
    Move ι V C W → List (String × V)
  | .perform j r => if j = i then r.log (σ.moment decide) (σ.session j) else []
  | .begin j r => if j = i then r.ownLog (σ.moment decide) (σ.session j) else []
  | .attend =>
    match σ.tasks with
    | [] => []
    | (j, task) :: _ =>
      if j = i then Session.Step.log (σ.moment decide) ⟨σ.session j, task⟩ else []
  | .fire _ | .issueToken | .advance _ | .change _ => []

/-- What a run puts into one of the caches, last first. -/
def log (decide : Decisions V C W) (i : ι) (σ : Commons ι V C W) :
    List (Move ι V C W) → List (String × V)
  | [] => []
  | move :: moves => log decide i (σ.step decide move) moves ++ σ.moveLog decide i move

theorem logged_step (decide : Decisions V C W) (i : ι) {σ : Commons ι V C W}
    {old : List (String × V)} (h : (σ.caches i).Logged old) (hc : ∀ j, (σ.caches j).Linked)
    (move : Move ι V C W) :
    ((σ.step decide move).caches i).Logged (σ.moveLog decide i move ++ old) := by
  -- Only the cache that a move is about changes.
  have hafter : ∀ (j : ι) (s : Session V C W) (new : List (String × V)),
      (j = i → s.cache.Logged (new ++ old)) →
      ((σ.after j s).caches i).Logged ((if j = i then new else []) ++ old) := by
    intro j s new hs
    rw [caches_after]
    by_cases hj : j = i
    · rw [if_pos hj.symm, if_pos hj]
      exact hs hj
    · rw [if_neg (Ne.symm hj), if_neg hj]
      exact h
  cases move with
  | perform j r =>
    exact hafter j _ _ fun hj => Session.logged_perform _ (by subst hj; exact h) (hc j) r
  | begin j r =>
    exact hafter j _ _ fun hj =>
      ((Cache.recorded_logged _).begin (s := σ.session j) ⟨hc j, by subst hj; exact h⟩ r).2
  | attend =>
    simp only [step, moveLog]
    cases σ.tasks with
    | nil => exact h
    | cons first tasks =>
      obtain ⟨j, task⟩ := first
      exact hafter j _ _ fun hj =>
        ((Cache.recorded_logged _).attend (s := σ.session j) ⟨hc j, by subst hj; exact h⟩ task).2
  | fire | issueToken | advance | change => exact h

theorem logged_run (decide : Decisions V C W) (i : ι) {σ : Commons ι V C W}
    {old : List (String × V)} (h : (σ.caches i).Logged old) (hc : ∀ j, (σ.caches j).Linked)
    (moves : List (Move ι V C W)) :
    ((σ.run decide moves).caches i).Logged (σ.log decide i moves ++ old) := by
  induction moves generalizing σ old with
  | nil => exact h
  | cons move moves ih =>
    rw [log, List.append_assoc]
    exact ih (logged_step decide i h hc move) (linked_step decide σ move hc)

end Commons

/-! ## What an upkeep leaves is live -/

namespace Session

variable {V C W : Type}

/-- No entry is put back that is expired at once. -/
def Step.PutsBackFresh (m : Moment V C W) (step : Step V C W) : Prop :=
  ∀ e value options, step.task = .consult e →
    step.session.reinsertion? m e = some (value, options) →
      (Slot.mk value options (step.session.cache.millis m.now)).isExpired step.session.cache.epoch
        m.now = false

/-- The cache is linked, and no stored entry is expired or holds a token that had fired in the
signals `before`. What had fired then is not forgotten. -/
structure Live (now : Instant) (before : Signals) (s : Session V C W) : Prop where
  linked : s.cache.Linked
  remembered : ∀ t, before.hasFired t = true → s.scene.signals.hasFired t = true
  unexpired : ∀ key slot, s.cache.entries.get? key = some slot →
    slot.isExpired s.cache.epoch now = false
  unfired : ∀ key slot, s.cache.entries.get? key = some slot → slot.hasFired before = false

theorem hasFired_place (c : Cache V C) (now : Instant) (signals : Signals) (key : String)
    (value : V) (options : Options C) (t : Token) :
    (c.place now signals key value options).signals.hasFired t = signals.hasFired t := by
  unfold Cache.place
  simp only
  split
  · rfl
  · exact Signals.hasFired_foldl_subscribe ..

namespace Live

variable {now : Instant} {before : Signals} {s : Session V C W}

theorem scene (h : s.Live now before) {scene : Scene W}
    (hleads : s.scene.signals.Leads scene.signals) :
    ({ s with scene } : Session V C W).Live now before :=
  ⟨h.linked, fun t ht => hleads.hasFired (h.remembered t ht), h.unexpired, h.unfired⟩

theorem detach (h : s.Live now before) {key : String} {d : Cache.Detached V C}
    (hd : s.cache.detach key = some d) :
    ({ s with cache := d.cache } : Session V C W).Live now before := by
  have hloses := Cache.loses_detach h.linked.toConsistent hd .expired
  refine ⟨h.linked.detach hd, h.remembered, fun other slot hget => ?_, fun other slot hget => ?_⟩
  · simp only [hloses.epoch]
    exact h.unexpired other slot (hloses.kept other slot hget)
  · exact h.unfired other slot (hloses.kept other slot hget)

/-- An entry that is put in holds no token that has fired, or it would have been refused. -/
theorem place (h : s.Live now before) {key : String} {value : V} {options : Options C}
    (hfresh : (Slot.mk value options (s.cache.millis now)).isExpired s.cache.epoch now = false) :
    (s.commit key (s.cache.place now s.scene.signals key value options)).Live now before := by
  refine ⟨h.linked.place key now _ value options, fun t ht => ?_, fun other slot hslot => ?_,
    fun other slot hslot => ?_⟩
  · rw [signals_commit, hasFired_place]
    exact h.remembered t ht
  · change slot.isExpired (s.cache.place now s.scene.signals key value options).cache.epoch now =
      false
    rw [Cache.epoch_place h.linked]
    rcases Cache.get?_place h.linked key now s.scene.signals value options hslot with
      ⟨-, rfl, -, -⟩ | ⟨-, hold⟩
    · exact hfresh
    · exact h.unexpired other slot hold
  · rcases Cache.get?_place h.linked key now s.scene.signals value options hslot with
      ⟨-, rfl, -, htokens⟩ | ⟨-, hold⟩
    · unfold Slot.hasFired
      rw [List.any_eq_false]
      intro t ht hfired
      have hnow := h.remembered t hfired
      rw [htokens t ht] at hnow
      cases hnow
    · exact h.unfired other slot hold

/-- What a sweep leaves is live. -/
theorem of_sweep (hc : s.cache.Linked) (m : Moment V C W) :
    (s.swept m).Live m.now s.scene.signals := by
  have hepoch : (s.swept m).cache.epoch = s.cache.epoch :=
    (Cache.loses_evictEach hc (s.cache.doomed m.now (s.scene.signals.lower s.cache.flag))).epoch
  have hlive : ∀ key slot, (s.swept m).cache.entries.get? key = some slot →
      slot.isExpired s.cache.epoch m.now = false ∧ slot.hasFired s.scene.signals = false := by
    intro key slot hget
    have hboth := Cache.isLive_of_sweep hc m.now (s.scene.signals.lower s.cache.flag) hget
    rwa [Slot.isLive, Bool.and_eq_true, Bool.not_eq_true', Bool.not_eq_true'] at hboth
  refine ⟨hc.sweep m.now _, fun _ ht => ht, fun key slot hget => ?_,
    fun key slot hget => (hlive key slot hget).2⟩
  rw [hepoch]
  exact (hlive key slot hget).1

theorem attend {hooks : Hooks V C W} {step : Step V C W}
    (h : step.session.Live now before) (hfresh : step.PutsBackFresh ⟨now, hooks.decide now⟩) :
    (step.session.attend ⟨now, hooks.decide now⟩ step.task).1.Live now before := by
  obtain ⟨s, task⟩ := step
  cases task with
  | consult e =>
    have hanswered : ({ s with scene := s.answered ⟨now, hooks.decide now⟩ e } :
        Session V C W).Live now before := by
      refine h.scene ?_
      unfold answered
      split
      · exact .refl _
      · next hook _ => exact hooks.orderly now hook e.key e.slot.value e.reason (s.asking e)
    cases hr : s.reinsertion? ⟨now, hooks.decide now⟩ e with
    | none =>
      obtain ⟨also, hattend⟩ := attend_of_no_reinsertion hr
      rw [hattend]
      exact hanswered
    | some p =>
      obtain ⟨value, options⟩ := p
      rw [attend_of_reinsertion hr]
      exact hanswered.place (hfresh e value options rfl hr)
  | remove key =>
    cases hd : s.cache.detach key with
    | none =>
      rw [attend_absent hd]
      exact h
    | some d =>
      rw [attend_stored hd]
      exact (h.detach hd).scene (.refl _)

end Live

/-- **What an upkeep leaves is live**, unless a hook that it asks puts an entry back that is expired
at once. The hint and the flag of the cache are not late, so nothing is missed when it does
nothing. -/
theorem live_maintain (hooks : Hooks V C W) {now : Instant} {s : Session V C W}
    (hw : s.cache.Watchful now s.scene.signals) (hc : s.cache.Linked)
    (hfresh : ∀ step ∈ s.upkeep ⟨now, hooks.decide now⟩,
      step.PutsBackFresh ⟨now, hooks.decide now⟩) :
    (s.maintain ⟨now, hooks.decide now⟩).Live now s.scene.signals := by
  unfold maintain
  unfold upkeep at hfresh
  cases hdue : s.cache.mayBeDue now s.scene.signals with
  | true =>
    simp only [hdue, if_true] at hfresh ⊢
    exact settle_of_steps (Live.of_sweep hc ⟨now, hooks.decide now⟩)
      fun step hmem hlive => hlive.attend (hfresh step hmem)
  | false =>
    simp only [Bool.false_eq_true, if_false]
    have hlive : ∀ key slot, s.cache.entries.get? key = some slot →
        slot.isExpired s.cache.epoch now = false ∧ slot.hasFired s.scene.signals = false := by
      intro key slot hget
      have hboth := hw.isLive_of_not_mayBeDue hdue hget
      rwa [Slot.isLive, Bool.and_eq_true, Bool.not_eq_true', Bool.not_eq_true'] at hboth
    exact ⟨hc, fun _ ht => ht, fun key slot hget => (hlive key slot hget).1,
      fun key slot hget => (hlive key slot hget).2⟩

/-- A read that answers with a value has found a live entry with it, which now counts as read. -/
theorem look_eq_some {m : Moment V C W} {s : Session V C W} {key : String} {value : V}
    (h : (look m key s).1 = some value) :
    ∃ slot, s.cache.entries.get? key = some slot ∧ slot.value = value ∧
      slot.isLive s.cache.epoch m.now s.scene.signals = true ∧ s.lookSteps m key = [] ∧
      (look m key s).2 = ⟨s.cache.touch m.now key, s.scene.note (.hit key)⟩ := by
  unfold look at h ⊢
  unfold lookSteps
  cases hget : s.cache.entries.get? key with
  | none => simp [hget] at h
  | some slot =>
    simp only [hget] at h ⊢
    split at h
    · next hlive =>
      refine ⟨slot, rfl, Option.some.inj h, hlive, if_pos hlive, ?_⟩
      rw [if_pos hlive]
    · cases h

end Session

/-- What an entry depends on is stored with it. -/
theorem Cache.Linked.stored_of_dependsOn {V C : Type} {c : Cache V C} (h : c.Linked)
    {key parent : String} (hkey : (c.entries.get? key).isSome = true)
    (hdep : ReflTransGen c.DependsOn key parent) : (c.entries.get? parent).isSome = true := by
  cases hdep with
  | refl => exact hkey
  | tail _ hd => exact h.parent_stored _ _ hd

namespace Commons

variable {ι V C W : Type} [DecidableEq ι]

/-- **Reads are never stale.** At any moment of any run, when a read of any of the caches answers
with a value, and no hook that it asks puts an entry back that is expired at once, the value is the
one that was last put in under the key, by whatever request or hook. The entry that the read finds
is live, and neither it nor any entry that it depends on, directly or through others, is expired or
holds a token that had fired; only a hook that the read itself asks can have fired one since. -/
theorem get_eq_latest (hooks : Hooks V C W) (flags : ι ↪ Flag) (epochs : ι → Instant)
    (now : Instant) (scene : Scene W) (moves : List (Move ι V C W)) (i : ι) (key : String)
    (value : V) :
    let σ₀ := start flags epochs now scene
    let σ := σ₀.run hooks.decide moves
    let m := σ.moment hooks.decide
    let s := σ.session i
    let found := s.maintain m
    (∀ step ∈ s.upkeep m, step.PutsBackFresh m) → (Session.get m key s).1 = some value →
      ((Cache.Request.get key).log m s ++ σ₀.log hooks.decide i moves).lookup key = some value ∧
      (∃ slot, found.cache.entries.get? key = some slot ∧ slot.value = value ∧
        slot.isLive found.cache.epoch σ.now found.scene.signals = true) ∧
      (Session.get m key s).2 = ⟨found.cache.touch σ.now key, found.scene.note (.hit key)⟩ ∧
      ∀ parent, ReflTransGen found.cache.DependsOn key parent →
        ∃ slot, found.cache.entries.get? parent = some slot ∧
          slot.isExpired found.cache.epoch σ.now = false ∧
          slot.hasFired s.scene.signals = false ∧
          (found.scene.signals.fired = s.scene.signals.fired →
            slot.hasFired found.scene.signals = false) := by
  intro σ₀ σ m s found hfresh hget
  have hwatched := watched_run hooks flags epochs now scene moves
  have hlinked : s.cache.Linked := hwatched.linked i
  have hlive : found.Live σ.now s.scene.signals :=
    Session.live_maintain hooks (hwatched.watchful i) hlinked hfresh
  rw [Session.get_eq_look] at hget ⊢
  obtain ⟨slot, hslot, hvalue, hslotlive, hsteps, hafter⟩ := Session.look_eq_some hget
  refine ⟨?_, ⟨slot, hslot, hvalue, hslotlive⟩, hafter, fun parent hdep => ?_⟩
  · have hlogged : s.cache.Logged (σ₀.log hooks.decide i moves) := by
      have hempty : (σ₀.caches i).Logged [] := fun _ _ hnone => nomatch hnone
      have hrun := logged_run hooks.decide i hempty
        (fun j => .dropAll { epoch := epochs j, flag := flags j }) moves
      rwa [List.append_nil] at hrun
    have hlog : (Cache.Request.get key).log m s = Session.log m (s.upkeep m) := by
      simp only [Cache.Request.log, Cache.Request.allSteps, Cache.Request.ownLog]
      rw [hsteps, List.append_nil, List.append_nil]
    rw [hlog, ← hvalue]
    exact Session.logged_maintain m hlogged hlinked key slot hslot
  · obtain ⟨slot', hslot'⟩ := Option.isSome_iff_exists.1
      (hlive.linked.stored_of_dependsOn (by rw [hslot]; rfl) hdep)
    refine ⟨slot', hslot', hlive.unexpired parent slot' hslot', hlive.unfired parent slot' hslot',
      fun hsame => ?_⟩
    have hnot := hlive.unfired parent slot' hslot'
    unfold Slot.hasFired Signals.hasFired at hnot ⊢
    rwa [hsame]

/-- Hooks that put every entry back leave the scene as it is. -/
def renewing : Hooks String Unit Unit := ⟨renew, fun _ _ _ _ _ _ => .refl _⟩

/-- An entry with a hook is expired, and a page was built on a layout. -/
def built : List (Move Unit String Unit Unit) :=
  aged ++ [.begin () (.insert "layout" "frame" {}),
    .begin () (.insert "page" "text" { keys := ["layout"] })]

theorem putsBackFresh_renew (now : Instant) (step : Session.Step String Unit Unit) :
    step.PutsBackFresh ⟨now, renew now⟩ := by
  intro e value options _ h
  unfold Session.reinsertion? renew at h
  obtain ⟨hook, -, h⟩ := Option.bind_eq_some_iff.1 h
  cases h
  rfl

theorem get_built : (Session.get ((alone.run renew built).moment renew) "page"
    ((alone.run renew built).session ())).1 = some "text" := by
  simp [run, built, aged, step, alone, start, session, moment, afterBegin, after, renew,
    Session.get, Session.maintain, Session.purge, Session.consultAll, Session.settle_cons,
    Session.attend, Session.commit, Cache.Request.begin, Cache.mayBeDue, Cache.place,
    Cache.cleared, Cache.detach, Cache.refuses, Cache.link, Cache.sweep, Cache.doomed,
    Cache.evictEach, Cache.cascade, Cache.nextDeadline, Cache.earlier, Cache.hintFor,
    Cache.millis, Cache.lastHint, Cache.Index.addDependent, Cache.Index.dependentsOf,
    Cache.Index.unregister, Cache.Index.register, Slot.doom?, Slot.hasFired, Slot.isExpired,
    Slot.isLive, Slot.deadline?, Scene.noteIf, Scene.note, Table.get?, Table.put, Table.erase,
    Table.empty, List.lookup_cons, List.eraseDups_cons]

theorem get_eq_latest_built :
    let σ := alone.run renew built
    let m := σ.moment renew
    let s := σ.session ()
    (∀ step ∈ s.upkeep m, step.PutsBackFresh m) ∧
      (Session.get m "page" s).1 = some "text" ∧
      ((Cache.Request.get "page").log m s ++ alone.log renew () built).lookup "page" =
        some "text" := by
  have hfresh := putsBackFresh_renew (alone.run renew built).now
  obtain ⟨hlatest, -⟩ := get_eq_latest renewing ⟨fun _ => ⟨0⟩, fun _ _ _ => rfl⟩ (fun _ => 0) 0
    { world := () } built () "page" "text" (fun step _ => hfresh step) get_built
  exact ⟨fun step _ => hfresh step, get_built, hlatest⟩

end Commons

end Templating
