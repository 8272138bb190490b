import Templating.Proofs.Cache.Insertion
import Templating.Proofs.Cache.Usage

/-!
# Expiry is exact

An entry that expires can be read before its deadline and not after, as long as it is **spared**:
nobody removes it or puts another in its place, and nothing that it depends on goes. Three clocks
meet here. Deadlines are exact, the mark of the last use is a whole millisecond of the cache's time,
and so is the hint by which a read decides whether to purge first. `Cache.Endures` says what is
left of a spared entry at any moment: it is stored and bears the mark of its last use, or it is over
and was swept out. A hint that is early or late does not matter, since a sweep takes out only what
is over and a read that does not sweep looks at the entry again.
-/

namespace Templating

open Relation

/-! ## Deadlines -/

/-- The instant at which an entry expires that was used last at `used`. -/
def Expiration.deadline? (epoch used : Instant) : Expiration → Option Instant
  | .never => none
  | .absolute instant => some instant
  | .sliding window => some (epoch + Duration.ofMillis ((used - epoch) / 1000000) + window)

/-- The entry that was used last at `used` has expired. -/
def Expiration.isOver (e : Expiration) (epoch used now : Instant) : Bool :=
  (e.deadline? epoch used).any (· ≤ now)

namespace Expiration

variable {e : Expiration} {epoch used now : Instant}

theorem isOver_eq_false :
    e.isOver epoch used now = false ↔
      ∀ deadline, e.deadline? epoch used = some deadline → now < deadline := by
  unfold isOver
  cases e.deadline? epoch used <;> simp

theorem isOver_later (h : e.isOver epoch used now = true) {later : Instant} (hle : now ≤ later) :
    e.isOver epoch used later = true := by
  unfold isOver at h ⊢
  obtain ⟨deadline, hdeadline, hover⟩ := Option.any_eq_true .. |>.1 h
  simp only [decide_eq_true_eq] at hover
  simpa [hdeadline] using Nat.le_trans hover hle

/-- The window of a sliding expiration is as long as it says, but for less than a millisecond. -/
theorem sliding_bounds (hepoch : epoch ≤ used) (window : Duration) :
    epoch + Duration.ofMillis ((used - epoch) / 1000000) + window ≤ used + window ∧
      used + window <
        epoch + Duration.ofMillis ((used - epoch) / 1000000) + window + Duration.ofMillis 1 := by
  have hrounded : ∀ epoch used window : Nat, epoch ≤ used →
      epoch + (used - epoch) / 1000000 * 1000000 + window ≤ used + window ∧
        used + window < epoch + (used - epoch) / 1000000 * 1000000 + window + 1 * 1000000 := by
    omega
  exact hrounded epoch used window hepoch

end Expiration

namespace Cache

variable {V C : Type} {c rest : Cache V C} {now : Instant} {signals : Signals}
  {key other : String} {value : V} {options : Options C} {used : Instant}

/-- An entry that bears the mark of its last use expires when it should. -/
theorem isExpired_marked (c : Cache V C) :
    (⟨value, options, c.millis used⟩ : Slot V C).isExpired c.epoch now =
      options.expiration.isOver c.epoch used now := by
  unfold Slot.isExpired Slot.deadline? Expiration.isOver Expiration.deadline?
  cases options.expiration <;> rfl

/-! ## What does not concern an entry -/

/-- What is done to the entry under `other` does not concern that under `key`: it is another one,
and was not built on it. -/
def Apart (c : Cache V C) (key other : String) : Prop := ¬ReflTransGen c.DependsOn key other

/-- Nothing that the entry under `key` depends on has gone: none of its tokens has fired, and the
entries that it was built on are live. -/
structure Backed (c : Cache V C) (now : Instant) (signals : Signals) (key : String) : Prop where
  unfired : ∀ slot, c.entries.get? key = some slot → slot.hasFired signals = false
  parents : ∀ parent, TransGen c.DependsOn key parent → c.contains now signals parent = true

theorem Apart.ne (h : c.Apart key other) : key ≠ other := by
  rintro rfl
  exact h .refl

theorem Apart.get?_cleared (h : c.Apart key other) (hc : c.Linked) :
    (c.cleared other).1.entries.get? key = c.entries.get? key :=
  get?_cleared_of_not hc h.ne fun hreaches => h hreaches.to_reflTransGen

theorem Apart.get?_detach (h : c.Apart key other) (hc : c.Linked) {d : Detached V C}
    (hd : c.detach other = some d) : d.cache.entries.get? key = c.entries.get? key := by
  have hcleared := h.get?_cleared hc
  rwa [cleared_of_some hd] at hcleared

theorem Apart.get?_place (h : c.Apart key other) (hc : c.Linked) (now : Instant) (signals : Signals)
    (value : V) (options : Options C) :
    (c.place now signals other value options).cache.entries.get? key = c.entries.get? key :=
  (get?_place_of_ne now signals other value options h.ne).trans (h.get?_cleared hc)

/-- **A sweep takes out an entry that is over**, and leaves one that is not, if what it depends on
stays. -/
theorem Backed.get?_sweep (h : c.Backed now signals key) (hc : c.Linked) :
    (c.sweep now signals).1.entries.get? key =
      (c.entries.get? key).filter fun slot => !slot.isExpired c.epoch now := by
  refine Option.ext fun slot => (Cache.get?_sweep hc).trans ?_
  rw [Option.filter_eq_some_iff]
  refine and_congr_right fun hget => ?_
  rw [Bool.not_eq_true']
  constructor
  · intro hsturdy
    exact (Slot.isLive_eq_true.1 (hsturdy.isLive hget)).1
  · intro hunexpired other hreaches
    rcases reflTransGen_iff_eq_or_transGen.1 hreaches with rfl | hdep
    · exact contains_iff.2 ⟨slot, hget, Slot.isLive_eq_true.2 ⟨hunexpired, h.unfired slot hget⟩⟩
    · exact h.parents other hdep

/-! ## What is left of a spared entry -/

/-- The entry is stored and bears the mark of its last use, or it is over and has left. -/
def Endures (c : Cache V C) (key : String) (value : V) (options : Options C) (used now : Instant) :
    Prop :=
  c.entries.get? key = some ⟨value, options, c.millis used⟩ ∨
    c.entries.get? key = none ∧ options.expiration.isOver c.epoch used now = true

namespace Endures

theorem of_get? (h : c.Endures key value options used now) (hepoch : rest.epoch = c.epoch)
    (hget : rest.entries.get? key = c.entries.get? key) :
    rest.Endures key value options used now := by
  unfold Endures
  rw [hget, hepoch, show rest.millis = c.millis from funext fun _ => by rw [millis, millis, hepoch]]
  exact h

theorem later (h : c.Endures key value options used now) {now' : Instant} (hle : now ≤ now') :
    c.Endures key value options used now' :=
  h.imp_right fun ⟨hnone, hover⟩ => ⟨hnone, Expiration.isOver_later hover hle⟩

theorem sweep (h : c.Endures key value options used now) (hc : c.Linked)
    (hbacked : c.Backed now signals key) :
    (c.sweep now signals).1.Endures key value options used now := by
  have hepoch : (c.sweep now signals).1.epoch = c.epoch :=
    (loses_evictEach hc (c.doomed now signals)).epoch
  have hget := hbacked.get?_sweep hc
  rcases h with hstored | ⟨hnone, hover⟩
  · rw [hstored, Option.filter_some, isExpired_marked] at hget
    cases hover : options.expiration.isOver c.epoch used now with
    | false =>
      refine of_get? (.inl hstored) hepoch (hget.trans ?_)
      rw [hover, hstored]
      rfl
    | true =>
      rw [hover] at hget
      refine .inr ⟨hget, ?_⟩
      rw [hepoch]
      exact hover
  · exact of_get? (.inr ⟨hnone, hover⟩) hepoch (by rw [hget, hnone]; rfl)

end Endures

end Cache

/-! ## Requests that spare an entry -/

/-- The task does nothing to the entry under `key`. -/
def Session.Step.Spares {V C W : Type} (m : Moment V C W) (key : String) (step : Step V C W) :
    Prop :=
  match step.task with
  | .remove other => step.session.cache.Apart key other
  | .consult e =>
    (step.session.reinsertion? m e).isSome = true → step.session.cache.Apart key e.key

namespace Cache.Request

variable {V C W : Type}

/-- What a request begins with does nothing to the entry under `key` but for its expiry. -/
def SparesFirst (m : Moment V C W) (s : Session V C W) (key : String) : Cache.Request V C → Prop
  | insert other _ _ | remove other => s.cache.Apart key other
  | insertIfAbsent other _ _ => s.contains m other = false → s.cache.Apart key other
  | get _ | look _ | purge => s.cache.Backed m.now s.scene.signals key
  | clear => False

/-- A request that is done as a whole does nothing to the entry under `key` but for its expiry, nor
do the hooks that it asks. A read looks twice, before and after these. -/
def Spares (m : Moment V C W) (s : Session V C W) (key : String) (r : Cache.Request V C) : Prop :=
  r.SparesFirst m s key ∧ (∀ step ∈ r.allSteps m s, step.Spares m key) ∧
    ∀ other, r = .get other →
      (s.maintain m).cache.Backed m.now (s.maintain m).scene.signals key

end Cache.Request

namespace Session

variable {V C W : Type} {m : Moment V C W} {s : Session V C W} {key : String} {value : V}
  {options : Options C} {used : Instant}

/-- The time of a cache begins once and for all. -/
theorem kept_epoch (m : Moment V C W) (epoch : Instant) :
    Session.Kept m fun s => s.cache.Linked ∧ s.cache.epoch = epoch where
  note _ _ h := h
  decide _ _ _ _ _ h := h
  place _ key value options h :=
    ⟨h.1.place key m.now _ value options, (Cache.epoch_place h.1 ..).trans h.2⟩
  detach _ _ _ h hd :=
    ⟨h.1.detach hd, (Cache.loses_detach h.1.toConsistent hd .expired).epoch.trans h.2⟩
  sweep _ h := ⟨h.1.sweep m.now _, (Cache.loses_evictEach h.1 _).epoch.trans h.2⟩
  touch _ key h := ⟨h.1.touch m.now key, h.2⟩
  dropAll s h := ⟨.dropAll s.cache, h.2⟩

/-! ### Nothing is put in under the key -/

theorem Step.log_of_spares {step : Step V C W} (h : step.Spares m key) :
    ∀ row ∈ step.log m, row.1 ≠ key := by
  obtain ⟨s, task⟩ := step
  cases task with
  | remove other => intro row hrow; cases hrow
  | consult e =>
    intro row hrow
    simp only [Step.log] at hrow
    cases hr : s.reinsertion? m e with
    | none =>
      rw [hr] at hrow
      cases hrow
    | some p =>
      rw [hr] at hrow
      simp only [List.mem_ite_nil_right, List.mem_singleton] at hrow
      rw [hrow.2]
      exact ((h (by rw [hr]; rfl)).ne).symm

theorem mem_log {steps : List (Step V C W)} {row : String × V} :
    row ∈ log m steps ↔ ∃ step ∈ steps, row ∈ step.log m := by
  induction steps with
  | nil => simp [log]
  | cons step steps ih => simp [log, ih, or_comm]

theorem ownLog_of_spares {r : Cache.Request V C} (h : r.SparesFirst m s key) :
    ∀ row ∈ r.ownLog m s, row.1 ≠ key := by
  intro row hrow
  cases r with
  | insert other value options =>
    simp only [Cache.Request.ownLog, List.mem_ite_nil_right, List.mem_singleton] at hrow
    rw [hrow.2]
    exact h.ne.symm
  | insertIfAbsent other value options =>
    simp only [Cache.Request.ownLog] at hrow
    split at hrow
    · cases hrow
    · next habsent =>
      simp only [List.mem_ite_nil_right, List.mem_singleton] at hrow
      rw [hrow.2]
      exact (h (by simpa using habsent)).ne.symm
  | get | look | remove | purge | clear => cases hrow

theorem log_of_spares {r : Cache.Request V C} (h : r.Spares m s key) :
    ∀ row ∈ r.log m s, row.1 ≠ key := by
  intro row hrow
  rcases List.mem_append.1 hrow with hrow | hrow
  · obtain ⟨step, hstep, hrow⟩ := mem_log.1 hrow
    exact Step.log_of_spares (h.2.1 step hstep) row hrow
  · exact ownLog_of_spares h.1 row hrow

/-! ### The entry endures -/

/-- The cache is linked and the entry endures. -/
structure Enduring (s : Session V C W) (key : String) (value : V) (options : Options C)
    (used now : Instant) : Prop where
  linked : s.cache.Linked
  endures : s.cache.Endures key value options used now

namespace Enduring

theorem attend (h : s.Enduring key value options used m.now) {task : Task V C}
    (hspares : Step.Spares m key ⟨s, task⟩) :
    (s.attend m task).1.Enduring key value options used m.now := by
  refine ⟨(kept_linked m).attend h.linked task, ?_⟩
  cases task with
  | consult e =>
    cases hr : s.reinsertion? m e with
    | none =>
      obtain ⟨also, hattend⟩ := attend_of_no_reinsertion hr
      rw [hattend]
      exact h.endures
    | some p =>
      obtain ⟨value', options'⟩ := p
      rw [attend_of_reinsertion hr]
      exact h.endures.of_get? (Cache.epoch_place h.linked ..)
        (Cache.Apart.get?_place (hspares (by rw [hr]; rfl)) h.linked ..)
  | remove other =>
    cases hd : s.cache.detach other with
    | none =>
      rw [attend_absent hd]
      exact h.endures
    | some d =>
      rw [attend_stored hd]
      exact h.endures.of_get? (Cache.loses_detach h.linked.toConsistent hd .expired).epoch
        (Cache.Apart.get?_detach hspares h.linked hd)

theorem settle (h : s.Enduring key value options used m.now) {tasks : List (Task V C)}
    (hspares : ∀ step ∈ s.steps m tasks, step.Spares m key) :
    (s.settle m tasks).Enduring key value options used m.now :=
  settle_of_steps (P := fun s => s.Enduring key value options used m.now) h
    fun step hstep hs => hs.attend (hspares step hstep)

theorem begin (h : s.Enduring key value options used m.now) {r : Cache.Request V C}
    (hspares : r.SparesFirst m s key) :
    (r.begin m s).1.Enduring key value options used m.now := by
  refine ⟨(kept_linked m).begin h.linked r, ?_⟩
  have hplace : ∀ other value' options', s.cache.Apart key other →
      (s.commit other (s.cache.place m.now s.scene.signals other value' options')).cache.Endures
        key value options used m.now := fun other value' options' hapart =>
    h.endures.of_get? (Cache.epoch_place h.linked ..) (hapart.get?_place h.linked ..)
  cases r with
  | insert other value' options' => exact hplace other value' options' hspares
  | insertIfAbsent other value' options' =>
    simp only [Cache.Request.begin]
    split
    · exact h.endures
    · next habsent => exact hplace other value' options' (hspares (by simpa using habsent))
  | get | look | purge => exact h.endures.sweep h.linked ⟨hspares.unfired, hspares.parents⟩
  | remove other =>
    simp only [Cache.Request.begin]
    cases hd : s.cache.detach other with
    | none => exact h.endures
    | some d =>
      exact h.endures.of_get? (Cache.loses_detach h.linked.toConsistent hd .expired).epoch
        (Cache.Apart.get?_detach hspares h.linked hd)
  | clear => exact hspares.elim

theorem purge (h : s.Enduring key value options used m.now)
    (hbacked : s.cache.Backed m.now s.scene.signals key)
    (hspares : ∀ step ∈ Cache.Request.purge.steps m s, step.Spares m key) :
    (Session.purge m s).2.Enduring key value options used m.now :=
  (h.begin (r := .purge) hbacked).settle hspares

theorem maintain (h : s.Enduring key value options used m.now)
    (hbacked : s.cache.Backed m.now s.scene.signals key)
    (hspares : ∀ step ∈ s.upkeep m, step.Spares m key) :
    (s.maintain m).Enduring key value options used m.now := by
  unfold Session.maintain
  unfold upkeep at hspares
  split
  · next hdue =>
    rw [if_pos hdue] at hspares
    exact h.purge hbacked hspares
  · exact h

/-- **A look at the entry finds it before its deadline, and not after**, if what it depends on is
still there. -/
theorem look_self (h : s.Enduring key value options used m.now)
    (hbacked : s.cache.Backed m.now s.scene.signals key) : (Session.look m key s).1 =
      if options.expiration.isOver s.cache.epoch used m.now then none else some value := by
  unfold Session.look
  rcases h.endures with hstored | ⟨hnone, hover⟩
  · have hunfired := hbacked.unfired _ hstored
    have hlive : (⟨value, options, s.cache.millis used⟩ : Slot V C).isLive s.cache.epoch m.now
        s.scene.signals = !options.expiration.isOver s.cache.epoch used m.now := by
      rw [Slot.isLive, hunfired, Cache.isExpired_marked, Bool.not_false, Bool.and_true]
    simp only [hstored, hlive]
    cases options.expiration.isOver s.cache.epoch used m.now <;> rfl
  · simp [hnone, hover]

/-- A look that finds the entry is its last use then; other looks leave it alone. -/
theorem look (h : s.Enduring key value options used m.now)
    (hbacked : s.cache.Backed m.now s.scene.signals key) (other : String)
    (hspares : ∀ step ∈ s.lookSteps m other, step.Spares m key) :
    (Session.look m other s).2.Enduring key value options
      (if (Cache.Request.look other).hits m s key then m.now else used) m.now := by
  refine ⟨(kept_linked m).look h.linked other, ?_⟩
  unfold lookSteps at hspares
  simp only [Cache.Request.hits, Cache.Request.read?, Cache.Request.answer?, Session.look]
  cases hget : s.cache.entries.get? other with
  | none => simpa using h.endures
  | some slot =>
    by_cases hlive : slot.isLive s.cache.epoch m.now s.scene.signals = true
    · simp only [hlive, if_true, Option.isSome_some, Bool.and_true]
      by_cases hkey : other = key
      · subst hkey
        rcases h.endures with hstored | ⟨hnone, -⟩
        · refine .inl ?_
          rw [Cache.get?_touch, if_pos rfl, hstored, beq_self_eq_true]
          rfl
        · rw [hget] at hnone
          cases hnone
      · have hne : (some other == some key) = false := by simpa using hkey
        rw [hne]
        refine h.endures.of_get? (c := s.cache) rfl ?_
        rw [Cache.get?_touch, if_neg (Ne.symm hkey)]
    · simp only [hget, hlive] at hspares
      simpa [hlive] using (h.purge hbacked hspares).endures

/-- **A spared entry endures every request**, and is used by the reads that find it. -/
theorem perform (h : s.Enduring key value options used m.now) {r : Cache.Request V C}
    (hspares : r.Spares m s key) :
    (r.perform m s).Enduring key value options (if r.hits m s key then m.now else used)
      m.now := by
  obtain ⟨hfirst, hsteps, hsecond⟩ := hspares
  have hother : (∀ key, r ≠ .get key) → (∀ key, r ≠ .look key) → r.read? = none →
      (r.perform m s).Enduring key value options (if r.hits m s key then m.now else used)
        m.now := by
    intro hget hlook hread
    rw [Cache.Request.allSteps_eq m s hget hlook] at hsteps
    have hhits : r.hits m s key = false := by simp [Cache.Request.hits, hread]
    rw [Cache.Request.perform_eq_settle m s hget hlook, hhits]
    exact (h.begin hfirst).settle hsteps
  cases r with
  | get other =>
    have hmaintained := h.maintain hfirst fun step hstep =>
      hsteps step (List.mem_append_left _ hstep)
    exact hmaintained.look (hsecond other rfl) other fun step hstep =>
      hsteps step (List.mem_append_right _ hstep)
  | look other => exact h.look hfirst other hsteps
  | insert | insertIfAbsent | remove | purge | clear => exact hother (by simp) (by simp) rfl

/-- What a read of the entry answers. -/
theorem answer? (h : s.Enduring key value options used m.now) {r : Cache.Request V C}
    (hread : r.read? = some key) (hspares : r.Spares m s key) : r.answer? m s =
      if options.expiration.isOver s.cache.epoch used m.now then none else some value := by
  obtain ⟨hfirst, hsteps, hsecond⟩ := hspares
  cases r with
  | get other =>
    cases hread
    have hmaintained := h.maintain hfirst fun step hstep =>
      hsteps step (List.mem_append_left _ hstep)
    have hepoch := ((kept_epoch m s.cache.epoch).maintain ⟨h.linked, rfl⟩).2
    rw [← hepoch]
    exact hmaintained.look_self (hsecond key rfl)
  | look other =>
    cases hread
    exact h.look_self hfirst
  | insert | insertIfAbsent | remove | purge | clear => cases hread

end Enduring

end Session

/-! ## Entries that depend on nothing -/

/-- The request names another key. -/
def Cache.Request.Elsewhere {V C : Type} (key : String) : Cache.Request V C → Prop
  | insert other _ _ | insertIfAbsent other _ _ | remove other => key ≠ other
  | get _ | look _ | purge => True
  | clear => False

namespace Session

variable {V W : Type} {m : Moment V Empty W} {s : Session V Empty W} {key : String} {value : V}
  {options : Options Empty} {used : Instant}

/-- Where there are no hooks, evicted entries are counted, and that is all. -/
theorem spares_of_hookless (evicted : List (Evicted V Empty)) :
    ∀ step ∈ s.steps m (evicted.map .consult), step.Spares m key := by
  have hhook : ∀ e : Evicted V Empty, e.slot.options.hook = none := fun e =>
    match e.slot.options.hook with
    | none => rfl
    | some hook => nomatch hook
  have hconsults : ∀ step ∈ s.steps m (evicted.map .consult), ∃ rest, ∀ task ∈ step.task :: rest,
      ∃ e : Evicted V Empty, task = .consult e := by
    refine forall_steps (P := fun _ tasks => ∀ task ∈ tasks, ∃ e : Evicted V Empty,
      task = .consult e) ?_ (by simp)
    intro s task tasks htasks
    obtain ⟨e, rfl⟩ := htasks task List.mem_cons_self
    rw [attend_silent (hhook e)]
    exact fun task htask => htasks task (List.mem_cons_of_mem _ htask)
  intro step hstep
  obtain ⟨rest, htasks⟩ := hconsults step hstep
  obtain ⟨e, he⟩ := htasks step.task List.mem_cons_self
  unfold Step.Spares
  rw [he]
  intro hput
  simp [reinsertion?, hhook] at hput

namespace Enduring

theorem not_dependsOn (h : s.Enduring key value options used m.now) (hkeys : options.keys = [])
    (parent : String) : ¬s.cache.DependsOn key parent := by
  intro hdep
  rcases h.endures with hstored | ⟨hnone, -⟩
  · have hparent := (h.linked.recorded key _ hstored parent).1 hdep
    simp only [hkeys] at hparent
    cases hparent
  · have hstored := h.linked.toConsistent.stored_of_dependsOn hdep
    rw [hnone] at hstored
    cases hstored

/-- What depends on nothing is not invalidated. -/
theorem backed (h : s.Enduring key value options used m.now) (hkeys : options.keys = [])
    (htokens : options.tokens = []) (signals : Signals) : s.cache.Backed m.now signals key where
  unfired slot hget := by
    rcases h.endures with hstored | ⟨hnone, -⟩
    · rw [hget] at hstored
      cases hstored
      simp [Slot.hasFired, htokens]
    · rw [hget] at hnone
      cases hnone
  parents parent hdep := by
    obtain ⟨next, hd, -⟩ := TransGen.head'_iff.1 hdep
    exact absurd hd (h.not_dependsOn hkeys next)

theorem apart (h : s.Enduring key value options used m.now) (hkeys : options.keys = [])
    {other : String} (hne : key ≠ other) : s.cache.Apart key other := by
  intro hreaches
  rcases ReflTransGen.cases_head_iff.1 hreaches with heq | ⟨next, hd, -⟩
  · exact hne heq
  · exact h.not_dependsOn hkeys next hd

/-- Where there are no hooks, what depends on nothing is spared by all that names other keys. -/
theorem spares (h : s.Enduring key value options used m.now) (hkeys : options.keys = [])
    (htokens : options.tokens = []) {r : Cache.Request V Empty} (helse : r.Elsewhere key) :
    r.Spares m s key := by
  have hbacked := h.backed hkeys htokens s.scene.signals
  have hpurge : ∀ s : Session V Empty W, ∀ step ∈ Cache.Request.purge.steps m s,
      step.Spares m key := fun _ => spares_of_hookless _
  have hupkeep : ∀ step ∈ s.upkeep m, step.Spares m key := by
    unfold upkeep
    split
    · exact hpurge s
    · intro step hstep
      cases hstep
  have hlook : ∀ (s : Session V Empty W) other, ∀ step ∈ s.lookSteps m other,
      step.Spares m key := by
    intro s other
    unfold lookSteps
    split
    · intro step hstep
      cases hstep
    · split
      · intro step hstep
        cases hstep
      · exact hpurge s
  refine ⟨?_, ?_, fun other _ => (h.maintain hbacked hupkeep).backed hkeys htokens _⟩
  · cases r with
    | insert | remove => exact h.apart hkeys helse
    | insertIfAbsent => exact fun _ => h.apart hkeys helse
    | get | look | purge => exact hbacked
    | clear => exact helse.elim
  · cases r with
    | get other =>
      exact fun step hstep => (List.mem_append.1 hstep).elim (hupkeep step) (hlook _ other step)
    | look other => exact hlook s other
    | insert | insertIfAbsent | remove | purge | clear => exact spares_of_hookless _

/-- An entry that is stored has been used at an instant that its mark tells. -/
theorem of_stored {slot : Slot V Empty} (hc : s.cache.Linked)
    (hget : s.cache.entries.get? key = some slot) (now : Instant) :
    s.Enduring key slot.value slot.options (s.cache.epoch + Duration.ofMillis slot.touched)
      now := by
  refine ⟨hc, .inl ?_⟩
  have hmillis : s.cache.millis (s.cache.epoch + Duration.ofMillis slot.touched) =
      slot.touched := by
    unfold Cache.millis Duration.ofMillis
    rw [Nat.add_sub_cancel_left, Nat.mul_div_cancel _ (by decide)]
  rw [hmillis]
  exact hget

end Enduring

end Session

/-- The move is done as a whole, and is about other keys of the cache `i`, or about none. -/
def Move.Elsewhere {ι V C W : Type} (i : ι) (key : String) : Move ι V C W → Prop
  | .perform j r => j = i → r.Elsewhere key
  | .begin _ _ | .attend => False
  | .fire _ | .issueToken | .advance _ | .change _ => True

/-! ## Runs that spare an entry -/

namespace Commons

variable {ι V C W : Type} [DecidableEq ι]

/-- The move does nothing to the entry under `key` of the cache `i`, but for its expiry. -/
def SparedBy (decide : Decisions V C W) (i : ι) (key : String) (σ : Commons ι V C W) :
    Move ι V C W → Prop
  | .perform j r => j = i → r.Spares (σ.moment decide) (σ.session j) key
  | .begin j r => j = i → r.SparesFirst (σ.moment decide) (σ.session j) key
  | .attend => ∀ j task tasks, σ.tasks = (j, task) :: tasks → j = i →
    Session.Step.Spares (σ.moment decide) key ⟨σ.session j, task⟩
  | .fire _ | .issueToken | .advance _ | .change _ => True

/-- In the whole run the entry is not removed, not replaced, and not invalidated by what it depends
on. -/
def SparedIn (decide : Decisions V C W) (i : ι) (key : String) (σ : Commons ι V C W) :
    List (Move ι V C W) → Prop
  | [] => True
  | move :: moves => σ.SparedBy decide i key move ∧ (σ.step decide move).SparedIn decide i key moves

theorem sparedIn_append {decide : Decisions V C W} {i : ι} {key : String} {σ : Commons ι V C W}
    {moves : List (Move ι V C W)} {last : Move ι V C W} :
    σ.SparedIn decide i key (moves ++ [last]) ↔ σ.SparedIn decide i key moves ∧
      (σ.run decide moves).SparedBy decide i key last := by
  induction moves generalizing σ with
  | nil => simp [SparedIn, run]
  | cons move moves ih => simp [SparedIn, ih, run, and_assoc]

variable {decide : Decisions V C W} {i : ι} {key : String} {value : V} {options : Options C}
  {used : Instant}

/-- What a move that spares an entry puts in, it puts in under other keys. -/
theorem moveLog_of_spared {σ : Commons ι V C W} {move : Move ι V C W}
    (h : σ.SparedBy decide i key move) : ∀ row ∈ σ.moveLog decide i move, row.1 ≠ key := by
  intro row hrow
  cases move with
  | perform j r =>
    simp only [moveLog, List.mem_ite_nil_right] at hrow
    exact Session.log_of_spares (h hrow.1) row hrow.2
  | begin j r =>
    simp only [moveLog, List.mem_ite_nil_right] at hrow
    exact Session.ownLog_of_spares (h hrow.1) row hrow.2
  | attend =>
    rcases htasks : σ.tasks with _ | ⟨⟨j, task⟩, tasks⟩
    · simp [moveLog, htasks] at hrow
    · simp only [moveLog, htasks, List.mem_ite_nil_right] at hrow
      exact Session.Step.log_of_spares (h j task tasks htasks hrow.1) row hrow.2
  | fire | issueToken | advance | change => cases hrow

theorem moveUse_of_spared {σ : Commons ι V C W} {move : Move ι V C W}
    (h : σ.SparedBy decide i key move) : σ.moveUse decide i key (some used) move =
      some (if σ.moveHits decide i key move then σ.now else used) := by
  have hnot : ((σ.moveLog decide i move).any fun row => row.1 == key) = false :=
    List.any_eq_false.2 fun row hrow => by simpa using moveLog_of_spared h row hrow
  unfold moveUse lastPut
  rw [hnot]
  cases σ.moveHits decide i key move <;> rfl

/-- **A spared entry endures every move.** -/
theorem enduring_step {σ : Commons ι V C W} {move : Move ι V C W}
    (h : (σ.session i).Enduring key value options used σ.now)
    (hspared : σ.SparedBy decide i key move) :
    ((σ.step decide move).session i).Enduring key value options
      (if σ.moveHits decide i key move then σ.now else used) (σ.step decide move).now := by
  -- Only the cache that a move is about changes.
  have hafter : ∀ (j : ι) (s : Session V C W) (hit : Bool),
      (j = i → s.Enduring key value options (if hit then σ.now else used) σ.now) →
      Session.Enduring ⟨(σ.after j s).caches i, s.scene⟩ key value options
        (if (if j = i then hit else false) then σ.now else used) σ.now := by
    intro j s hit hs
    rw [caches_after]
    by_cases hj : j = i
    · rw [if_pos hj.symm, if_pos hj]
      exact ⟨(hs hj).linked, (hs hj).endures⟩
    · rw [if_neg (Ne.symm hj), if_neg hj]
      exact ⟨h.linked, h.endures⟩
  cases move with
  | perform j r =>
    refine hafter j _ (r.hits (σ.moment decide) (σ.session j) key) fun hj => ?_
    subst hj
    exact h.perform (hspared rfl)
  | begin j r =>
    have hbegun := hafter j (r.begin (σ.moment decide) (σ.session j)).1 false fun hj => by
      subst hj
      exact h.begin (m := σ.moment decide) (hspared rfl)
    rw [ite_self] at hbegun
    exact hbegun
  | attend =>
    rcases htasks : σ.tasks with _ | ⟨⟨j, task⟩, tasks⟩
    · simp only [step, htasks]
      exact h
    · have hattended := hafter j ((σ.session j).attend (σ.moment decide) task).1 false fun hj => by
        subst hj
        exact h.attend (m := σ.moment decide) (hspared j task tasks htasks rfl)
      rw [ite_self] at hattended
      rw [step_attend decide htasks]
      exact hattended
  | advance d => exact ⟨h.linked, h.endures.later (Nat.le_add_right σ.now d)⟩
  | fire | issueToken | change => exact ⟨h.linked, h.endures⟩

/-- **A spared entry endures every run**, with the mark of its last use. -/
theorem enduring_run {σ : Commons ι V C W} {moves : List (Move ι V C W)}
    (h : (σ.session i).Enduring key value options used σ.now)
    (hspared : σ.SparedIn decide i key moves) :
    ∃ last, σ.lastUse decide i key (some used) moves = some last ∧
      ((σ.run decide moves).session i).Enduring key value options last
        (σ.run decide moves).now := by
  induction moves generalizing σ used with
  | nil => exact ⟨used, rfl, h⟩
  | cons move moves ih =>
    rw [lastUse, moveUse_of_spared hspared.1]
    exact ih (enduring_step h hspared.1) hspared.2

/-- Where there are no hooks, an entry that depends on nothing is spared in every run that is about
other keys, with any reads of its own. -/
theorem sparedIn_of_elsewhere {decide : Decisions V Empty W} {σ : Commons ι V Empty W}
    {options : Options Empty} {moves : List (Move ι V Empty W)}
    (h : (σ.session i).Enduring key value options used σ.now) (hkeys : options.keys = [])
    (htokens : options.tokens = []) (hmoves : ∀ move ∈ moves, move.Elsewhere i key) :
    σ.SparedIn decide i key moves := by
  induction moves generalizing σ used with
  | nil => trivial
  | cons move moves ih =>
    have hspared : σ.SparedBy decide i key move := by
      have helse := hmoves move List.mem_cons_self
      cases move with
      | perform j r =>
        intro hj
        subst hj
        exact h.spares (m := σ.moment decide) hkeys htokens (helse rfl)
      | begin | attend => exact helse.elim
      | fire | issueToken | advance | change => trivial
    exact ⟨hspared, ih (enduring_step h hspared) fun move hmem =>
      hmoves move (List.mem_cons_of_mem _ hmem)⟩

/-! ## Reads before and after the deadline -/

/-- **Expiry is exact**, in every run. Let an entry be stored at some moment, and let it not be
removed, replaced or invalidated by what it depends on, by whatever is done to the caches from then
on. A read finds it if and only if its deadline has not come. The deadline is the instant that the
entry was given or, if it slides, comes its window after its last use, which is when it was put in
or read last, rounded down to a whole millisecond of the cache's time. So it is never read at its
instant or later, nor when its window is over since its last use, and it can always be read when
less of the window is over, but for one millisecond. What else is asked of the cache meanwhile makes
no difference: reads of other keys, reads that find nothing, purges and tests of any key. -/
theorem read_iff_before_deadline (decide : Decisions V C W) (flags : ι ↪ Flag)
    (epochs : ι → Instant) (now : Instant) (scene : Scene W) (before after : List (Move ι V C W))
    (i : ι) (key : String) (slot : Slot V C) (r : Cache.Request V C) :
    let σ₀ := start flags epochs now scene
    let σ₁ := σ₀.run decide before
    let σ₂ := σ₁.run decide after
    let answer := r.answer? (σ₂.moment decide) (σ₂.session i)
    epochs i ≤ now → r.read? = some key → (σ₁.caches i).entries.get? key = some slot →
      σ₁.SparedIn decide i key (after ++ [.perform i r]) →
      ∃ used, σ₀.lastUse decide i key none (before ++ after) = some used ∧ used ≤ σ₂.now ∧
        (answer = some slot.value ↔ ∀ deadline,
          slot.options.expiration.deadline? (epochs i) used = some deadline → σ₂.now < deadline) ∧
        (answer = none ∨ answer = some slot.value) ∧
        (∀ instant, slot.options.expiration = .absolute instant →
          (answer = some slot.value ↔ σ₂.now < instant)) ∧
        ∀ window, slot.options.expiration = .sliding window →
          (used + window ≤ σ₂.now → answer = none) ∧
          (σ₂.now + Duration.ofMillis 1 ≤ used + window → answer = some slot.value) := by
  intro σ₀ σ₁ σ₂ answer hepoch hread hget hspared
  obtain ⟨hspared, hlast⟩ := sparedIn_append.1 hspared
  have hlinked : ∀ j, (σ₀.caches j).Linked := fun j =>
    .dropAll { epoch := epochs j, flag := flags j }
  have hbegins : ∀ j, (σ₂.caches j).Linked ∧ (σ₂.caches j).epoch = epochs j := by
    have hstep := kept_step (P := fun j c => c.Linked ∧ c.epoch = epochs j)
      fun (σ : Commons ι V C W) j => Session.kept_epoch (σ.moment decide) (epochs j)
    exact run_induction hstep (run_induction hstep (fun j => ⟨hlinked j, rfl⟩) before) after
  -- The mark of the entry, as it is first seen, is that of its last use before.
  have hempty : (σ₀.caches i).MarkedAt key none := by
    intro _ hnone
    cases hnone
  have hmarked := marked_run decide i hempty hlinked before
  obtain ⟨first, hfirst, htouched⟩ := Option.map_eq_some_iff.1 (hmarked slot hget)
  have hstart : (σ₁.session i).Enduring key slot.value slot.options first σ₁.now := by
    refine ⟨run_induction (P := fun σ => ∀ j, (σ.caches j).Linked) (linked_step decide) hlinked
      before i, .inl ?_⟩
    change (σ₁.caches i).entries.get? key =
      some ⟨slot.value, slot.options, (σ₁.caches i).millis first⟩
    rw [htouched]
    exact hget
  obtain ⟨used, hused, henduring⟩ := enduring_run hstart hspared
  have hanswer : answer = if slot.options.expiration.isOver (epochs i) used σ₂.now then none
      else some slot.value := by
    rw [← (hbegins i).2]
    exact henduring.answer? (m := σ₂.moment decide) hread (hlast rfl)
  have hlastUse : σ₀.lastUse decide i key none (before ++ after) = some used := by
    rw [lastUse_append, hfirst]
    exact hused
  have hiff : answer = some slot.value ↔ ∀ deadline,
      slot.options.expiration.deadline? (epochs i) used = some deadline → σ₂.now < deadline := by
    rw [← Expiration.isOver_eq_false, hanswer]
    cases slot.options.expiration.isOver (epochs i) used σ₂.now <;> simp
  have hvalue : answer = none ∨ answer = some slot.value := by
    rw [hanswer]
    cases slot.options.expiration.isOver (epochs i) used σ₂.now <;> simp
  obtain ⟨hfrom, hto⟩ := lastUse_within decide i key (σ := σ₀) (Nat.le_refl now)
    (by simp) (before ++ after) used hlastUse
  have hσ₂ : σ₀.run decide (before ++ after) = σ₂ := List.foldl_append ..
  rw [hσ₂] at hto
  refine ⟨used, hlastUse, hto, hiff, hvalue, fun instant habsolute => ?_, fun window hsliding => ?_⟩
  · rw [hiff, habsolute]
    simp [Expiration.deadline?]
  · rw [hsliding] at hiff
    simp only [Expiration.deadline?, Option.some.injEq, forall_eq'] at hiff
    obtain ⟨hearly, hlate⟩ := Expiration.sliding_bounds (Nat.le_trans hepoch hfrom) window
    refine ⟨fun hover => ?_, fun hwithin => ?_⟩
    · refine hvalue.resolve_right fun hfound => ?_
      exact absurd (hiff.1 hfound) (Nat.not_lt.2 (Nat.le_trans hearly hover))
    · exact hiff.2 (Nat.lt_of_add_lt_add_right (Nat.lt_of_le_of_lt hwithin hlate))

/-- A page that slides for two seconds is put in. -/
def slid : List (Move Unit String Empty Unit) :=
  [.perform () (.insert "page" "text" { expiration := .sliding (Duration.ofSeconds 2) })]

/-- The page is read after one and a half seconds, and then left alone for almost two. -/
def lingered : List (Move Unit String Empty Unit) :=
  [.advance (Duration.ofMillis 1500), .perform () (.get "page"), .advance (Duration.ofMillis 1999)]

theorem get_slid (decide : Decisions String Empty Unit) :
    ((hookless.run decide slid).caches ()).entries.get? "page" =
      some ⟨"text", { expiration := .sliding (Duration.ofSeconds 2) }, 0⟩ := by
  simp [run, slid, hookless, step, start, session, moment, after, Cache.Request.perform,
    Session.insert, Session.consultAll, Session.commit, Cache.place, Cache.cleared, Cache.detach,
    Cache.refuses, Cache.link, Cache.millis, Table.get?, Table.put, Table.erase, Table.empty]

theorem moveHits_slid (decide : Decisions String Empty Unit) :
    ((hookless.run decide slid).step decide (.advance (Duration.ofMillis 1500))).moveHits decide ()
      "page" (.perform () (.get "page")) = true := by
  simp [moveHits, Cache.Request.hits, Cache.Request.read?, Cache.Request.answer?, run, slid,
    hookless, step, start, session, moment, after, Cache.Request.perform, Session.get,
    Session.maintain, Session.insert, Session.consultAll, Session.commit, Cache.mayBeDue,
    Cache.place, Cache.cleared, Cache.detach, Cache.refuses, Cache.link, Cache.earlier,
    Cache.hintFor, Cache.millis, Cache.lastHint, Slot.hasFired, Slot.isExpired, Slot.isLive,
    Slot.deadline?, Scene.noteIf, Scene.note, Signals.isRaised, Duration.ofMillis,
    Duration.ofSeconds, Table.get?, Table.put, Table.erase, Table.empty]

/-- The page was read last after one and a half seconds. -/
theorem lastUse_lingered (decide : Decisions String Empty Unit) :
    hookless.lastUse decide () "page" none (slid ++ lingered) = some (Duration.ofMillis 1500) := by
  rw [lastUse_append, lingered, lastUse, lastUse, lastUse, lastUse, moveUse_advance, moveUse,
    if_pos (moveHits_slid decide)]
  simp [run, slid, hookless, step, after, start]

/-- **The page is there after more than its window**, since it was read meanwhile: a millisecond of
the window is left. -/
theorem read_lingered :
    let decide : Decisions String Empty Unit := fun _ hook => nomatch hook
    let σ := (hookless.run decide slid).run decide lingered
    (Cache.Request.get "page").answer? (σ.moment decide) (σ.session ()) = some "text" := by
  intro decide σ
  have hlinked : ((hookless.run decide slid).caches ()).Linked := linked_run _ _ _ _ _ slid ()
  obtain ⟨used, hused, -, -, -, -, hsliding⟩ := read_iff_before_deadline decide
    ⟨fun _ => ⟨0⟩, fun _ _ _ => rfl⟩ (fun _ => 0) 0 { world := () } slid lingered () "page" _
    (.get "page") (Nat.le_refl 0) rfl (get_slid decide)
    (sparedIn_of_elsewhere (.of_stored hlinked (get_slid decide) _) rfl rfl
      (by simp [lingered, Move.Elsewhere, Cache.Request.Elsewhere]))
  obtain rfl : Duration.ofMillis 1500 = used :=
    Option.some.inj ((lastUse_lingered decide).symm.trans hused)
  have hnow : σ.now = 0 + Duration.ofMillis 1500 + Duration.ofMillis 1999 := rfl
  refine (hsliding _ rfl).2 ?_
  change σ.now + _ ≤ _
  rw [hnow]
  simp [Duration.ofMillis, Duration.ofSeconds]

end Commons

end Templating
