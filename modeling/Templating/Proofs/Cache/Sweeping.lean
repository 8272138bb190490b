import Mathlib.Data.List.Sort
import Mathlib.Order.Bounds.Defs
import Templating.Cache.Sweeper
import Templating.Proofs.Cache.Checking

/-!
# The sweeper is on time

`Sweeper.ticks` counts in whole periods from the start of the sweeper, and an entry expires at any
instant, so an entry that is over stays until the first tick after its deadline and no longer. While
nothing else happens (`Sweeper.Undisturbed`) a purge before the deadline leaves it alone, and the
first one after the deadline takes it out and asks its hook once: the sweeper is **on time**
(`Sweeper.OnTime`). What the hook puts back has a deadline of its own, which counts from the tick,
and the sweeper is on time for it again.

`Commons.sweeps_on_time` says this at every moment of every run that the sweeper has served so far,
together with what holds right after each tick.
-/

namespace Templating

namespace Sweeper

/-! ## Ticks -/

/-- The instants at which the sweeper purges. It does not purge at its start. -/
def IsTick (w : Sweeper) (t : Instant) : Prop := ∃ k : Nat, 1 ≤ k ∧ t = w.start + k * w.period

section Ticks

variable {w : Sweeper} {since till t d T : Nat}

/-- Which multiples of a period after the start come after an instant, and which do not. -/
theorem tick_iff {period k : Nat} (h : 0 < period) (hk : 1 ≤ k) (start since till : Nat) :
    ((since - start) / period < k ↔ since < start + k * period) ∧
      (k ≤ (till - start) / period ↔ start + k * period ≤ till) := by
  have hpos : 0 < k * period := Nat.mul_pos hk h
  rw [Nat.div_lt_iff_lt_mul h, Nat.le_div_iff_mul_le h]
  omega

/-- The ticks on the way are those after its start and not after its end. -/
theorem mem_ticks (h : 0 < w.period) :
    t ∈ w.ticks since till ↔ w.IsTick t ∧ since < t ∧ t ≤ till := by
  have hrange : ∀ done due k : Nat,
      done + 1 ≤ k ∧ k < done + 1 + (due - done) ↔ 1 ≤ k ∧ done < k ∧ k ≤ due := by
    omega
  unfold ticks IsTick
  simp only [List.mem_map, List.mem_range'_1, hrange]
  constructor
  · rintro ⟨k, ⟨hk, hsince, htill⟩, rfl⟩
    have hiff := tick_iff h hk w.start since till
    exact ⟨⟨k, hk, rfl⟩, hiff.1.1 hsince, hiff.2.1 htill⟩
  · rintro ⟨⟨k, hk, rfl⟩, hsince, htill⟩
    have hiff := tick_iff h hk w.start since till
    exact ⟨k, ⟨hk, hiff.1.2 hsince, hiff.2.2 htill⟩, rfl⟩

theorem pairwise_ticks (h : 0 < w.period) : (w.ticks since till).Pairwise (· < ·) := by
  unfold ticks
  refine List.pairwise_map.2 ((List.pairwise_lt_range' (n := _)).imp fun hlt => ?_)
  exact Nat.add_lt_add_left (Nat.mul_lt_mul_of_pos_right hlt h) _

/-- There is a first tick to come at which it is not too early. -/
theorem exists_first (h : 0 < w.period) (since d : Nat) :
    ∃ T, IsLeast {t : Nat | w.IsTick t ∧ since < t ∧ d ≤ t} T := by
  have hlate : ∃ t : Nat, w.IsTick t ∧ since < t ∧ d ≤ t := by
    refine ⟨w.start + (since + d + 1) * w.period, ⟨_, Nat.le_add_left .., rfl⟩, ?_⟩
    have hle : since + d + 1 ≤ w.start + (since + d + 1) * w.period :=
      Nat.le_add_left_of_le (Nat.le_mul_of_pos_right _ h)
    exact ⟨Nat.lt_of_lt_of_le (by omega) hle, Nat.le_trans (by omega) hle⟩
  classical
  exact ⟨Nat.find hlate, Nat.find_spec hlate, fun t ht => Nat.find_min' hlate ht⟩

/-- Before the first tick that is not too early all others are too early. -/
theorem early_of_lt (h : 0 < w.period) (hT : IsLeast {t : Nat | w.IsTick t ∧ since < t ∧ d ≤ t} T)
    (hlt : till < T) (t : Nat) (ht : t ∈ w.ticks since till) : t < d := by
  obtain ⟨htick, hafter, hupto⟩ := (mem_ticks h).1 ht
  by_contra hlate
  have hle : T ≤ t := hT.2 ⟨htick, hafter, Nat.le_of_not_lt hlate⟩
  omega

theorem ticks_eq_concat (h : 0 < w.period) (htick : w.IsTick T) (hafter : since < T) :
    w.ticks since T = w.ticks since (T - 1) ++ [T] := by
  have hprev : T - 1 < T := by omega
  have hsorted : (w.ticks since (T - 1) ++ [T]).Pairwise (· < ·) := by
    refine List.pairwise_append.2 ⟨pairwise_ticks h, List.pairwise_singleton .., ?_⟩
    intro a ha b hb
    rw [List.mem_singleton.1 hb]
    exact Nat.lt_of_le_of_lt ((mem_ticks h).1 ha).2.2 hprev
  refine (pairwise_ticks h).eq_of_mem_iff hsorted fun t => ?_
  rw [List.mem_append, List.mem_singleton, mem_ticks h, mem_ticks h]
  constructor
  · rintro ⟨ht, hsince, hupto⟩
    rcases Nat.lt_or_eq_of_le hupto with hlt | rfl
    · exact .inl ⟨ht, hsince, Nat.le_sub_one_of_lt hlt⟩
    · exact .inr rfl
  · rintro (⟨ht, hsince, hupto⟩ | rfl)
    · exact ⟨ht, hsince, Nat.le_trans hupto (Nat.le_of_lt hprev)⟩
    · exact ⟨htick, hafter, Nat.le_refl _⟩

end Ticks

/-! ## While nothing else happens -/

variable {V C W : Type} {decide : Decisions V C W} {key : String} {slot : Slot V C}
  {s : Session V C W}

/-- The present at an instant. -/
def momentAt (decide : Decisions V C W) (t : Instant) : Moment V C W := ⟨t, decide t⟩

/-- One purge at each of the ticks. -/
def purges (decide : Decisions V C W) (ticks : List Instant) (s : Session V C W) : Session V C W :=
  ticks.foldl (fun s t => (Session.purge (momentAt decide t) s).2) s

/-- Purges at the ticks concern the entry under `key` for its deadline `d` only: before it all that
the entry depends on is live, and no hook has the entry removed or what it depends on. -/
def Undisturbed (decide : Decisions V C W) (key : String) (d : Instant) :
    List Instant → Session V C W → Prop
  | [], _ => True
  | t :: ticks, s =>
    (t < d → s.cache.Backed t s.scene.signals key) ∧
      (∀ step ∈ Cache.Request.purge.steps (momentAt decide t) s, step.LeavesAlone key) ∧
      Undisturbed decide key d ticks (Session.purge (momentAt decide t) s).2

/-- The calls of hooks for the entry under `key` in purges at the ticks, each with its tick. -/
def calls (decide : Decisions V C W) (key : String) :
    List Instant → Session V C W → List (Instant × Asked V C)
  | [], _ => []
  | t :: ticks, s =>
    (Session.callsAbout key (Cache.Request.purge.steps (momentAt decide t) s)).map (t, ·) ++
      calls decide key ticks (Session.purge (momentAt decide t) s).2

theorem undisturbed_append {d : Instant} {ticks ticks' : List Instant} :
    Undisturbed decide key d (ticks ++ ticks') s ↔
      Undisturbed decide key d ticks s ∧
        Undisturbed decide key d ticks' (purges decide ticks s) := by
  induction ticks generalizing s with
  | nil => exact (and_iff_right trivial).symm
  | cons t ticks ih =>
    simp only [List.cons_append, Undisturbed, ih, and_assoc]
    rfl

theorem calls_append (ticks ticks' : List Instant) :
    calls decide key (ticks ++ ticks') s =
      calls decide key ticks s ++ calls decide key ticks' (purges decide ticks s) := by
  induction ticks generalizing s with
  | nil => rfl
  | cons t ticks ih =>
    simp only [List.cons_append, calls, ih, List.append_assoc]
    rfl

variable (decide) in
theorem linked_purges (h : s.cache.Linked) (ticks : List Instant) :
    (purges decide ticks s).cache.Linked ∧
      (purges decide ticks s).cache.epoch = s.cache.epoch := by
  induction ticks generalizing s with
  | nil => exact ⟨h, rfl⟩
  | cons t ticks ih =>
    have hpurged := (Session.kept_epoch (momentAt decide t) s.cache.epoch).purge ⟨h, rfl⟩
    obtain ⟨hlinked, hepoch⟩ := ih hpurged.1
    exact ⟨hlinked, hepoch.trans hpurged.2⟩

/-- **The sweeper is never early**: purges before the deadline leave the entry alone. -/
theorem purges_of_early {d : Instant} {ticks : List Instant} (h : s.cache.Linked)
    (hget : s.cache.entries.get? key = some slot)
    (hd : slot.deadline? s.cache.epoch = some d) (hearly : ∀ t ∈ ticks, t < d)
    (hquiet : Undisturbed decide key d ticks s) :
    (purges decide ticks s).cache.entries.get? key = some slot ∧
      calls decide key ticks s = [] := by
  induction ticks generalizing s with
  | nil => exact ⟨hget, rfl⟩
  | cons t ticks ih =>
    obtain ⟨hbacked, halone, hrest⟩ := hquiet
    have ht : t < d := hearly t List.mem_cons_self
    have hunexpired : slot.isExpired s.cache.epoch t = false := by
      refine Slot.isExpired_eq_false.2 fun deadline hdeadline => ?_
      rw [hd] at hdeadline
      exact Option.some.inj hdeadline ▸ ht
    obtain ⟨hstays, hnone⟩ :=
      Session.purge_of_backed (m := momentAt decide t) h hget (hbacked ht) hunexpired halone
    obtain ⟨hlinked, hepoch⟩ :=
      (Session.kept_epoch (momentAt decide t) s.cache.epoch).purge ⟨h, rfl⟩
    unfold calls
    rw [hnone]
    exact ih hlinked hstays (hepoch.symm ▸ hd)
      (fun t' ht' => hearly t' (List.mem_cons_of_mem _ ht')) hrest

/-! ## On time -/

/-- What the sweeper does from `since` on about an entry with the deadline `d` when nothing else
happens to it: `T` is the first tick to come that is not before the deadline. Until then the entry
stays as it is and its hook is not asked. It leaves at `T` and its hook, if it has one, is asked
there and only once; it is told that the entry has expired, if all that the entry depends on is
live. What is found under the key after that is what the hook has put back. -/
structure OnTime (w : Sweeper) (decide : Decisions V C W) (since : Instant) (s : Session V C W)
    (key : String) (slot : Slot V C) (d T : Nat) : Prop where
  first : IsLeast {t : Nat | w.IsTick t ∧ since < t ∧ d ≤ t} T
  stays : ∀ till : Nat, till < T → Undisturbed decide key d (w.ticks since till) s →
    (w.pass (momentAt decide) since till s).cache.entries.get? key = some slot ∧
      calls decide key (w.ticks since till) s = []
  leaves : Undisturbed decide key d (w.ticks since T) s →
    let m := momentAt decide T
    let before := w.pass (momentAt decide) since (T - 1) s
    let after := w.pass (momentAt decide) since T s
    before.cache.entries.get? key = some slot ∧ after = (Session.purge m before).2 ∧
      ∃ reason, (before.cache.Backed T before.scene.signals key → reason = .expired) ∧
        calls decide key (w.ticks since T) s =
          (Evicted.call? ⟨key, slot, reason⟩).toList.map (T, ·) ∧
        ∃ step ∈ Cache.Request.purge.steps m before, step.task = .consult ⟨key, slot, reason⟩ ∧
          after.cache.entries.get? key = step.session.rearmed? m ⟨key, slot, reason⟩

/-- **The sweeper is on time** for every stored entry that has a deadline. -/
theorem exists_onTime {w : Sweeper} (hperiod : 0 < w.period) (since : Instant)
    (h : s.cache.Linked) (hget : s.cache.entries.get? key = some slot) {d : Nat}
    (hd : slot.deadline? s.cache.epoch = some d) :
    ∃ T, w.OnTime decide since s key slot d T := by
  obtain ⟨T, hT⟩ := exists_first hperiod since d
  have hstays : ∀ till : Nat, till < T → Undisturbed decide key d (w.ticks since till) s →
      (purges decide (w.ticks since till) s).cache.entries.get? key = some slot ∧
        calls decide key (w.ticks since till) s = [] := fun till hlt hquiet =>
    purges_of_early h hget hd (early_of_lt hperiod hT hlt) hquiet
  refine ⟨T, hT, hstays, fun hquiet => ?_⟩
  obtain ⟨htick, hafter, hdue⟩ := hT.1
  have hticks := ticks_eq_concat hperiod htick hafter
  rw [hticks, undisturbed_append] at hquiet
  obtain ⟨hearly, -, halone, -⟩ := hquiet
  obtain ⟨hget', hnone⟩ := hstays (T - 1) (Nat.sub_lt_of_pos_le Nat.one_pos
    (Nat.lt_of_le_of_lt (Nat.zero_le since) hafter)) hearly
  obtain ⟨hlinked, hepoch⟩ := linked_purges decide h (w.ticks since (T - 1))
  have hexpired :
      slot.isExpired (purges decide (w.ticks since (T - 1)) s).cache.epoch T = true := by
    unfold Slot.isExpired
    rw [hepoch, hd]
    simpa using hdue
  obtain ⟨reason, hreason, hcalls, hleft⟩ :=
    Session.purge_of_expired (m := momentAt decide T) hlinked hget' hexpired halone
  have hpass : w.pass (momentAt decide) since T s =
      (Session.purge (momentAt decide T) (w.pass (momentAt decide) since (T - 1) s)).2 := by
    unfold pass
    rw [hticks, List.foldl_append]
    rfl
  refine ⟨hget', hpass, reason, hreason, ?_, ?_⟩
  · rw [hticks, calls_append, hnone, List.nil_append]
    unfold calls
    rw [hcalls]
    exact List.append_nil _
  · rw [hpass]
    exact hleft

end Sweeper

/-- What a purge leaves is live, unless a hook puts an entry back that is expired at once. -/
theorem Session.live_purge {V C W : Type} (hooks : Hooks V C W) {now : Instant}
    {s : Session V C W} (hc : s.cache.Linked)
    (hfresh : ∀ step ∈ Cache.Request.purge.steps ⟨now, hooks.decide now⟩ s,
      step.PutsBackFresh ⟨now, hooks.decide now⟩) :
    (Session.purge ⟨now, hooks.decide now⟩ s).2.Live now s.scene.signals :=
  settle_of_steps (Live.of_sweep hc ⟨now, hooks.decide now⟩)
    fun step hmem hlive => hlive.attend (hfresh step hmem)

namespace Commons

variable {ι V C W : Type} [DecidableEq ι]

/-! ## Runs that are swept -/

/-- The sweeper has kept up with a run: at every tick that has come it has purged the cache. -/
def SweptBy (w : Sweeper) (decide : Decisions V C W) (i : ι) (σ : Commons ι V C W)
    (moves : List (Move ι V C W)) : Prop :=
  ∀ t : Nat, w.IsTick t → σ.now < t → t ≤ (σ.run decide moves).now →
    ∃ before after, moves = before ++ .perform i .purge :: after ∧ (σ.run decide before).now = t

/-- Time passes from `now` to `till`, with a purge at each of the ticks and nothing else. -/
def waiting (i : ι) (till now : Instant) : List Instant → List (Move ι V C W)
  | [] => [.advance (till - now)]
  | t :: ticks => .advance (t - now) :: .perform i .purge :: waiting i till t ticks

theorem run_waiting (decide : Decisions V C W) (i : ι) {till : Nat} {ticks : List Instant}
    {σ : Commons ι V C W} (hsorted : (σ.now :: ticks).Pairwise (· < ·))
    (hlast : ∀ t ∈ σ.now :: ticks, t ≤ till) :
    (σ.run decide (waiting i till σ.now ticks)).now = till ∧
      (σ.run decide (waiting i till σ.now ticks)).session i =
        Sweeper.purges decide ticks (σ.session i) ∧
      ∀ t ∈ ticks, ∃ before after,
        waiting i till σ.now ticks = before ++ .perform i .purge :: after ∧
          (σ.run decide before).now = t := by
  induction ticks generalizing σ with
  | nil =>
    have hle : σ.now ≤ till := hlast σ.now List.mem_cons_self
    exact ⟨Nat.add_sub_cancel' hle, rfl, fun t ht => by cases ht⟩
  | cons t ticks ih =>
    obtain ⟨hfirst, hrest⟩ := List.pairwise_cons.1 hsorted
    have hlt : σ.now < t := hfirst t List.mem_cons_self
    have ht : (σ.step decide (.advance (t - σ.now))).now = t :=
      Nat.add_sub_cancel' (Nat.le_of_lt hlt)
    let τ := (σ.step decide (.advance (t - σ.now))).step decide (.perform i .purge)
    have hnow : τ.now = t := ht
    have hsession : τ.session i =
        (Session.purge (Sweeper.momentAt decide t) (σ.session i)).2 := by
      rw [← ht]
      exact session_afterBegin _ i _ []
    have hτ := ih (σ := τ) (by rwa [hnow])
      fun t' ht' => hlast t' (List.mem_cons_of_mem _ (by rwa [hnow] at ht'))
    rw [hnow, hsession] at hτ
    obtain ⟨htill, hpurges, hserved⟩ := hτ
    refine ⟨htill, hpurges, fun t' ht' => ?_⟩
    rcases List.mem_cons.1 ht' with rfl | ht'
    · exact ⟨[.advance (t' - σ.now)], _, rfl, ht⟩
    · obtain ⟨before, after, heq, hbefore⟩ := hserved t' ht'
      refine ⟨.advance (t - σ.now) :: .perform i .purge :: before, after, ?_, hbefore⟩
      rw [waiting, heq]
      rfl

theorem SweptBy.append {w : Sweeper} {decide : Decisions V C W} {i : ι} {σ : Commons ι V C W}
    {moves more : List (Move ι V C W)} (h : SweptBy w decide i σ moves)
    (hmore : SweptBy w decide i (σ.run decide moves) more) :
    SweptBy w decide i σ (moves ++ more) := by
  intro t htick hafter hupto
  rw [run, List.foldl_append] at hupto
  by_cases hold : t ≤ (σ.run decide moves).now
  · obtain ⟨before, after, rfl, hbefore⟩ := h t htick hafter hold
    exact ⟨before, after ++ more, by simp, hbefore⟩
  · obtain ⟨before, after, rfl, hbefore⟩ := hmore t htick (Nat.lt_of_not_le hold) hupto
    refine ⟨moves ++ before, after, by simp, ?_⟩
    rw [run, List.foldl_append]
    exact hbefore

/-- **Waiting** keeps up too, and to the cache it is a pass of the sweeper. -/
theorem SweptBy.wait {w : Sweeper} (hperiod : 0 < w.period) {decide : Decisions V C W} {i : ι}
    {σ₀ : Commons ι V C W} {moves : List (Move ι V C W)} (h : SweptBy w decide i σ₀ moves)
    {till : Nat} (hle : (σ₀.run decide moves).now ≤ till) :
    let σ := σ₀.run decide moves
    let wait := waiting i till σ.now (w.ticks σ.now till)
    let σ' := σ.run decide wait
    σ'.now = till ∧ SweptBy w decide i σ₀ (moves ++ wait) ∧
      σ'.session i = w.pass (Sweeper.momentAt decide) σ.now till (σ.session i) := by
  intro σ wait σ'
  have hmem : ∀ t, t ∈ w.ticks σ.now till ↔ _ := fun t => Sweeper.mem_ticks hperiod
  have hsorted : (σ.now :: w.ticks σ.now till).Pairwise (· < ·) :=
    List.pairwise_cons.2 ⟨fun t ht => ((hmem t).1 ht).2.1, Sweeper.pairwise_ticks hperiod⟩
  have hlast : ∀ t ∈ σ.now :: w.ticks σ.now till, t ≤ till := by
    intro t ht
    rcases List.mem_cons.1 ht with rfl | ht
    · exact hle
    · exact ((hmem t).1 ht).2.2
  obtain ⟨htill, hpurges, hserved⟩ := run_waiting decide i hsorted hlast
  refine ⟨htill, h.append fun t htick hafter hupto => ?_, hpurges⟩
  exact hserved t ((hmem t).2 ⟨htick, hafter, Nat.le_trans hupto (Nat.le_of_eq htill)⟩)

/-- **The sweeper is on time**, in every run that it keeps up with. Right after each tick no stored
entry is expired, unless a hook that the purge asked has put one back that is, and none holds a
token that had fired before the purge; only a hook that it asked can have fired one since. When from
now on nothing happens but that time passes, the run goes on with a purge at every tick. The
sweeper is then on time for every stored entry that has a deadline, whatever the phase of ticks and
deadlines, and at the tick where the entry leaves it is on time again for what is found under the
key, from that tick on. -/
theorem sweeps_on_time (hooks : Hooks V C W) (flags : ι ↪ Flag) (epochs : ι → Instant)
    (now : Instant) (scene : Scene W) (moves : List (Move ι V C W)) (i : ι) (w : Sweeper)
    (hperiod : 0 < w.period)
    (hswept : SweptBy w hooks.decide i (start flags epochs now scene) moves) :
    let σ₀ := start flags epochs now scene
    let σ := σ₀.run hooks.decide moves
    let s := σ.session i
    (∀ t : Nat, w.IsTick t → now < t → t ≤ σ.now →
      ∃ before after, moves = before ++ .perform i .purge :: after ∧
        let τ := σ₀.run hooks.decide before
        let m := τ.moment hooks.decide
        let left := (τ.step hooks.decide (.perform i .purge)).session i
        τ.now = t ∧
        ((∀ step ∈ Cache.Request.purge.steps m (τ.session i), step.PutsBackFresh m) →
          ∀ key slot, left.cache.entries.get? key = some slot →
            slot.isExpired left.cache.epoch t = false ∧
            slot.hasFired τ.scene.signals = false ∧
            (left.scene.signals.fired = τ.scene.signals.fired →
              slot.hasFired left.scene.signals = false))) ∧
    (∀ till : Nat, σ.now ≤ till →
      let wait := waiting i till σ.now (w.ticks σ.now till)
      let σ' := σ.run hooks.decide wait
      σ'.now = till ∧ SweptBy w hooks.decide i σ₀ (moves ++ wait) ∧
        σ'.session i = w.pass (Sweeper.momentAt hooks.decide) σ.now till s) ∧
    ∀ key slot d, s.cache.entries.get? key = some slot →
      slot.deadline? s.cache.epoch = some d →
        ∃ T, w.OnTime hooks.decide σ.now s key slot d T ∧
          let s' := w.pass (Sweeper.momentAt hooks.decide) σ.now T s
          ∀ slot' d', s'.cache.entries.get? key = some slot' →
            slot'.deadline? s'.cache.epoch = some d' →
              ∃ T', w.OnTime hooks.decide T s' key slot' d' T' := by
  intro σ₀ σ s
  have hlinked : s.cache.Linked := linked_run hooks.decide flags epochs now scene moves i
  refine ⟨fun t htick hafter hupto => ?_, fun till hle => ?_, fun key slot d hget hd => ?_⟩
  · obtain ⟨before, after, hmoves, hbefore⟩ := hswept t htick hafter hupto
    refine ⟨before, after, hmoves, ?_⟩
    intro τ m left
    have hτ : (τ.session i).cache.Linked :=
      linked_run hooks.decide flags epochs now scene before i
    have hleft : left = (Session.purge m (τ.session i)).2 := session_afterBegin τ i _ []
    refine ⟨hbefore, fun hfresh key slot hget => ?_⟩
    have hlive : left.Live τ.now τ.scene.signals := by
      rw [hleft]
      exact Session.live_purge hooks hτ hfresh
    have hunfired := hlive.unfired key slot hget
    refine ⟨hbefore ▸ hlive.unexpired key slot hget, hunfired, fun hsame => ?_⟩
    unfold Slot.hasFired Signals.hasFired at hunfired ⊢
    rwa [hsame]
  · exact hswept.wait hperiod hle
  · obtain ⟨T, hT⟩ : ∃ T, w.OnTime hooks.decide σ.now s key slot d T :=
      Sweeper.exists_onTime hperiod σ.now hlinked hget hd
    refine ⟨T, hT, fun slot' d' hget' hd' => ?_⟩
    exact Sweeper.exists_onTime hperiod T (Sweeper.linked_purges _ hlinked _).1 hget' hd'

/-- Every entry is put back, for two and a half milliseconds more. -/
def repeated : Decisions String Unit Unit := fun now _ _ value _ scene =>
  (.reinsert value { expiration := .absolute (now + 2500000), hook := some () }, scene)

theorem orderly_repeated (now : Instant) (hook : Unit) (key value : String) (reason : Reason)
    (scene : Scene Unit) :
    scene.signals.Leads (repeated now hook key value reason scene).2.signals :=
  .refl _

def repeating : Hooks String Unit Unit := ⟨repeated, orderly_repeated⟩

/-- Ticks every two milliseconds. -/
def clockwork : Sweeper := ⟨0, .ofMillis 2⟩

/-- An entry is put in, and there is a tick before its deadline. -/
def polled : List (Move Unit String Unit Unit) :=
  [.perform () (.insert "poll" "seen" { expiration := .absolute 2500000, hook := some () }),
    .advance 2000000, .perform () .purge, .advance 1000000]

theorem session_polled : (alone.run repeating.decide polled).session () =
    ⟨{ epoch := 0, flag := ⟨0⟩, hint := some 2,
       entries := ⟨[("poll", ⟨"seen", { expiration := .absolute 2500000, hook := some () }, 0⟩)]⟩ },
      { journal := [.stored "poll"], world := () }⟩ := by
  simp [run, polled, step, alone, start, session, moment, after, repeating, Cache.Request.perform,
    Session.insert, Session.purge, Session.consultAll, Session.commit, Cache.place, Cache.cleared,
    Cache.detach, Cache.refuses, Cache.link, Cache.sweep, Cache.doomed, Cache.evictEach,
    Cache.nextDeadline, Cache.earlier, Cache.hintFor, Cache.lastHint, Cache.millis, Slot.doom?,
    Slot.hasFired, Slot.isExpired, Slot.deadline?, Scene.noteIf, Scene.note, Signals.lower,
    Table.get?, Table.put, Table.erase, Table.empty, Cache.Index.register]
  rfl

theorem sweptBy_polled : SweptBy clockwork repeating.decide () alone polled := by
  rintro t ⟨k, hk, rfl⟩ - hupto
  have hone : k = 1 := by
    have hle : 0 + k * 2000000 ≤ 3000000 := hupto
    omega
  subst hone
  exact ⟨polled.take 2, [.advance 1000000], rfl, rfl⟩

/-- The entry is over at the next tick. It is asked about once, and is put back. -/
theorem pass_polled :
    let s := (alone.run repeating.decide polled).session ()
    let m := Sweeper.momentAt repeating.decide 4000000
    clockwork.ticks 3000000 4000000 = [4000000] ∧
    (Cache.Request.purge.steps m s).map Session.Step.task =
      [.consult ⟨"poll", ⟨"seen", { expiration := .absolute 2500000, hook := some () }, 0⟩,
        .expired⟩] ∧
    (Session.purge m s).2.cache.entries.get? "poll" =
      some ⟨"seen", { expiration := .absolute 6500000, hook := some () }, 4⟩ := by
  rw [session_polled]
  refine ⟨by decide, ?_, ?_⟩ <;>
    simp [repeating, repeated, Session.purge, Session.consultAll, Session.settle_cons,
      Session.steps_cons, Session.attend, Session.commit, Session.swept, Sweeper.momentAt,
      Cache.Request.steps, Cache.Request.begin, Cache.place, Cache.cleared, Cache.detach,
      Cache.refuses, Cache.link, Cache.sweep, Cache.doomed, Cache.evictEach, Cache.cascade,
      Cache.nextDeadline, Cache.millis, Cache.Index.unregister, Cache.Index.dependentsOf,
      Cache.Index.register, Slot.doom?, Slot.hasFired, Slot.isExpired, Slot.deadline?, Table.get?,
      Table.put, Table.erase, Table.empty]

theorem first_clockwork {since d k : Nat} (hk : 1 ≤ k) (hafter : since < k * 2000000)
    (hdue : d ≤ k * 2000000) (hfirst : (k - 1) * 2000000 ≤ since ∨ (k - 1) * 2000000 < d) :
    IsLeast {t : Nat | clockwork.IsTick t ∧ since < t ∧ d ≤ t} (k * 2000000) := by
  have htick : ∀ j : Nat, clockwork.start + j * clockwork.period = j * 2000000 :=
    fun j => Nat.zero_add _
  refine ⟨⟨⟨k, hk, (htick k).symm⟩, hafter, hdue⟩, ?_⟩
  rintro t ⟨⟨j, hj, rfl⟩, hsince, hd⟩
  rw [htick] at hsince hd ⊢
  omega

/-- The entry stands at three milliseconds, with its deadline half a millisecond behind it: the tick
at four is the first to come. The entry leaves there, and what is put back leaves at eight. -/
theorem sweeps_on_time_polled :
    let s := (alone.run repeating.decide polled).session ()
    let entry : Slot String Unit :=
      ⟨"seen", { expiration := .absolute 2500000, hook := some () }, 0⟩
    let s' := clockwork.pass (Sweeper.momentAt repeating.decide) 3000000 4000000 s
    (0 < clockwork.period ∧ SweptBy clockwork repeating.decide () alone polled) ∧
      clockwork.OnTime repeating.decide 3000000 s "poll" entry 2500000 4000000 ∧
      Sweeper.calls repeating.decide "poll" (clockwork.ticks 3000000 4000000) s =
        [(4000000, ⟨(), "poll", "seen", .expired⟩)] ∧
      clockwork.OnTime repeating.decide 4000000 s' "poll"
        ⟨"seen", { expiration := .absolute 6500000, hook := some () }, 4⟩ 6500000 8000000 := by
  intro s entry s'
  have hperiod : 0 < clockwork.period := by decide
  have hget : s.cache.entries.get? "poll" = some entry := by
    rw [show s = _ from session_polled]
    rfl
  obtain ⟨hticks, htasks, hput⟩ := pass_polled
  obtain ⟨-, -, hon⟩ := sweeps_on_time repeating ⟨fun _ => ⟨0⟩, fun _ _ _ => rfl⟩ (fun _ => 0) 0
    { world := () } polled () clockwork hperiod sweptBy_polled
  obtain ⟨T, hT, hnext⟩ := hon "poll" entry 2500000 hget rfl
  obtain rfl : T = 4000000 :=
    hT.first.unique (first_clockwork (k := 2) (by decide) (by decide) (by decide) (by decide))
  have hput' : s'.cache.entries.get? "poll" =
      some ⟨"seen", { expiration := .absolute 6500000, hook := some () }, 4⟩ := by
    rw [show s' = (clockwork.ticks 3000000 4000000).foldl _ s from rfl, hticks]
    exact hput
  obtain ⟨T', hT'⟩ := hnext _ 6500000 hput' rfl
  obtain rfl : T' = 8000000 :=
    hT'.first.unique (first_clockwork (k := 4) (by decide) (by decide) (by decide) (by decide))
  have htask : ∀ step ∈ Cache.Request.purge.steps (Sweeper.momentAt repeating.decide 4000000) s,
      step.task = .consult ⟨"poll", entry, .expired⟩ := by
    intro step hstep
    have hmem := List.mem_map_of_mem (f := Session.Step.task) hstep
    rw [htasks] at hmem
    exact List.mem_singleton.1 hmem
  have hquiet : Sweeper.Undisturbed repeating.decide "poll" 2500000
      (clockwork.ticks 3000000 4000000) s := by
    rw [hticks]
    refine ⟨fun hearly => absurd hearly (by decide), fun step hstep other hother => ?_, trivial⟩
    rw [htask step hstep] at hother
    cases hother
  obtain ⟨-, -, reason, -, hcalls, step, hstep, hsame, -⟩ := hT.leaves hquiet
  have hreason : reason = .expired := by
    have hconsult := hsame.symm.trans (htask step hstep)
    cases hconsult
    rfl
  rw [hreason] at hcalls
  exact ⟨⟨hperiod, sweptBy_polled⟩, hT, hcalls, hT'⟩

end Commons

end Templating
