import Templating.Proofs.Cache.Accounts
import Templating.Proofs.Cache.Expiry

/-!
# One entry in one purge

A purge asks the hook of one entry after the other, and each may put its own entry back or have
others removed. What does this mean for the entry under one key? As long as nothing is removed that
it depends on, an entry that is stored stays as it is and is not asked about
(`Session.settle_of_stored`), and a key that is not in play stays out of it
(`Session.settle_of_absent`). So an entry that waits is asked about once, and what is found under
its key afterwards is what its hook has put back (`Session.settle_of_waiting`).

`Session.purge_of_backed` and `Session.purge_of_expired` put this together for an entry before its
deadline and for one that is over.
-/

namespace Templating

open Relation

namespace Session

variable {V C W : Type} {m : Moment V C W} {s : Session V C W} {task : Task V C}
  {tasks : List (Task V C)} {key : String} {slot : Slot V C} {e : Evicted V C}

/-- The task does not remove the entry under `key`, nor what it depends on. -/
def Step.LeavesAlone (key : String) (step : Step V C W) : Prop :=
  ∀ other, step.task = .remove other →
    (step.session.cache.entries.get? key).isSome = true → step.session.cache.Apart key other

/-- The calls of hooks for the entry under `key`. -/
def callsAbout (key : String) (steps : List (Step V C W)) : List (Asked V C) :=
  (steps.filterMap (·.task.call?)).filter (·.key == key)

/-- The entry that is found under the key of an evicted one when its hook was asked. -/
def rearmed? (m : Moment V C W) (s : Session V C W) (e : Evicted V C) : Option (Slot V C) :=
  (s.reinsertion? m e).bind fun (value, options) =>
    if (s.cache.place m.now (s.answered m e).signals e.key value options).stored = true then
      some ⟨value, options, s.cache.millis m.now⟩
    else none

/-! ## Calls -/

theorem key_of_call? {asked : Asked V C} (h : task.call? = some asked) : asked.key = task.key := by
  cases task with
  | consult e =>
    obtain ⟨hook, -, rfl⟩ := Option.map_eq_some_iff.1 h
    rfl
  | remove key => cases h

/-- A step for another key makes no call about this one. -/
theorem callsAbout_cons_of_ne {step : Step V C W} (steps : List (Step V C W))
    (h : step.task.call? = none ∨ step.task.key ≠ key) :
    callsAbout key (step :: steps) = callsAbout key steps := by
  unfold callsAbout
  rw [List.filterMap_cons]
  cases hcall : step.task.call? with
  | none => rfl
  | some asked =>
    rw [hcall] at h
    have hne : asked.key ≠ key := by
      rw [key_of_call? hcall]
      exact h.resolve_left (by simp)
    simp [hne]

theorem callsAbout_cons_consult (steps : List (Step V C W)) :
    callsAbout e.key (⟨s, .consult e⟩ :: steps) = e.call?.toList ++ callsAbout e.key steps := by
  unfold callsAbout
  rw [List.filterMap_cons]
  cases hcall : (Task.consult e).call? with
  | none =>
    rw [show e.call? = none from hcall]
    rfl
  | some asked =>
    rw [show e.call? = some asked from hcall, List.filter_cons_of_pos]
    · rfl
    · exact beq_iff_eq.2 (key_of_call? hcall)

/-! ## A stored entry -/

/-- A step does not change a stored entry, and is not about it. -/
theorem attend_of_stored (h : s.Apart (task :: tasks)) (hget : s.cache.entries.get? key = some slot)
    (halone : Step.LeavesAlone key ⟨s, task⟩) :
    (s.attend m task).1.cache.entries.get? key = some slot ∧
      (task.call? = none ∨ task.key ≠ key) := by
  cases task with
  | consult e =>
    have hnone := h.get?_eq_none
    have hne : key ≠ e.key := by
      rintro rfl
      rw [hget] at hnone
      cases hnone
    refine ⟨?_, .inr hne.symm⟩
    cases hr : s.reinsertion? m e with
    | none =>
      obtain ⟨also, hattend⟩ := attend_of_no_reinsertion hr
      rw [hattend]
      exact hget
    | some p =>
      obtain ⟨value, options⟩ := p
      have hfree : s.cache.detach e.key = none := by
        unfold Cache.detach
        rw [hnone]
        rfl
      rw [attend_of_reinsertion hr]
      refine (Cache.get?_place_of_ne m.now _ e.key value options hne).trans ?_
      rw [Cache.cleared_of_none hfree]
      exact hget
  | remove other =>
    refine ⟨?_, .inl rfl⟩
    have hapart : s.cache.Apart key other := halone other rfl (by simp [hget])
    cases hd : s.cache.detach other with
    | none =>
      rw [attend_absent hd]
      exact hget
    | some d =>
      rw [attend_stored hd]
      exact (hapart.get?_detach h.linked hd).trans hget

/-- **A stored entry stays as it is**, and is not asked about, unless something is removed that it
depends on. -/
theorem settle_of_stored (h : s.Apart tasks) (hget : s.cache.entries.get? key = some slot)
    (halone : ∀ step ∈ s.steps m tasks, step.LeavesAlone key) :
    (s.settle m tasks).cache.entries.get? key = some slot ∧
      callsAbout key (s.steps m tasks) = [] := by
  fun_induction steps m s tasks with
  | case1 s =>
    rw [settle_nil]
    exact ⟨hget, rfl⟩
  | case2 s task tasks ih =>
    obtain ⟨hstays, hcall⟩ := attend_of_stored (m := m) h hget (halone _ List.mem_cons_self)
    rw [settle_cons, callsAbout_cons_of_ne _ hcall]
    exact ih h.attend hstays fun step hstep => halone step (List.mem_cons_of_mem _ hstep)

/-! ## A key out of play -/

theorem not_mem_inPlay : key ∉ s.inPlay tasks ↔
    key ∉ (waitingEntries tasks).map Evicted.key ∧ s.cache.entries.get? key = none := by
  unfold inPlay
  rw [List.mem_append, not_or, ← Option.not_isSome_iff_eq_none, ← Table.mem_keys_iff]
  rfl

/-- **What is neither stored nor waits** does not come back. -/
theorem settle_of_absent (h : s.cache.Linked) (habsent : key ∉ s.inPlay tasks) :
    (s.settle m tasks).cache.entries.get? key = none ∧ callsAbout key (s.steps m tasks) = [] := by
  fun_induction steps m s tasks with
  | case1 s =>
    rw [settle_nil]
    exact ⟨(not_mem_inPlay.1 habsent).2, rfl⟩
  | case2 s task tasks ih =>
    have hcall : task.call? = none ∨ task.key ≠ key := by
      cases task with
      | consult e =>
        refine .inr fun heq => (not_mem_inPlay.1 habsent).1 ?_
        exact List.mem_map.2 ⟨e, List.mem_cons_self, heq⟩
      | remove other => exact .inl rfl
    rw [settle_cons, callsAbout_cons_of_ne _ hcall]
    exact ih ((kept_linked m).attend h task)
      fun hmem => habsent ((inPlay_attend m h task tasks).subset hmem)

/-! ## An entry that waits -/

/-- What the hook of an evicted entry puts back is found under its key, and nothing more waits. -/
theorem attend_of_waiting (h : s.Apart (.consult e :: tasks)) :
    (s.attend m (.consult e)).1.cache.entries.get? e.key = s.rearmed? m e ∧
      waitingEntries ((s.attend m (.consult e)).2 ++ tasks) = waitingEntries tasks := by
  have hnone := h.get?_eq_none
  unfold rearmed?
  cases hr : s.reinsertion? m e with
  | none =>
    obtain ⟨also, hattend⟩ := attend_of_no_reinsertion hr
    rw [hattend, waitingEntries_removes]
    exact ⟨hnone, rfl⟩
  | some p =>
    obtain ⟨value, options⟩ := p
    rw [attend_of_reinsertion hr, (Cache.place_of_none _ _ _ _ _ hnone).2]
    exact ⟨Cache.get?_place_self h.linked m.now _ e.key value options, rfl⟩

/-- An entry that waits behind others waits on. -/
theorem waits_attend (h : s.Apart (task :: tasks)) (he : e ∈ waitingEntries tasks) :
    e ∈ waitingEntries ((s.attend m task).2 ++ tasks) := by
  cases task with
  | consult first =>
    rw [(attend_of_waiting h).2]
    exact he
  | remove other =>
    cases hd : s.cache.detach other with
    | none =>
      rw [attend_absent hd]
      exact he
    | some d =>
      rw [attend_stored hd, waitingEntries_consults]
      exact List.mem_append_right _ he

/-- **An entry that waits is asked about once**, and what is found under its key in the end is what
its hook has put back. -/
theorem settle_of_waiting (h : s.Apart tasks) (he : e ∈ waitingEntries tasks)
    (halone : ∀ step ∈ s.steps m tasks, step.LeavesAlone e.key) :
    callsAbout e.key (s.steps m tasks) = e.call?.toList ∧
      ∃ step ∈ s.steps m tasks, step.task = .consult e ∧
        (s.settle m tasks).cache.entries.get? e.key = step.session.rearmed? m e := by
  fun_induction steps m s tasks with
  | case1 s => cases he
  | case2 s task tasks ih =>
    have hrest : ∀ step ∈ (s.attend m task).1.steps m ((s.attend m task).2 ++ tasks),
        step.LeavesAlone e.key := fun step hstep => halone step (List.mem_cons_of_mem _ hstep)
    rw [settle_cons]
    by_cases htask : task = .consult e
    · subst htask
      obtain ⟨hput, hwaiting⟩ := attend_of_waiting (m := m) h
      obtain ⟨hfirst, -⟩ := List.nodup_cons.1 h.nodup
      have hend : ((s.attend m (.consult e)).1.settle m
            ((s.attend m (.consult e)).2 ++ tasks)).cache.entries.get? e.key = s.rearmed? m e ∧
          callsAbout e.key ((s.attend m (.consult e)).1.steps m
            ((s.attend m (.consult e)).2 ++ tasks)) = [] := by
        cases hrearmed : s.rearmed? m e with
        | some slot =>
          rw [hrearmed] at hput
          exact settle_of_stored h.attend hput hrest
        | none =>
          rw [hrearmed] at hput
          refine settle_of_absent h.attend.linked (not_mem_inPlay.2 ⟨?_, hput⟩)
          rw [hwaiting]
          exact fun hmem => hfirst (List.mem_append_left _ hmem)
      rw [callsAbout_cons_consult, hend.2, List.append_nil]
      exact ⟨rfl, _, List.mem_cons_self, rfl, hend.1⟩
    · have hlater : e ∈ waitingEntries tasks ∧ (task.call? = none ∨ task.key ≠ e.key) := by
        cases task with
        | remove other => exact ⟨he, .inl rfl⟩
        | consult first =>
          rcases List.mem_cons.1 he with rfl | he
          · exact absurd rfl htask
          · obtain ⟨hfirst, -⟩ := List.nodup_cons.1 h.nodup
            refine ⟨he, .inr fun heq => hfirst (List.mem_append_left _ ?_)⟩
            exact List.mem_map.2 ⟨e, he, heq.symm⟩
      obtain ⟨hcalls, step, hstep, hdone⟩ := ih h.attend (waits_attend h hlater.1) hrest
      rw [callsAbout_cons_of_ne _ hlater.2]
      exact ⟨hcalls, step, List.mem_cons_of_mem _ hstep, hdone⟩

/-! ## Purges -/

/-- **Before its deadline** an entry is left alone by a purge, if all that it depends on is live. -/
theorem purge_of_backed (h : s.cache.Linked) (hget : s.cache.entries.get? key = some slot)
    (hbacked : s.cache.Backed m.now s.scene.signals key)
    (hunexpired : slot.isExpired s.cache.epoch m.now = false)
    (halone : ∀ step ∈ Cache.Request.purge.steps m s, step.LeavesAlone key) :
    (purge m s).2.cache.entries.get? key = some slot ∧
      callsAbout key (Cache.Request.purge.steps m s) = [] := by
  have hbacked' : s.cache.Backed m.now (s.scene.signals.lower s.cache.flag) key :=
    ⟨hbacked.unfired, hbacked.parents⟩
  have hstays : (s.swept m).cache.entries.get? key = some slot := by
    refine (hbacked'.get?_sweep h).trans ?_
    rw [hget, Option.filter_some, hunexpired]
    rfl
  exact settle_of_stored (Cache.Request.apart_begin m h .purge).1 hstays halone

/-- A purge evicts an entry that is over. It has expired, unless it was built on what is gone. -/
theorem evicted_of_expired (h : s.cache.Linked) (hget : s.cache.entries.get? key = some slot)
    (hexpired : slot.isExpired s.cache.epoch m.now = true) :
    ∃ reason, ⟨key, slot, reason⟩ ∈ (Cache.Request.purge.begin m s).2 ∧
      (s.cache.Backed m.now s.scene.signals key → reason = .expired) := by
  have hwalk := Cache.evictsEach_evictEach s.cache
    (s.cache.doomed m.now (s.scene.signals.lower s.cache.flag))
  obtain ⟨htakes, hrecords⟩ := hwalk.takesOut h (.refl h)
  obtain ⟨⟨other, slot', reason⟩, he, hkey⟩ := List.mem_map.1
    ((htakes.mem_iff key).2 ⟨key, slot, hget, .inl hexpired, .refl⟩)
  obtain rfl : key = other := hkey.symm
  obtain rfl : slot' = slot := Option.some.inj ((hrecords _ he).1.symm.trans hget)
  refine ⟨reason, he, fun hbacked => ?_⟩
  rcases Cache.doomed_or_orphan h _ he with hdoomed | ⟨parent, hparent, hgone⟩
  · obtain ⟨found, hfound, hdoom⟩ := (Cache.mem_doomed h.distinct).1 hdoomed
    obtain rfl : found = slot' := Option.some.inj (hfound.symm.trans hget)
    have hunfired : found.hasFired (s.scene.signals.lower s.cache.flag) = false :=
      hbacked.unfired found hget
    unfold Slot.doom? at hdoom
    rw [hunfired, hexpired] at hdoom
    exact (Option.some.inj hdoom).symm
  · -- A parent that is live with all that it depends on would have stayed.
    have hdep : s.cache.DependsOn key parent := (h.recorded key slot' hget parent).2 hparent
    obtain ⟨found, hfound, -⟩ := Cache.contains_iff.1 (hbacked.parents parent (.single hdep))
    have hsturdy : s.cache.Sturdy m.now (s.scene.signals.lower s.cache.flag) parent :=
      fun other hreaches => hbacked.parents other (.head' hdep hreaches)
    have hstays := (Cache.get?_sweep h).2 ⟨hfound, hsturdy⟩
    exact nomatch hgone.symm.trans hstays

/-- **After its deadline** an entry leaves in a purge and its hook is asked once. What is found
under its key then is what the hook has put back. -/
theorem purge_of_expired (h : s.cache.Linked) (hget : s.cache.entries.get? key = some slot)
    (hexpired : slot.isExpired s.cache.epoch m.now = true)
    (halone : ∀ step ∈ Cache.Request.purge.steps m s, step.LeavesAlone key) :
    ∃ reason, (s.cache.Backed m.now s.scene.signals key → reason = .expired) ∧
      callsAbout key (Cache.Request.purge.steps m s) =
        (Evicted.call? ⟨key, slot, reason⟩).toList ∧
      ∃ step ∈ Cache.Request.purge.steps m s, step.task = .consult ⟨key, slot, reason⟩ ∧
        (purge m s).2.cache.entries.get? key = step.session.rearmed? m ⟨key, slot, reason⟩ := by
  obtain ⟨reason, he, hreason⟩ := evicted_of_expired (m := m) h hget hexpired
  have hwaits : ⟨key, slot, reason⟩ ∈
      waitingEntries ((Cache.Request.purge.begin m s).2.map Task.consult) := by
    rw [waitingEntries_map_consult]
    exact he
  have hsettled := settle_of_waiting (Cache.Request.apart_begin m h .purge).1 hwaits halone
  exact ⟨reason, hreason, hsettled⟩

end Session

end Templating
