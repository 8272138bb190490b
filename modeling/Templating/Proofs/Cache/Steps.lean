import Templating.Proofs.Cache.Commons

/-!
# The steps of a piece of work

`Session.settle` is a well-founded recursion, and so all one sees of it is its end.
`Session.steps` lists what it does on the way: each task, with the session in which it is attended
to. Statements about whatever happens while hooks are asked are statements about this list: how
often they are asked, what they ask to be put back, what is stored.

As moves of caches in a common scene, a request is what it begins with and as many tasks as it has
steps; none of its own is left behind (`Commons.perform_eq_run`).
-/

namespace Templating

namespace Session

variable {V C W : Type}

/-- A task, with the session in which it is attended to. -/
structure Step (V C W : Type) where
  session : Session V C W
  task : Task V C

/-! ## What a step does -/

/-- The scene when an evicted entry was counted and its hook, if it has one, was asked. -/
def answered (m : Moment V C W) (s : Session V C W) (e : Evicted V C) : Scene W :=
  match e.slot.options.hook with
  | none => s.scene.note (.evicted e.key e.reason.cause)
  | some hook => (m.decide hook e.key e.slot.value e.reason (s.asking e)).2

/-- What the hook of an evicted entry asks to be put back under its key. -/
def reinsertion? (m : Moment V C W) (s : Session V C W) (e : Evicted V C) :
    Option (V × Options C) :=
  e.slot.options.hook.bind fun hook =>
    match (m.decide hook e.key e.slot.value e.reason (s.asking e)).1 with
    | .reinsert value options => some (value, options)
    | .remove _ => none

section Attend

variable {m : Moment V C W} {s : Session V C W} {e : Evicted V C}

theorem attend_of_reinsertion {value : V} {options : Options C}
    (h : s.reinsertion? m e = some (value, options)) :
    s.attend m (.consult e) =
      ({ s with scene := s.answered m e }.commit e.key
          (s.cache.place m.now (s.answered m e).signals e.key value options),
        (s.cache.place m.now (s.answered m e).signals e.key value options).evicted.map
          .consult) := by
  unfold reinsertion? at h
  obtain ⟨hook, hhook, hanswer⟩ := Option.bind_eq_some_iff.1 h
  have hscene : s.answered m e =
      (m.decide hook e.key e.slot.value e.reason (s.asking e)).2 := by
    simp only [answered, hhook]
  rcases hd : m.decide hook e.key e.slot.value e.reason (s.asking e) with ⟨action, scene⟩
  rw [hd] at hanswer hscene
  cases action with
  | remove also => cases hanswer
  | reinsert v o =>
    cases hanswer
    rw [hscene]
    exact attend_reinsertion hhook hd

/-- An entry that is not put back leaves at most the removal of other keys behind. -/
theorem attend_of_no_reinsertion (h : s.reinsertion? m e = none) :
    ∃ also : List String, s.attend m (.consult e) =
      ({ s with scene := s.answered m e }, also.map .remove) := by
  cases hhook : e.slot.options.hook with
  | none =>
    refine ⟨[], ?_⟩
    simp only [answered, hhook]
    exact attend_silent hhook
  | some hook =>
    rcases hd : m.decide hook e.key e.slot.value e.reason (s.asking e) with ⟨action, scene⟩
    simp only [reinsertion?, hhook, Option.bind_some, hd] at h
    simp only [answered, hhook, hd]
    cases action with
    | reinsert value options => cases h
    | remove also => exact ⟨also, attend_removal hhook hd⟩

end Attend

/-- A step consumes entries that are stored or wait, or tasks. -/
theorem attend_lt (m : Moment V C W) (s : Session V C W) (task : Task V C)
    (tasks : List (Task V C)) :
    Prod.Lex (· < ·) (· < ·)
      ((s.attend m task).1.cache.size + waiting ((s.attend m task).2 ++ tasks),
        ((s.attend m task).2 ++ tasks).length)
      (s.cache.size + waiting (task :: tasks), (task :: tasks).length) := by
  cases task with
  | consult e =>
    cases h : s.reinsertion? m e with
    | none =>
      obtain ⟨also, hattend⟩ := attend_of_no_reinsertion h
      rw [hattend]
      exact Prod.Lex.left _ _ (by simp [waiting, waiting_removes])
    | some p =>
      obtain ⟨value, options⟩ := p
      rw [attend_of_reinsertion h]
      simp only [commit, waiting_consults, List.length_append, List.length_map,
        List.length_cons, waiting]
      rcases s.cache.size_place m.now (s.answered m e).signals e.key value options with
        ⟨hnil, hsize⟩ | hsize
      · rw [Prod.lex_def, hnil, List.length_nil]
        simp only
        omega
      · exact Prod.Lex.left _ _ (by omega)
  | remove key =>
    cases hd : s.cache.detach key with
    | none =>
      rw [attend_absent hd]
      exact Prod.Lex.right _ (by simp)
    | some d =>
      have hlt := Cache.size_detach_lt hd
      rw [attend_stored hd]
      refine Prod.Lex.left _ _ ?_
      simp only [waiting_consults, waiting]
      omega

/-- The entries that wait to be asked. -/
def waitingEntries : List (Task V C) → List (Evicted V C)
  | [] => []
  | .consult e :: tasks => e :: waitingEntries tasks
  | .remove _ :: tasks => waitingEntries tasks

theorem waitingEntries_consults (evicted : List (Evicted V C)) (tasks : List (Task V C)) :
    waitingEntries (evicted.map .consult ++ tasks) = evicted ++ waitingEntries tasks := by
  induction evicted with
  | nil => rfl
  | cons e evicted ih => exact congrArg (e :: ·) ih

theorem waitingEntries_map_consult (evicted : List (Evicted V C)) :
    waitingEntries (evicted.map .consult : List (Task V C)) = evicted := by
  have h := waitingEntries_consults evicted ([] : List (Task V C))
  rw [List.append_nil] at h
  exact h.trans (List.append_nil evicted)

theorem waitingEntries_removes (keys : List String) (tasks : List (Task V C)) :
    waitingEntries (keys.map .remove ++ tasks) = waitingEntries tasks := by
  induction keys with
  | nil => rfl
  | cons key keys ih => exact ih

theorem length_waitingEntries (tasks : List (Task V C)) :
    (waitingEntries tasks).length = waiting tasks := by
  induction tasks with
  | nil => rfl
  | cons task tasks ih =>
    cases task with
    | consult e => exact congrArg (· + 1) ih
    | remove key => exact ih

/-! ## All steps -/

/-- The steps by which tasks are settled, in order. -/
def steps (m : Moment V C W) (s : Session V C W) : List (Task V C) → List (Step V C W)
  | [] => []
  | task :: tasks => ⟨s, task⟩ :: steps m (s.attend m task).1 ((s.attend m task).2 ++ tasks)
termination_by tasks => (s.cache.size + waiting tasks, tasks.length)
decreasing_by exact attend_lt m s task tasks

@[simp] theorem steps_nil (m : Moment V C W) (s : Session V C W) : s.steps m [] = [] := by
  rw [steps]

theorem steps_cons (m : Moment V C W) (s : Session V C W) (task : Task V C)
    (tasks : List (Task V C)) :
    s.steps m (task :: tasks) =
      ⟨s, task⟩ :: (s.attend m task).1.steps m ((s.attend m task).2 ++ tasks) := by
  rw [steps]

theorem settle_cons (m : Moment V C W) (s : Session V C W) (task : Task V C)
    (tasks : List (Task V C)) :
    s.settle m (task :: tasks) =
      (s.attend m task).1.settle m ((s.attend m task).2 ++ tasks) := by
  cases task with
  | consult e =>
    rw [settle]
    simp only [attend]
    cases e.slot.options.hook with
    | none => rfl
    | some hook =>
      simp only
      rcases m.decide hook e.key e.slot.value e.reason
        ((s.scene.note (.evicted e.key e.reason.cause)).note (.consulted e.key e.reason)) with
        ⟨action, scene⟩
      cases action <;> rfl
  | remove key =>
    rw [settle]
    cases hd : s.cache.detach key with
    | none => rw [attend_absent hd]; rfl
    | some d => rw [attend_stored hd]

/-- **Every step** starts from what the steps before it have kept. -/
theorem forall_steps {m : Moment V C W} {P : Session V C W → List (Task V C) → Prop}
    (hstep : ∀ s task tasks, P s (task :: tasks) →
      P (s.attend m task).1 ((s.attend m task).2 ++ tasks))
    {s : Session V C W} {tasks : List (Task V C)} (h : P s tasks) :
    ∀ step ∈ s.steps m tasks, ∃ rest, P step.session (step.task :: rest) := by
  fun_induction steps m s tasks with
  | case1 s => intro step hmem; cases hmem
  | case2 s task tasks ih =>
    intro step hmem
    rcases List.mem_cons.1 hmem with rfl | hmem
    · exact ⟨tasks, h⟩
    · exact ih (hstep s task tasks h) step hmem

/-- What every step of some work keeps, the whole work keeps. -/
theorem settle_of_steps {m : Moment V C W} {P : Session V C W → Prop} {s : Session V C W}
    {tasks : List (Task V C)} (h : P s)
    (hstep : ∀ step ∈ s.steps m tasks, P step.session → P (step.session.attend m step.task).1) :
    P (s.settle m tasks) := by
  fun_induction steps m s tasks with
  | case1 s =>
    rw [settle_nil]
    exact h
  | case2 s task tasks ih =>
    rw [settle_cons]
    exact ih (hstep ⟨s, task⟩ List.mem_cons_self h)
      fun step hmem => hstep step (List.mem_cons_of_mem _ hmem)

/-- **A budget**: when each step that counts takes one from a potential and no step adds to it, no
more steps count than the potential is at the start. -/
theorem countP_steps_le {m : Moment V C W} {P : Session V C W → List (Task V C) → Prop}
    (counts : Step V C W → Bool) (potential : Session V C W → List (Task V C) → Nat)
    (hkept : ∀ s task tasks, P s (task :: tasks) →
      P (s.attend m task).1 ((s.attend m task).2 ++ tasks))
    (hpaid : ∀ s task tasks, P s (task :: tasks) →
      (counts ⟨s, task⟩).toNat + potential (s.attend m task).1 ((s.attend m task).2 ++ tasks) ≤
        potential s (task :: tasks))
    {s : Session V C W} {tasks : List (Task V C)} (h : P s tasks) :
    (s.steps m tasks).countP counts ≤ potential s tasks := by
  fun_induction steps m s tasks with
  | case1 s => exact Nat.zero_le _
  | case2 s task tasks ih =>
    have hcost := hpaid s task tasks h
    have hrest := ih (hkept s task tasks h)
    rw [List.countP_cons]
    cases hcounts : counts ⟨s, task⟩ with
    | false => simp only [hcounts, Bool.toNat_false, Bool.false_eq_true, if_false] at hcost ⊢; omega
    | true => simp only [hcounts, Bool.toNat_true, if_true] at hcost ⊢; omega

end Session

/-! ## Steps as moves -/

namespace Cache.Request

variable {V C W : Type}

/-- The steps by which what a request begins with is settled. -/
def steps (m : Moment V C W) (s : Session V C W) (r : Cache.Request V C) :
    List (Session.Step V C W) :=
  (r.begin m s).1.steps m ((r.begin m s).2.map .consult)

/-- A request other than a read settles what it begins with. -/
theorem perform_eq_settle (m : Moment V C W) (s : Session V C W) {r : Cache.Request V C}
    (hget : ∀ key, r ≠ .get key) (hlook : ∀ key, r ≠ .look key) :
    r.perform m s = (r.begin m s).1.settle m ((r.begin m s).2.map .consult) := by
  cases r with
  | insert key value options => rfl
  | insertIfAbsent key value options =>
    simp only [perform, begin, Session.insertIfAbsent]
    split
    · simp
    · rfl
  | get key => exact absurd rfl (hget key)
  | look key => exact absurd rfl (hlook key)
  | remove key =>
    simp only [perform, begin, Session.remove]
    cases s.cache.detach key with
    | none => simp
    | some d => rfl
  | purge => rfl
  | clear => simp [perform, begin]

end Cache.Request

namespace Commons

variable {ι V C W : Type} [DecidableEq ι]

/-- Tasks about one cache are done by attending to as many tasks as there are steps, whatever waits
behind them. -/
theorem run_attends (decide : Decisions V C W) (σ : Commons ι V C W) (i : ι)
    (s : Session V C W) (tasks : List (Session.Task V C)) :
    (σ.afterBegin i s tasks).run decide
        (List.replicate (s.steps (σ.moment decide) tasks).length .attend) =
      σ.after i (s.settle (σ.moment decide) tasks) := by
  generalize hm : σ.moment decide = m
  fun_induction Session.steps m s tasks with
  | case1 s => rw [Session.settle_nil]; rfl
  | case2 s task tasks ih =>
    have hone : (σ.afterBegin i s (task :: tasks)).step decide .attend =
        σ.afterBegin i (s.attend m task).1 ((s.attend m task).2 ++ tasks) := by
      rw [step_attend decide rfl, session_afterBegin, ← hm]
      simp [afterBegin, after, moment]
    rw [List.length_cons, List.replicate_succ, run, List.foldl_cons, hone, Session.settle_cons]
    exact ih

/-- A request other than a read is what it begins with, and as many tasks as it has steps. -/
theorem perform_eq_run (decide : Decisions V C W) (σ : Commons ι V C W) (i : ι)
    {r : Cache.Request V C} (hget : ∀ key, r ≠ .get key) (hlook : ∀ key, r ≠ .look key) :
    σ.step decide (.perform i r) = σ.run decide (.begin i r ::
      List.replicate (r.steps (σ.moment decide) (σ.session i)).length .attend) := by
  rw [run, List.foldl_cons]
  refine Eq.trans ?_ (run_attends decide σ i (r.begin (σ.moment decide) (σ.session i)).1
    ((r.begin (σ.moment decide) (σ.session i)).2.map .consult)).symm
  exact congrArg (σ.after i) (Cache.Request.perform_eq_settle _ _ hget hlook)

end Commons

end Templating
