import Templating.Cache.Session
import Templating.Proofs.Cache.Upkeep

/-!
# Settling step by step

`Session.attend` does one task and answers what is to be done before the others; `settle` is its
repetition. What one step keeps, the whole work keeps (`settle_induction`). This
needs no measure, since `settle` is known to end.
-/

namespace Templating.Session

variable {V C W : Type}

/-- Does one task, and answers what is to be done before the others. -/
def attend (m : Moment V C W) (s : Session V C W) : Task V C → Session V C W × List (Task V C)
  | .consult e =>
    let scene := s.scene.note (.evicted e.key e.reason.cause)
    match e.slot.options.hook with
    | none => ({ s with scene }, [])
    | some hook =>
      let (action, scene) :=
        m.decide hook e.key e.slot.value e.reason (scene.note (.consulted e.key e.reason))
      match action with
      | .remove also => ({ s with scene }, also.map .remove)
      | .reinsert value options =>
        let p := s.cache.place m.now scene.signals e.key value options
        ({ s with scene }.commit e.key p, p.evicted.map .consult)
  | .remove key =>
    match s.cache.detach key with
    | none => (s, [])
    | some d => (⟨d.cache, s.scene.note (.evicted key .removed)⟩, d.evicted.map .consult)

/-- The scene in which the hook of an evicted entry is asked. -/
def asking (s : Session V C W) (e : Evicted V C) : Scene W :=
  (s.scene.note (.evicted e.key e.reason.cause)).note (.consulted e.key e.reason)

section Attend

variable {m : Moment V C W} {s : Session V C W}

theorem attend_silent {e : Evicted V C} (h : e.slot.options.hook = none) :
    s.attend m (.consult e) =
      ({ s with scene := s.scene.note (.evicted e.key e.reason.cause) }, []) := by
  simp only [attend, h]

theorem attend_removal {e : Evicted V C} {hook : C} {also : List String} {scene : Scene W}
    (h : e.slot.options.hook = some hook)
    (hd : m.decide hook e.key e.slot.value e.reason (s.asking e) = (.remove also, scene)) :
    s.attend m (.consult e) = ({ s with scene }, also.map .remove) := by
  unfold asking at hd
  simp only [attend, h, hd]

theorem attend_reinsertion {e : Evicted V C} {hook : C} {value : V} {options : Options C}
    {scene : Scene W} (h : e.slot.options.hook = some hook)
    (hd : m.decide hook e.key e.slot.value e.reason (s.asking e) =
      (.reinsert value options, scene)) :
    s.attend m (.consult e) =
      ({ s with scene }.commit e.key (s.cache.place m.now scene.signals e.key value options),
        (s.cache.place m.now scene.signals e.key value options).evicted.map .consult) := by
  unfold asking at hd
  simp only [attend, h, hd]

theorem attend_absent {key : String} (h : s.cache.detach key = none) :
    s.attend m (.remove key) = (s, []) := by
  simp only [attend, h]

theorem attend_stored {key : String} {d : Cache.Detached V C} (h : s.cache.detach key = some d) :
    s.attend m (.remove key) =
      (⟨d.cache, s.scene.note (.evicted key .removed)⟩, d.evicted.map .consult) := by
  simp only [attend, h]

end Attend

@[simp] theorem settle_nil (m : Moment V C W) (s : Session V C W) : s.settle m [] = s := by
  rw [settle]

/-- What is kept by every single task is kept by the whole work. -/
theorem settle_induction {m : Moment V C W} {motive : Session V C W → List (Task V C) → Prop}
    (step : ∀ s task tasks, motive s (task :: tasks) →
      motive (s.attend m task).1 ((s.attend m task).2 ++ tasks))
    (s : Session V C W) (tasks : List (Task V C)) (h : motive s tasks) :
    motive (s.settle m tasks) [] := by
  fun_induction settle m s tasks with
  | case1 s => exact h
  | case2 s e tasks scene hhook ih =>
    have hstep := step s _ tasks h
    rw [attend_silent hhook] at hstep
    exact ih hstep
  | case3 s e tasks scene hook hhook also scene' hdecide ih =>
    have hstep := step s _ tasks h
    rw [attend_removal hhook hdecide] at hstep
    exact ih hstep
  | case4 s e tasks scene hook hhook value options scene' p hdecide ih =>
    have hstep := step s _ tasks h
    rw [attend_reinsertion hhook hdecide] at hstep
    exact ih hstep
  | case5 s key tasks hd ih =>
    have hstep := step s _ tasks h
    rw [attend_absent hd] at hstep
    exact ih hstep
  | case6 s key tasks d hd ih =>
    have hstep := step s _ tasks h
    rw [attend_stored hd] at hstep
    exact ih hstep

/-! ## Properties that every operation keeps -/

/-- The session when a purge has taken out what has to leave and has not asked any hook. -/
def swept (m : Moment V C W) (s : Session V C W) : Session V C W :=
  ⟨(s.cache.sweep m.now (s.scene.signals.lower s.cache.flag)).1,
    { s.scene with signals := s.scene.signals.lower s.cache.flag }⟩

/-- The second half of a read, behind the purge. -/
def look (m : Moment V C W) (key : String) : Work V C W (Option V) := fun s =>
  match s.cache.entries.get? key with
  | none => (none, { s with scene := s.scene.note (.miss key) })
  | some slot =>
    if slot.isLive s.cache.epoch m.now s.scene.signals then
      (some slot.value, ⟨s.cache.touch m.now key, s.scene.note (.hit key)⟩)
    else
      let s := (purge m s).2
      (none, { s with scene := s.scene.note (.miss key) })

theorem get_eq_look (m : Moment V C W) (key : String) (s : Session V C W) :
    get m key s = look m key (s.maintain m) := rfl

/-- A property of sessions that every elementary change keeps: to note an event, to ask a hook, to
put an entry in, to take one out with its dependents, to sweep, to read, and to drop everything. -/
structure Kept (m : Moment V C W) (P : Session V C W → Prop) : Prop where
  note : ∀ s e, P s → P { s with scene := s.scene.note e }
  decide : ∀ s hook key value reason, P s →
    P { s with scene := (m.decide hook key value reason s.scene).2 }
  place : ∀ s key value options, P s →
    P (s.commit key (s.cache.place m.now s.scene.signals key value options))
  detach : ∀ s key d, P s → s.cache.detach key = some d → P { s with cache := d.cache }
  sweep : ∀ s, P s → P (s.swept m)
  touch : ∀ s key, P s → P { s with cache := s.cache.touch m.now key }
  dropAll : ∀ s, P s → P { s with cache := s.cache.dropAll }

namespace Kept

variable {m : Moment V C W} {P : Session V C W → Prop} (k : Kept m P) {s : Session V C W}

include k

theorem attend (h : P s) (task : Task V C) : P (s.attend m task).1 := by
  cases task with
  | consult e =>
    have hnoted := k.note _ (.evicted e.key e.reason.cause) h
    cases hhook : e.slot.options.hook with
    | none =>
      rw [attend_silent hhook]
      exact hnoted
    | some hook =>
      have hasked : P { s with scene := (m.decide hook e.key e.slot.value e.reason
          (s.asking e)).2 } :=
        k.decide _ hook e.key e.slot.value e.reason (k.note _ (.consulted e.key e.reason) hnoted)
      rcases hdecide : m.decide hook e.key e.slot.value e.reason (s.asking e) with ⟨action, scene⟩
      rw [hdecide] at hasked
      cases action with
      | remove also =>
        rw [attend_removal hhook hdecide]
        exact hasked
      | reinsert value options =>
        rw [attend_reinsertion hhook hdecide]
        exact k.place _ e.key value options hasked
  | remove key =>
    cases hd : s.cache.detach key with
    | none =>
      rw [attend_absent hd]
      exact h
    | some d =>
      rw [attend_stored hd]
      exact k.note _ (.evicted key .removed) (k.detach s key d h hd)

theorem settle (h : P s) (tasks : List (Task V C)) : P (s.settle m tasks) :=
  settle_induction (motive := fun s _ => P s) (fun _ task _ hs => k.attend hs task) s tasks h

theorem purge (h : P s) : P (Session.purge m s).2 :=
  k.settle (k.sweep s h) _

theorem maintain (h : P s) : P (s.maintain m) := by
  unfold Session.maintain
  split
  · exact k.purge h
  · exact h

theorem look (h : P s) (key : String) : P (Session.look m key s).2 := by
  unfold Session.look
  split
  · exact k.note _ _ h
  · split
    · exact k.note _ _ (k.touch _ key h)
    · exact k.note _ _ (k.purge h)

theorem get (h : P s) (key : String) : P (Session.get m key s).2 := by
  rw [get_eq_look]
  exact k.look (k.maintain h) key

theorem insert (h : P s) (key : String) (value : V) (options : Options C) :
    P (Session.insert m key value options s).2 :=
  k.settle (k.place s key value options h) _

theorem insertIfAbsent (h : P s) (key : String) (value : V) (options : Options C) :
    P (Session.insertIfAbsent m key value options s).2 := by
  unfold Session.insertIfAbsent
  split
  · exact h
  · exact k.insert h key value options

theorem remove (h : P s) (key : String) : P (Session.remove m key s).2 := by
  unfold Session.remove
  cases hd : s.cache.detach key with
  | none => exact h
  | some d => exact k.settle (k.note _ _ (k.detach s key d h hd)) _

theorem clear (h : P s) : P (Session.clear s).2 :=
  k.note _ _ (k.dropAll s h)

end Kept

end Templating.Session
