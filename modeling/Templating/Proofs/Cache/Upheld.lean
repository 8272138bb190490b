import Templating.Proofs.Cache.Steps

/-!
# Properties of a cache and of what is left to do

What is stored may be in order only because of what is still to be done: an entry that has to go may
be scheduled for removal, and one that is missing may wait to be put back. Such a property speaks of
the cache and of the tasks together. That it is **settled** (`Session.Settles`) means that each task
keeps it, and **upheld** (`Session.Upheld`) that reads and purges keep it too.

`Work.Answers` says what an operation makes of a session and what it answers. Its rules follow the
way in which operations are put together, so that a property is carried through a whole operation of
an engine. `Work.Takes` is for where the answer does not matter.
-/

namespace Templating

/-! ## Operations on sessions -/

/-- From sessions with `P` the operation comes to answers and sessions with `R`. -/
def Work.Answers {V C W α : Type} (P : Session V C W → Prop) (R : α → Session V C W → Prop)
    (op : Work V C W α) : Prop :=
  ∀ s, P s → R (op s).1 (op s).2

/-- The operation takes sessions with `P` to sessions with `Q`, whatever it answers. -/
def Work.Takes {V C W α : Type} (P Q : Session V C W → Prop) (op : Work V C W α) : Prop :=
  ∀ s, P s → Q (op s).2

namespace Work.Answers

variable {V C W α β : Type} {P : Session V C W → Prop} {R : α → Session V C W → Prop}
  {R' : β → Session V C W → Prop}

theorem bind {op : Work V C W α} {next : α → Work V C W β} (h : Answers P R op)
    (hnext : ∀ a, Answers (R a) R' (next a)) : Answers P R' (op >>= next) :=
  fun s hs => hnext (op s).1 _ (h s hs)

/-- What follows may depend on what is known of the answer. -/
theorem bind_of {T : α → Prop} {op : Work V C W α} {next : α → Work V C W β}
    (h : Answers P (fun a s => T a ∧ R a s) op) (hnext : ∀ a, T a → Answers (R a) R' (next a)) :
    Answers P R' (op >>= next) :=
  fun s hs => hnext (op s).1 (h s hs).1 _ (h s hs).2

/-- Whatever the answer is, it leaves one behind with the same property. -/
theorem takes {Q : Session V C W → Prop} {op : Work V C W α} (h : Answers P R op)
    (hafter : ∀ a s, R a s → Q s) : Takes P Q op :=
  fun s hs => hafter _ _ (h s hs)

end Work.Answers

namespace Work.Takes

variable {V C W α β : Type} {P Q R : Session V C W → Prop}

theorem pure (a : α) : Takes P P (Pure.pure a : Work V C W α) := fun _ h => h

theorem bind {op : Work V C W α} {next : α → Work V C W β} (h : Takes P Q op)
    (hnext : ∀ a, Takes Q R (next a)) : Takes P R (op >>= next) :=
  fun s hs => hnext (op s).1 _ (h s hs)

/-- What follows may depend on what is known of the answer, and what holds then on the session that
was answered. -/
theorem bind_of {S : Session V C W → Session V C W → Prop} {op : Work V C W α}
    {next : α → Work V C W β} (h : ∀ s, P s → S s (op s).2)
    (hnext : ∀ s, P s → Takes (S s) R (next (op s).1)) : Takes P R (op >>= next) :=
  fun s hs => hnext s hs _ (h s hs)

theorem mono {P' Q' : Session V C W → Prop} {op : Work V C W α} (h : Takes P Q op)
    (hbefore : ∀ s, P' s → P s) (hafter : ∀ s, Q s → Q' s) : Takes P' Q' op :=
  fun s hs => hafter _ (h s (hbefore s hs))

theorem get : Takes P P (MonadState.get : Work V C W (Session V C W)) := fun _ h => h

theorem answers {op : Work V C W α} (h : Takes P Q op) : Answers P (fun _ => Q) op := h

/-- What follows may depend on what is known of the answer. -/
theorem bind_answers {S : α → Session V C W → Prop} {op : Work V C W α} {next : α → Work V C W β}
    (h : Answers P S op) (hnext : ∀ a, Takes (S a) R (next a)) : Takes P R (op >>= next) :=
  fun s hs => hnext (op s).1 _ (h s hs)

end Work.Takes

namespace Session

variable {V C W : Type}

theorem world_commit (s : Session V C W) (key : String) (p : Cache.Placed V C) :
    (s.commit key p).scene.world = s.scene.world := by
  unfold commit Scene.noteIf
  split <;> split <;> rfl

/-! ## What tasks keep -/

/-- `I` is kept while tasks are attended to, and the hooks that are asked meanwhile keep `Q`. -/
structure Settles (m : Moment V C W) (I : Cache V C → List (Task V C) → Prop) (Q : W → Prop) :
    Prop where
  /-- An entry without a hook is let go. -/
  silent : ∀ c e tasks, I c (.consult e :: tasks) → e.slot.options.hook = none → I c tasks
  released : ∀ c e tasks hook (scene : Scene W) also, I c (.consult e :: tasks) →
    e.slot.options.hook = some hook →
      (m.decide hook e.key e.slot.value e.reason scene).1 = .remove also →
        I c (also.map .remove ++ tasks)
  renewed : ∀ c e tasks hook (scene : Scene W) signals value options, I c (.consult e :: tasks) →
    e.slot.options.hook = some hook →
      (m.decide hook e.key e.slot.value e.reason scene).1 = .reinsert value options →
        I (c.place m.now signals e.key value options).cache
          ((c.place m.now signals e.key value options).evicted.map .consult ++ tasks)
  absent : ∀ c key tasks, I c (.remove key :: tasks) → c.detach key = none → I c tasks
  detached : ∀ c key d tasks, I c (.remove key :: tasks) → c.detach key = some d →
    I d.cache (d.evicted.map .consult ++ tasks)
  decide : ∀ c e tasks hook (scene : Scene W), I c (.consult e :: tasks) →
    e.slot.options.hook = some hook → Q scene.world →
      Q (m.decide hook e.key e.slot.value e.reason scene).2.world

/-- What holds of a session when nothing is left to do. -/
abbrev Settled (I : Cache V C → List (Task V C) → Prop) (Q : W → Prop) (s : Session V C W) : Prop :=
  I s.cache [] ∧ Q s.scene.world

namespace Settles

variable {m : Moment V C W} {I : Cache V C → List (Task V C) → Prop} {Q : W → Prop}
  {s : Session V C W}

theorem attend (k : Settles m I Q) {task : Task V C} {tasks : List (Task V C)}
    (h : I s.cache (task :: tasks) ∧ Q s.scene.world) :
    I (s.attend m task).1.cache ((s.attend m task).2 ++ tasks) ∧
      Q (s.attend m task).1.scene.world := by
  obtain ⟨hI, hQ⟩ := h
  cases task with
  | consult e =>
    cases hhook : e.slot.options.hook with
    | none =>
      rw [attend_silent hhook]
      exact ⟨k.silent _ e tasks hI hhook, hQ⟩
    | some hook =>
      have hasked := k.decide _ e tasks hook (s.asking e) hI hhook hQ
      rcases hanswer : m.decide hook e.key e.slot.value e.reason (s.asking e) with ⟨action, scene⟩
      have haction := congrArg Prod.fst hanswer
      rw [hanswer] at hasked
      cases action with
      | remove also =>
        rw [attend_removal hhook hanswer]
        exact ⟨k.released _ e tasks hook (s.asking e) also hI hhook haction, hasked⟩
      | reinsert value options =>
        rw [attend_reinsertion hhook hanswer]
        refine ⟨k.renewed _ e tasks hook (s.asking e) _ value options hI hhook haction, ?_⟩
        rw [world_commit]
        exact hasked
  | remove key =>
    cases hd : s.cache.detach key with
    | none =>
      rw [attend_absent hd]
      exact ⟨k.absent _ key tasks hI hd, hQ⟩
    | some d =>
      rw [attend_stored hd]
      exact ⟨k.detached _ key d tasks hI hd, hQ⟩

theorem settle (k : Settles m I Q) {tasks : List (Task V C)} (h : I s.cache tasks)
    (hQ : Q s.scene.world) : Settled I Q (s.settle m tasks) :=
  settle_induction (motive := fun s tasks => I s.cache tasks ∧ Q s.scene.world)
    (fun _ _ _ => k.attend) s tasks ⟨h, hQ⟩

/-- What holds when an entry was put in may depend on whether it was stored. -/
theorem insert {J : Bool → Cache V C → List (Task V C) → Prop}
    (k : ∀ stored, Settles m (J stored) Q) {P : Cache V C → Prop} {key : String} {value : V}
    {options : Options C}
    (hplace : ∀ c signals, P c → let p := c.place m.now signals key value options
      J p.stored p.cache (p.evicted.map .consult)) :
    Work.Answers (fun s => P s.cache ∧ Q s.scene.world) (fun stored => Settled (J stored) Q)
      (Session.insert m key value options) := by
  intro s h
  refine (k _).settle (s := s.commit key _) (hplace s.cache s.scene.signals h.1) ?_
  rw [world_commit]
  exact h.2

theorem remove (k : Settles m I Q) {P : Cache V C → Prop} {key : String}
    (hremove : ∀ c, P c → I c [.remove key]) :
    Work.Takes (fun s => P s.cache ∧ Q s.scene.world) (Settled I Q) (Session.remove m key) := by
  intro s h
  have hscheduled := hremove s.cache h.1
  unfold Session.remove
  cases hd : s.cache.detach key with
  | none => exact ⟨k.absent _ key [] hscheduled hd, h.2⟩
  | some d =>
    have hdetached := k.detached _ key d [] hscheduled hd
    rw [List.append_nil] at hdetached
    exact k.settle (s := ⟨d.cache, s.scene.note (.evicted key .removed)⟩) hdetached h.2

end Settles

/-! ## What requests keep -/

/-- `I` is kept while tasks are attended to, and by what reads and purges begin with. -/
structure Upheld (m : Moment V C W) (I : Cache V C → List (Task V C) → Prop) (Q : W → Prop) : Prop
    extends Settles m I Q where
  sweep : ∀ c signals, I c [] → I (c.sweep m.now signals).1 ((c.sweep m.now signals).2.map .consult)
  touch : ∀ c key, I c [] → I (c.touch m.now key) []
  dropAll : ∀ c, I c [] → I c.dropAll []

namespace Upheld

variable {m : Moment V C W} {I : Cache V C → List (Task V C) → Prop} {Q : W → Prop}
  (k : Upheld m I Q) {s : Session V C W}

include k

theorem purge : Work.Takes (Settled I Q) (Settled I Q) (Session.purge m) :=
  fun s h => k.settle (s := s.swept m) (k.sweep _ _ h.1) h.2

theorem maintain (h : Settled I Q s) : Settled I Q (s.maintain m) := by
  unfold Session.maintain
  split
  · exact k.purge s h
  · exact h

theorem look (key : String) : Work.Takes (Settled I Q) (Settled I Q) (Session.look m key) := by
  intro s h
  unfold Session.look
  split
  · exact h
  · split
    · exact ⟨k.touch _ key h.1, h.2⟩
    · exact k.purge s h

theorem get (key : String) : Work.Takes (Settled I Q) (Settled I Q) (Session.get m key) := by
  intro s h
  rw [get_eq_look]
  exact k.look key _ (k.maintain h)

theorem insert {key : String} {value : V} {options : Options C}
    (hplace : ∀ c signals, I c [] → let p := c.place m.now signals key value options
      I p.cache (p.evicted.map .consult)) :
    Work.Takes (Settled I Q) (Settled I Q) (Session.insert m key value options) :=
  (Settles.insert (J := fun _ => I) (fun _ => k.toSettles) hplace).takes fun _ _ h => h

theorem insertIfAbsent {key : String} {value : V} {options : Options C}
    (hplace : ∀ c signals, I c [] → let p := c.place m.now signals key value options
      I p.cache (p.evicted.map .consult)) :
    Work.Takes (Settled I Q) (Settled I Q) (Session.insertIfAbsent m key value options) := by
  intro s h
  unfold Session.insertIfAbsent
  split
  · exact h
  · exact k.insert hplace s h

theorem clear : Work.Takes (Settled I Q) (Settled I Q) Session.clear :=
  fun _ h => ⟨k.dropAll _ h.1, h.2⟩

end Upheld

end Session

end Templating
