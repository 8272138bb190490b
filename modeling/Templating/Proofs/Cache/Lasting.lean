import Templating.Proofs.Cache.Steady

/-!
# Properties of whole sessions

A steady property speaks of a cache, and of the world beside it on its own. What entries are worth
depends on both: whether an entry is live is a matter of the tokens that have fired. A property of
whole sessions, and of the entries that wait to be asked, is **lasting** (`Session.Lasting`) if it
is kept by all that only takes entries out, by each insertion that is admitted, by notes in the
journal and by the hooks that are asked.
-/

namespace Templating

namespace Session

variable {V C W : Type}

/-- `P` is kept by all that happens in a session, as long as what is put in is admitted by `New`,
and the hooks put in nothing else. -/
structure Lasting (m : Moment V C W) (New : String → V → Options C → Prop)
    (P : Session V C W → List (Evicted V C) → Prop) : Prop where
  note : ∀ s pending event, P s pending → P { s with scene := s.scene.note event } pending
  forget : ∀ s e pending, P s (e :: pending) → P s pending
  decide : ∀ s e pending hook, P s (e :: pending) → e.slot.options.hook = some hook →
    P { s with scene := (m.decide hook e.key e.slot.value e.reason s.scene).2 } pending
  renew : ∀ s e pending hook value options, P s (e :: pending) →
    e.slot.options.hook = some hook →
      (m.decide hook e.key e.slot.value e.reason s.scene).1 = .reinsert value options →
        New e.key value options
  place : ∀ s pending key value options, P s pending → New key value options →
    let p := s.cache.place m.now s.scene.signals key value options
    P (s.commit key p) (p.evicted ++ pending)
  detach : ∀ s pending key d, P s pending → s.cache.detach key = some d →
    P { s with cache := d.cache } (d.evicted ++ pending)
  sweep : ∀ s, P s [] →
    P (s.swept m) (s.cache.sweep m.now (s.scene.signals.lower s.cache.flag)).2
  touch : ∀ s key, P s [] → P { s with cache := s.cache.touch m.now key } []
  dropAll : ∀ s, P s [] → P { s with cache := s.cache.dropAll } []

namespace Lasting

variable {m : Moment V C W} {New : String → V → Options C → Prop}
  {P : Session V C W → List (Evicted V C) → Prop} (k : Lasting m New P) {s : Session V C W}

include k

/-- One task is attended to. -/
theorem attend {task : Task V C} {tasks : List (Task V C)}
    (h : P s (waitingEntries (task :: tasks))) :
    P (s.attend m task).1 (waitingEntries ((s.attend m task).2 ++ tasks)) := by
  cases task with
  | consult e =>
    have hnoted := k.note _ _ (.evicted e.key e.reason.cause) h
    cases hhook : e.slot.options.hook with
    | none =>
      rw [attend_silent hhook]
      exact k.forget _ e _ hnoted
    | some hook =>
      have hasking : P { s with scene := s.asking e } (e :: waitingEntries tasks) :=
        k.note _ _ (.consulted e.key e.reason) hnoted
      have hasked := k.decide _ e _ hook hasking hhook
      rcases hanswer : m.decide hook e.key e.slot.value e.reason (s.asking e) with ⟨action, scene⟩
      simp only [hanswer] at hasked
      cases action with
      | remove also =>
        rw [attend_removal hhook hanswer, waitingEntries_removes]
        exact hasked
      | reinsert value options =>
        rw [attend_reinsertion hhook hanswer, waitingEntries_consults]
        exact k.place _ _ _ value options hasked
          (k.renew _ e _ hook value options hasking hhook (congrArg Prod.fst hanswer))
  | remove key =>
    cases hd : s.cache.detach key with
    | none =>
      rw [attend_absent hd]
      exact h
    | some d =>
      rw [attend_stored hd, waitingEntries_consults]
      exact k.note _ _ (.evicted key .removed) (k.detach s _ key d h hd)

/-- All that is left to do is done. -/
theorem settle {tasks : List (Task V C)} (h : P s (waitingEntries tasks)) :
    P (s.settle m tasks) [] :=
  settle_induction (motive := fun s tasks => P s (waitingEntries tasks)) (fun _ _ _ => k.attend)
    s tasks h

theorem consultAll {evicted : List (Evicted V C)} (h : P s evicted) :
    P (Session.consultAll m s evicted) [] := by
  refine k.settle ?_
  rwa [waitingEntries_map_consult]

/-! ## Requests -/

theorem purge : Work.Takes (P · []) (P · []) (Session.purge m) := fun s h =>
  k.consultAll (k.sweep s h)

theorem maintain (h : P s []) : P (s.maintain m) [] := by
  unfold Session.maintain
  split
  · exact k.purge s h
  · exact h

theorem look (key : String) : Work.Takes (P · []) (P · []) (Session.look m key) := by
  intro s h
  unfold Session.look
  split
  · exact k.note _ _ _ h
  · split
    · exact k.note _ _ _ (k.touch _ key h)
    · exact k.note _ _ _ (k.purge s h)

theorem get (key : String) : Work.Takes (P · []) (P · []) (Session.get m key) := by
  intro s h
  rw [get_eq_look]
  exact k.look key _ (k.maintain h)

theorem insert {key : String} {value : V} {options : Options C} (hnew : New key value options) :
    Work.Takes (P · []) (P · []) (Session.insert m key value options) := by
  intro s h
  have hplaced := k.place s [] key value options h hnew
  simp only [List.append_nil] at hplaced
  exact k.consultAll hplaced

theorem insertIfAbsent {key : String} {value : V} {options : Options C}
    (hnew : New key value options) :
    Work.Takes (P · []) (P · []) (Session.insertIfAbsent m key value options) := by
  intro s h
  unfold Session.insertIfAbsent
  split
  · exact h
  · exact k.insert hnew s h

theorem remove (key : String) : Work.Takes (P · []) (P · []) (Session.remove m key) := by
  intro s h
  unfold Session.remove
  cases hd : s.cache.detach key with
  | none => exact h
  | some d =>
    have hdetached := k.detach s [] key d h hd
    rw [List.append_nil] at hdetached
    exact k.consultAll (k.note _ _ (.evicted key .removed) hdetached)

theorem clear : Work.Takes (P · []) (P · []) Session.clear := fun s h =>
  k.note _ _ (.cleared s.cache.size) (k.dropAll s h)

/-- A request keeps what is lasting, if the entry that it puts in is admitted. -/
theorem perform (h : P s []) (r : Cache.Request V C)
    (hnew : ∀ key value options, r = .insert key value options ∨
      r = .insertIfAbsent key value options → New key value options) : P (r.perform m s) [] := by
  cases r with
  | insert key value options => exact k.insert (hnew key value options (.inl rfl)) s h
  | insertIfAbsent key value options =>
    exact k.insertIfAbsent (hnew key value options (.inr rfl)) s h
  | get key => exact k.get key s h
  | look key => exact k.look key s h
  | remove key => exact k.remove key s h
  | purge => exact k.purge s h
  | clear => exact k.clear s h

omit k in
/-- Two properties that last do so together. -/
theorem and {New' : String → V → Options C → Prop}
    {P' : Session V C W → List (Evicted V C) → Prop} (k : Lasting m New P)
    (k' : Lasting m New' P') :
    Lasting m (fun key value options => New key value options ∧ New' key value options)
      (fun s pending => P s pending ∧ P' s pending) where
  note s pending event h := ⟨k.note s pending event h.1, k'.note s pending event h.2⟩
  forget s e pending h := ⟨k.forget s e pending h.1, k'.forget s e pending h.2⟩
  decide s e pending hook h hhook :=
    ⟨k.decide s e pending hook h.1 hhook, k'.decide s e pending hook h.2 hhook⟩
  renew s e pending hook value options h hhook haction :=
    ⟨k.renew s e pending hook value options h.1 hhook haction,
      k'.renew s e pending hook value options h.2 hhook haction⟩
  place s pending key value options h hnew :=
    ⟨k.place s pending key value options h.1 hnew.1,
      k'.place s pending key value options h.2 hnew.2⟩
  detach s pending key d h hd :=
    ⟨k.detach s pending key d h.1 hd, k'.detach s pending key d h.2 hd⟩
  sweep s h := ⟨k.sweep s h.1, k'.sweep s h.2⟩
  touch s key h := ⟨k.touch s key h.1, k'.touch s key h.2⟩
  dropAll s h := ⟨k.dropAll s h.1, k'.dropAll s h.2⟩

end Lasting

end Session

end Templating
