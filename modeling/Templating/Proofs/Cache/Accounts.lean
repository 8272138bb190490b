import Templating.Proofs.Cache.Latest
import Templating.Proofs.Cache.Leavers
import Templating.Proofs.Cache.Upheld

/-!
# Every entry is accounted for

Entries come into a cache by insertions and by hooks that put them back. They leave in five ways: an
insertion drops the one in its place, a removal takes one out, a purge takes out those that are
over, what depends on one that leaves goes with it, and all are dropped at once. What is stored is
what has come less what has left.

Those that leave by themselves (`Cache.leavers`) are **counted** one after the other, each under a
reason, and the hook of each is asked then. `Balanced` says of a cache, of the entries that wait to
be counted and of what has happened so far that none of them is lost and none is counted or asked
twice. Every task keeps the balance (`Session.Balanced.attend`), so every request does, and every
run (`Commons.entries_accounted`), though hooks put entries in and take entries out while others
wait.
-/

namespace Templating

/-! ## What the journal counts -/

namespace Event

/-- The event tells of entries that came or left. -/
def ofEntries : Event → Bool
  | stored _ | replaced _ | cleared _ | evicted _ _ => true
  | _ => false

@[simp] def isStored : Event → Bool
  | stored _ => true
  | _ => false

@[simp] def isReplaced : Event → Bool
  | replaced _ => true
  | _ => false

/-- The event counts into the metric of evictions, with the label of a cause. -/
def isEvicted (cause : Cause) (e : Event) : Bool :=
  e.metric? == some (.cacheEvict, [("reason", causeLabel cause)])

/-- How many entries the event says were dropped at once. -/
@[simp] def dropped? : Event → Option Nat
  | cleared count => some count
  | _ => none

/-- The key of an entry that left by itself, with the cause that it was counted under. -/
def lapse? : Event → Option (String × Cause)
  | evicted _ .removed => none
  | evicted key cause => some (key, cause)
  | _ => none

@[simp] theorem isEvicted_evicted (key : String) (cause cause' : Cause) :
    (evicted key cause).isEvicted cause' = (cause == cause') := by
  cases cause <;> cases cause' <;> rfl

end Event

section Counts

variable (journal : List Event)

def storedCount : Nat := journal.countP Event.isStored

def replacedCount : Nat := journal.countP Event.isReplaced

def droppedCount : Nat := (journal.filterMap Event.dropped?).sum

/-- The metric of evictions, for one cause. -/
def evictedCount (cause : Cause) : Nat := journal.countP (Event.isEvicted cause)

/-- The entries that left by themselves, in the order in which they were counted. -/
def lapses : List (String × Cause) := (journal.filterMap Event.lapse?).reverse

section Cons

variable (e : Event)

@[simp] theorem storedCount_cons :
    storedCount (e :: journal) = storedCount journal + if e.isStored then 1 else 0 :=
  List.countP_cons

@[simp] theorem replacedCount_cons :
    replacedCount (e :: journal) = replacedCount journal + if e.isReplaced then 1 else 0 :=
  List.countP_cons

@[simp] theorem evictedCount_cons (cause : Cause) : evictedCount (e :: journal) cause =
    evictedCount journal cause + if e.isEvicted cause then 1 else 0 :=
  List.countP_cons

@[simp] theorem droppedCount_cons :
    droppedCount (e :: journal) = e.dropped?.getD 0 + droppedCount journal := by
  unfold droppedCount
  rw [List.filterMap_cons]
  cases e.dropped? <;> simp

end Cons

/-! Only events that tell of entries count. -/

section Filter

theorem countP_ofEntries {p : Event → Bool} (h : ∀ e, e.ofEntries = false → p e = false) :
    (journal.filter Event.ofEntries).countP p = journal.countP p := by
  rw [List.countP_filter]
  refine List.countP_congr fun e _ => ?_
  cases he : e.ofEntries with
  | true => simp
  | false => simp [h e he]

theorem filterMap_ofEntries {α : Type} {f : Event → Option α}
    (h : ∀ e, e.ofEntries = false → f e = none) :
    (journal.filter Event.ofEntries).filterMap f = journal.filterMap f := by
  induction journal with
  | nil => rfl
  | cons e journal ih =>
    cases he : e.ofEntries with
    | true => rw [List.filter_cons_of_pos he, List.filterMap_cons, List.filterMap_cons, ih]
    | false => rw [List.filter_cons_of_neg (by simp [he]), List.filterMap_cons, h e he, ih]

@[simp] theorem storedCount_filter :
    storedCount (journal.filter Event.ofEntries) = storedCount journal :=
  countP_ofEntries journal fun e h => by cases e <;> first | rfl | cases h

@[simp] theorem replacedCount_filter :
    replacedCount (journal.filter Event.ofEntries) = replacedCount journal :=
  countP_ofEntries journal fun e h => by cases e <;> first | rfl | cases h

@[simp] theorem evictedCount_filter (cause : Cause) :
    evictedCount (journal.filter Event.ofEntries) cause = evictedCount journal cause :=
  countP_ofEntries journal fun e h => by cases e <;> first | rfl | cases h

@[simp] theorem droppedCount_filter :
    droppedCount (journal.filter Event.ofEntries) = droppedCount journal :=
  congrArg List.sum
    (filterMap_ofEntries journal fun e h => by cases e <;> first | rfl | cases h)

@[simp] theorem lapses_filter : lapses (journal.filter Event.ofEntries) = lapses journal :=
  congrArg List.reverse
    (filterMap_ofEntries journal fun e h => by cases e <;> first | rfl | cases h)

end Filter

end Counts

/-- The events that tell of entries, last first. -/
def Scene.book {W : Type} (s : Scene W) : List Event := s.journal.filter Event.ofEntries

namespace Scene

variable {W : Type} (s : Scene W)

theorem book_note_of {e : Event} (h : e.ofEntries = true) : (s.note e).book = e :: s.book :=
  List.filter_cons_of_pos h

theorem book_note {e : Event} (h : e.ofEntries = false) : (s.note e).book = s.book :=
  List.filter_cons_of_neg (by simp [h])

end Scene

/-! ## Calls of hooks -/

/-- A hook that is asked, and what it is told. -/
structure Asked (V C : Type) where
  hook : C
  key : String
  value : V
  reason : Reason

/-- The call of the hook of an evicted entry, if it has one. -/
def Evicted.call? {V C : Type} (e : Evicted V C) : Option (Asked V C) :=
  e.slot.options.hook.map fun hook => ⟨hook, e.key, e.slot.value, e.reason⟩

/-- The key that an evicted entry left with, and the cause that it is counted under. -/
def Evicted.lapse {V C : Type} (e : Evicted V C) : String × Cause := (e.key, e.reason.cause)

/-- Hooks that tell of entries nothing of their own. What a hook does to the cache itself are moves
of the run. -/
structure Discreet (V C W : Type) where
  decide : Decisions V C W
  discreet : ∀ now hook key value reason (scene : Scene W),
    (decide now hook key value reason scene).2.book = scene.book

/-! ## The balance -/

section Balance

variable {V C : Type}

/-- The balance of a cache: of its size, the entries that are still to be counted, those that have
left by themselves, and the calls of hooks. -/
structure Balanced (book : List Event) (size : Nat) (pending : List (Evicted V C))
    (left : List (String × Slot V C)) (calls : List (Asked V C)) : Prop where
  sum : size + pending.length + replacedCount book + droppedCount book +
    (evictedCount book .removed + evictedCount book .expired + evictedCount book .dependency) =
      storedCount book
  counted : ∃ counted : List (Evicted V C),
    ((counted ++ pending).map Evicted.row).Perm left ∧
    lapses book = counted.map Evicted.lapse ∧ calls = counted.filterMap Evicted.call?

namespace Balanced

variable {book : List Event} {size size' : Nat} {pending gone : List (Evicted V C)}
  {left leaving : List (String × Slot V C)} {calls : List (Asked V C)}

theorem start : Balanced (V := V) (C := C) [] 0 [] [] [] := ⟨rfl, [], .nil, rfl, rfl⟩

/-- Entries leave, and wait to be counted. -/
theorem depart (h : Balanced book size pending left calls)
    (hsize : size' + gone.length = size) (hleaving : (gone.map Evicted.row).Perm leaving) :
    Balanced book size' (gone ++ pending) (left ++ leaving) calls := by
  obtain ⟨hsum, counted, hleft, hlapses, hcalls⟩ := h
  refine ⟨?_, counted, ?_, hlapses, hcalls⟩
  · rw [List.length_append]
    omega
  · have hall := (hleft.append hleaving).symm
    rw [← List.map_append, List.append_assoc] at hall
    refine .trans (List.Perm.map _ ?_) hall.symm
    exact List.Perm.append_left counted List.perm_append_comm

/-- An entry is taken out because it was asked for. -/
theorem remove (h : Balanced book (size + 1) pending left calls) (key : String) :
    Balanced (.evicted key .removed :: book) size pending left calls := by
  obtain ⟨hsum, counted, hleft, hlapses, hcalls⟩ := h
  refine ⟨?_, counted, hleft, ?_, hcalls⟩
  · simp
    omega
  · exact hlapses

/-- An entry that has left is counted, and its hook is asked. -/
theorem count {e : Evicted V C} (h : Balanced book size (e :: pending) left calls) :
    Balanced (.evicted e.key e.reason.cause :: book) size pending left
      (calls ++ e.call?.toList) := by
  obtain ⟨hsum, counted, hleft, hlapses, hcalls⟩ := h
  refine ⟨?_, counted ++ [e], ?_, ?_, ?_⟩
  · rw [List.length_cons] at hsum
    cases e.reason <;> simp [Reason.cause] <;> omega
  · rw [List.append_assoc]
    exact hleft
  · have hlapse : (Event.evicted e.key e.reason.cause).lapse? = some e.lapse := by
      unfold Evicted.lapse
      cases e.reason <;> rfl
    unfold lapses at hlapses ⊢
    rw [List.filterMap_cons, hlapse, List.reverse_cons, hlapses, List.map_append]
    rfl
  · rw [hcalls, List.filterMap_append]
    cases hcall : e.call? <;> simp [hcall]

/-- An insertion drops the entry in its place, if there is one, and puts one in, if it is not
refused. -/
theorem insert {replaced stored : Bool} {key : String}
    (h : Balanced book (size + replaced.toNat) pending left calls) :
    Balanced ((if stored then [.stored key] else []) ++
      (if replaced then [.replaced key] else []) ++ book) (size + stored.toNat) pending left
        calls := by
  obtain ⟨hsum, counted, hleft, hlapses, hcalls⟩ := h
  refine ⟨?_, counted, hleft, ?_, hcalls⟩
  · cases replaced <;> cases stored <;> simp [Event.isEvicted, Event.metric?] at hsum ⊢ <;> omega
  · cases replaced <;> cases stored <;> exact hlapses

/-- All entries are dropped. -/
theorem drop (h : Balanced book size pending left calls) :
    Balanced (.cleared size :: book) 0 pending left calls := by
  obtain ⟨hsum, counted, hleft, hlapses, hcalls⟩ := h
  refine ⟨?_, counted, hleft, hlapses, hcalls⟩
  simp [Event.isEvicted, Event.metric?] at hsum ⊢
  omega

end Balanced

end Balance

/-! ## Balanced sessions -/

namespace Session

variable {V C W : Type}

/-- The key that a task is about. -/
def Task.key : Task V C → String
  | .consult e => e.key
  | .remove key => key

/-- The call that a task makes. -/
def Task.call? : Task V C → Option (Asked V C)
  | .consult e => e.call?
  | .remove _ => none

/-- The entries that leave by themselves in a step. -/
def Step.left (m : Moment V C W) (step : Step V C W) : List (String × Slot V C) :=
  step.session.cache.leavers (step.session.attend m step.task).1.cache (· == step.task.key)

/-- The balance of a session with tasks that are left. -/
abbrev Balanced (s : Session V C W) (tasks : List (Task V C)) (left : List (String × Slot V C))
    (calls : List (Asked V C)) : Prop :=
  Templating.Balanced s.scene.book s.cache.size (waitingEntries tasks) left calls

variable (hooks : Discreet V C W) {now : Instant} {s : Session V C W} {tasks : List (Task V C)}
  {left : List (String × Slot V C)} {calls : List (Asked V C)}

theorem book_commit (s : Session V C W) (key : String) (p : Cache.Placed V C) :
    (s.commit key p).scene.book = (if p.stored then [.stored key] else []) ++
      (if p.replaced then [.replaced key] else []) ++ s.scene.book := by
  unfold commit Scene.noteIf
  cases p.stored <;> cases p.replaced <;> rfl

theorem book_answered (s : Session V C W) (e : Evicted V C) :
    (s.answered ⟨now, hooks.decide now⟩ e).book =
      .evicted e.key e.reason.cause :: s.scene.book := by
  unfold answered
  cases e.slot.options.hook with
  | none => exact Scene.book_note_of _ rfl
  | some hook => exact hooks.discreet now hook e.key e.slot.value e.reason (s.asking e)

theorem Balanced.place (h : s.Balanced tasks left calls) (hc : s.cache.Linked) (now : Instant)
    (key : String) (value : V) (options : Options C) :
    let p := s.cache.place now s.scene.signals key value options
    (s.commit key p).Balanced (p.evicted.map .consult ++ tasks)
      (left ++ s.cache.leavers p.cache (· == key)) calls := by
  intro p
  obtain ⟨hsize, hreplaced⟩ := Cache.size_place_eq hc now s.scene.signals key value options
  have hevicted := (Cache.keys_place now s.scene.signals key value options hc).1
  have hcleared := Cache.size_cleared hc key
  have hperm := Cache.perm_leavers_place hc now s.scene.signals key value options
  rw [← hreplaced, ← hevicted] at hcleared
  rw [Nat.add_right_comm] at hcleared
  have hdepart := Templating.Balanced.depart h hcleared hperm
  unfold Balanced
  rw [book_commit, waitingEntries_consults]
  exact hsize ▸ hdepart.insert

theorem Balanced.detach (h : s.Balanced tasks left calls) (hc : s.cache.Linked) {key : String}
    {d : Cache.Detached V C} (hd : s.cache.detach key = some d) :
    (⟨d.cache, s.scene.note (.evicted key .removed)⟩ : Session V C W).Balanced
      (d.evicted.map .consult ++ tasks) (left ++ s.cache.leavers d.cache (· == key)) calls := by
  have hsize := Cache.size_detach hc hd
  rw [Nat.add_right_comm] at hsize
  have hdepart := Templating.Balanced.depart h hsize (Cache.perm_leavers_detach hc hd)
  unfold Balanced
  rw [Scene.book_note_of _ rfl, waitingEntries_consults]
  exact hdepart.remove key

/-- **A step keeps the balance.** -/
theorem Balanced.attend (now : Instant) {task : Task V C}
    (h : s.Balanced (task :: tasks) left calls) (hc : s.cache.Linked) :
    (s.attend ⟨now, hooks.decide now⟩ task).1.Balanced
      ((s.attend ⟨now, hooks.decide now⟩ task).2 ++ tasks)
      (left ++ Step.left ⟨now, hooks.decide now⟩ ⟨s, task⟩) (calls ++ task.call?.toList) := by
  cases task with
  | consult e =>
    have hcount : ({ s with scene := s.answered ⟨now, hooks.decide now⟩ e } :
        Session V C W).Balanced tasks left (calls ++ e.call?.toList) := by
      unfold Balanced
      rw [book_answered]
      exact Templating.Balanced.count h
    unfold Step.left
    cases hr : s.reinsertion? ⟨now, hooks.decide now⟩ e with
    | none =>
      obtain ⟨also, hattend⟩ := attend_of_no_reinsertion hr
      rw [hattend, Cache.leavers_self, List.append_nil]
      unfold Balanced
      rw [waitingEntries_removes]
      exact hcount
    | some p =>
      obtain ⟨value, options⟩ := p
      rw [attend_of_reinsertion hr]
      exact hcount.place hc now e.key value options
  | remove key =>
    have hremove : s.Balanced tasks left calls := h
    unfold Step.left
    simp only [Task.call?, Option.toList_none, List.append_nil]
    cases hd : s.cache.detach key with
    | none =>
      rw [attend_absent hd, Cache.leavers_self, List.append_nil]
      exact hremove
    | some d =>
      rw [attend_stored hd]
      exact hremove.detach hc hd

/-- So the balance is kept until nothing is left to do, whatever waits behind. -/
theorem Balanced.settle {behind : List (Task V C)} (h : s.Balanced (tasks ++ behind) left calls)
    (hc : s.cache.Linked) :
    (s.settle ⟨now, hooks.decide now⟩ tasks).Balanced behind
      (left ++ (s.steps ⟨now, hooks.decide now⟩ tasks).flatMap
        (Step.left ⟨now, hooks.decide now⟩))
      (calls ++ (s.steps ⟨now, hooks.decide now⟩ tasks).filterMap (·.task.call?)) := by
  fun_induction steps ⟨now, hooks.decide now⟩ s tasks generalizing left calls with
  | case1 s =>
    simpa using h
  | case2 s task tasks ih =>
    rw [settle_cons, List.flatMap_cons, ← List.append_assoc]
    have htask : s.Balanced (task :: (tasks ++ behind)) left calls := h
    have hstep := htask.attend hooks now hc
    rw [← List.append_assoc] at hstep
    have hrest := ih hstep ((kept_linked _).attend hc task)
    rw [List.append_assoc] at hrest
    cases hcall : task.call? <;> simpa [hcall, List.filterMap_cons] using hrest

end Session

/-! ## Balanced runs -/

namespace Cache.Request

variable {V C W : Type}

/-- The keys under which a request takes out what it was asked to, and not what leaves by itself. -/
def spares : Cache.Request V C → String → Bool
  | insert key _ _ | insertIfAbsent key _ _ | remove key => (· == key)
  | get _ | look _ | purge => fun _ => false
  | clear => fun _ => true

/-- The entries that leave by themselves when a request begins. -/
def ownLeft (m : Moment V C W) (s : Session V C W) (r : Cache.Request V C) :
    List (String × Slot V C) :=
  s.cache.leavers (r.begin m s).1.cache r.spares

end Cache.Request

section Begun

variable {V C W : Type} (m : Moment V C W)

/-- Requests that are begun and settled, each in its session. -/
abbrev Begun (V C W : Type) := List (Session V C W × Cache.Request V C)

namespace Begun

/-- The entries that leave by themselves. -/
def left (begun : Begun V C W) : List (String × Slot V C) :=
  begun.flatMap fun (s, r) => r.ownLeft m s ++ (r.steps m s).flatMap (Session.Step.left m)

/-- The calls of hooks. -/
def calls (begun : Begun V C W) : List (Asked V C) :=
  begun.flatMap fun (s, r) => (r.steps m s).filterMap (·.task.call?)

variable (begun begun' : Begun V C W)

theorem left_append : left m (begun ++ begun') = left m begun ++ left m begun' :=
  List.flatMap_append

theorem calls_append : calls m (begun ++ begun') = calls m begun ++ calls m begun' :=
  List.flatMap_append

end Begun

/-- The purge that a read begins with, unless it skips it. -/
def Session.upkeepBegun (s : Session V C W) : Begun V C W :=
  if s.cache.mayBeDue m.now s.scene.signals then [(s, .purge)] else []

/-- The purge with which a read ends that finds an entry that is over. -/
def Session.lookBegun (key : String) (s : Session V C W) : Begun V C W :=
  match s.cache.entries.get? key with
  | none => []
  | some slot => if slot.isLive s.cache.epoch m.now s.scene.signals then [] else [(s, .purge)]

/-- What is begun and settled, one after the other, when a request is done as a whole. -/
def Cache.Request.begun (s : Session V C W) : Cache.Request V C → Begun V C W
  | get key => s.upkeepBegun m ++ (s.maintain m).lookBegun m key
  | look key => s.lookBegun m key
  | r => [(s, r)]

end Begun

namespace Session

variable {V C W : Type} (hooks : Discreet V C W) {now : Instant} {s : Session V C W}
  {tasks : List (Task V C)} {left : List (String × Slot V C)} {calls : List (Asked V C)}

/-- What a request begins with keeps the balance. -/
theorem Balanced.begin (h : s.Balanced tasks left calls) (hc : s.cache.Linked)
    (m : Moment V C W) (r : Cache.Request V C) :
    (r.begin m s).1.Balanced ((r.begin m s).2.map .consult ++ tasks) (left ++ r.ownLeft m s)
      calls := by
  unfold Cache.Request.ownLeft
  cases r with
  | insert key value options => exact h.place hc m.now key value options
  | insertIfAbsent key value options =>
    simp only [Cache.Request.begin]
    split
    · rw [Cache.leavers_self, List.append_nil]
      exact h
    · exact h.place hc m.now key value options
  | get | look | purge =>
    unfold Balanced
    rw [waitingEntries_consults]
    exact Templating.Balanced.depart h (Cache.size_sweep hc m.now _)
      (Cache.perm_leavers_sweep hc m.now _)
  | remove key =>
    simp only [Cache.Request.begin]
    cases hd : s.cache.detach key with
    | none =>
      rw [Cache.leavers_self, List.append_nil]
      exact h
    | some d => exact h.detach hc hd
  | clear =>
    have hnone : s.cache.leavers (Cache.Request.clear.begin m s).1.cache
        (Cache.Request.clear : Cache.Request V C).spares = [] :=
      Cache.leavers_of_spared fun _ => rfl
    rw [hnone, List.append_nil]
    unfold Balanced
    rw [show (Cache.Request.clear.begin m s).1.scene.book = .cleared s.cache.size :: s.scene.book
      from Scene.book_note_of _ rfl]
    exact Templating.Balanced.drop h

/-- What is begun and settled keeps the balance. -/
theorem Balanced.complete (h : s.Balanced tasks left calls) (hc : s.cache.Linked)
    (r : Cache.Request V C) :
    let m : Moment V C W := ⟨now, hooks.decide now⟩
    ((r.begin m s).1.settle m ((r.begin m s).2.map .consult)).Balanced tasks
      (left ++ Begun.left m [(s, r)]) (calls ++ Begun.calls m [(s, r)]) := by
  intro m
  unfold Begun.left Begun.calls
  rw [List.flatMap_singleton, List.flatMap_singleton, ← List.append_assoc]
  exact (h.begin hc m r).settle hooks ((kept_linked m).begin hc r)

theorem Balanced.note (h : s.Balanced tasks left calls) {e : Event} (he : e.ofEntries = false) :
    ({ s with scene := s.scene.note e } : Session V C W).Balanced tasks left calls := by
  unfold Balanced
  rw [Scene.book_note _ he]
  exact h

theorem Balanced.maintain (h : s.Balanced tasks left calls) (hc : s.cache.Linked) :
    let m : Moment V C W := ⟨now, hooks.decide now⟩
    (s.maintain m).Balanced tasks (left ++ Begun.left m (s.upkeepBegun m))
      (calls ++ Begun.calls m (s.upkeepBegun m)) := by
  intro m
  unfold Session.maintain Session.upkeepBegun
  split
  · exact h.complete hooks hc .purge
  · simpa [Begun.left, Begun.calls] using h

theorem Balanced.look (h : s.Balanced tasks left calls) (hc : s.cache.Linked) (key : String) :
    let m : Moment V C W := ⟨now, hooks.decide now⟩
    (look m key s).2.Balanced tasks (left ++ Begun.left m (s.lookBegun m key))
      (calls ++ Begun.calls m (s.lookBegun m key)) := by
  intro m
  unfold Session.look Session.lookBegun
  cases hget : s.cache.entries.get? key with
  | none => simpa [Begun.left, Begun.calls] using h.note (e := .miss key) rfl
  | some slot =>
    by_cases hlive : slot.isLive s.cache.epoch m.now s.scene.signals = true
    · have htouch : (⟨s.cache.touch m.now key, s.scene⟩ : Session V C W).Balanced tasks left
          calls := by
        unfold Balanced
        rw [Cache.size_touch]
        exact h
      simpa [hlive, Begun.left, Begun.calls] using htouch.note (e := .hit key) rfl
    · simp only [hlive]
      exact (h.complete hooks hc .purge).note rfl

/-- **A request keeps the balance.** -/
theorem Balanced.perform (h : s.Balanced tasks left calls) (hc : s.cache.Linked)
    (r : Cache.Request V C) :
    let m : Moment V C W := ⟨now, hooks.decide now⟩
    (r.perform m s).Balanced tasks (left ++ Begun.left m (r.begun m s))
      (calls ++ Begun.calls m (r.begun m s)) := by
  intro m
  have hother : (∀ key, r ≠ .get key) → (∀ key, r ≠ .look key) →
      (r.perform m s).Balanced tasks (left ++ Begun.left m [(s, r)])
        (calls ++ Begun.calls m [(s, r)]) := by
    intro hget hlook
    rw [Cache.Request.perform_eq_settle m s hget hlook]
    exact h.complete hooks hc r
  cases r with
  | look key => exact h.look hooks hc key
  | get key =>
    unfold Cache.Request.begun
    rw [Begun.left_append, Begun.calls_append, ← List.append_assoc, ← List.append_assoc]
    exact (h.maintain hooks hc).look hooks ((kept_linked m).maintain hc) key
  | insert | insertIfAbsent | remove | purge | clear => exact hother (by simp) (by simp)

end Session

/-! ## What hooks hear -/

namespace Session

variable {V C W : Type}

/-- Hooks that keep a list of what they are asked, last last. -/
structure Hears (m : Moment V C W) (heard : W → List (Asked V C)) : Prop where
  hears : ∀ hook key value reason (scene : Scene W),
    heard (m.decide hook key value reason scene).2.world =
      heard scene.world ++ [⟨hook, key, value, reason⟩]

namespace Hears

variable {m : Moment V C W} {heard : W → List (Asked V C)} (h : Hears m heard) (s : Session V C W)

include h

theorem attend (task : Task V C) : heard (s.attend m task).1.scene.world =
    heard s.scene.world ++ task.call?.toList := by
  cases task with
  | consult e =>
    have hanswered : heard (s.answered m e).world = heard s.scene.world ++ e.call?.toList := by
      unfold answered Evicted.call?
      cases e.slot.options.hook with
      | none => exact (List.append_nil _).symm
      | some hook => exact h.hears hook e.key e.slot.value e.reason (s.asking e)
    cases hr : s.reinsertion? m e with
    | none =>
      obtain ⟨also, hattend⟩ := attend_of_no_reinsertion hr
      rw [hattend]
      exact hanswered
    | some p =>
      obtain ⟨value, options⟩ := p
      rw [attend_of_reinsertion hr, world_commit]
      exact hanswered
  | remove key =>
    refine .trans (congrArg heard ?_) (List.append_nil _).symm
    cases hd : s.cache.detach key with
    | none => rw [attend_absent hd]
    | some d => rw [attend_stored hd]; rfl

theorem settle (tasks : List (Task V C)) : heard (s.settle m tasks).scene.world =
    heard s.scene.world ++ (s.steps m tasks).filterMap (·.task.call?) := by
  fun_induction steps m s tasks with
  | case1 s => simp
  | case2 s task tasks ih =>
    rw [settle_cons, ih, h.attend]
    cases hcall : task.call? <;> simp [hcall]

theorem purge : heard (Session.purge m s).2.scene.world =
    heard s.scene.world ++ Begun.calls m [(s, .purge)] := by
  unfold Begun.calls
  rw [List.flatMap_singleton]
  exact h.settle (s.swept m) _

theorem maintain : heard (s.maintain m).scene.world =
    heard s.scene.world ++ Begun.calls m (s.upkeepBegun m) := by
  unfold Session.maintain Session.upkeepBegun
  split
  · exact h.purge s
  · exact (List.append_nil _).symm

theorem look (key : String) : heard (Session.look m key s).2.scene.world =
    heard s.scene.world ++ Begun.calls m (s.lookBegun m key) := by
  unfold Session.look Session.lookBegun
  cases hget : s.cache.entries.get? key with
  | none => exact (List.append_nil _).symm
  | some slot =>
    by_cases hlive : slot.isLive s.cache.epoch m.now s.scene.signals = true
    · simp only [hlive, if_true]
      exact (List.append_nil _).symm
    · simp only [hlive]
      exact h.purge s

omit h in
theorem world_begin (r : Cache.Request V C) :
    (r.begin m s).1.scene.world = s.scene.world := by
  cases r with
  | insert key value options => exact world_commit ..
  | insertIfAbsent key value options =>
    simp only [Cache.Request.begin]
    split
    · rfl
    · exact world_commit ..
  | get | look | purge | clear => rfl
  | remove key =>
    simp only [Cache.Request.begin]
    cases s.cache.detach key <;> rfl

theorem perform (r : Cache.Request V C) : heard (r.perform m s).scene.world =
    heard s.scene.world ++ Begun.calls m (r.begun m s) := by
  have hother : (∀ key, r ≠ .get key) → (∀ key, r ≠ .look key) →
      heard (r.perform m s).scene.world = heard s.scene.world ++ Begun.calls m [(s, r)] := by
    intro hget hlook
    unfold Begun.calls
    rw [Cache.Request.perform_eq_settle m s hget hlook, h.settle, world_begin,
      List.flatMap_singleton]
    rfl
  cases r with
  | look key => exact h.look s key
  | get key =>
    unfold Cache.Request.begun
    rw [Begun.calls_append, ← List.append_assoc, ← h.maintain]
    exact h.look (s.maintain m) key
  | insert | insertIfAbsent | remove | purge | clear => exact hother (by simp) (by simp)

end Hears

end Session

/-! ## Whole runs -/

namespace Commons

variable {V C W : Type}

/-- The entries that leave by themselves in a move. -/
def moveLeft (decide : Decisions V C W) (σ : Commons Unit V C W) :
    Move Unit V C W → List (String × Slot V C)
  | .perform _ r => Begun.left (σ.moment decide) (r.begun (σ.moment decide) (σ.session ()))
  | .begin _ r => r.ownLeft (σ.moment decide) (σ.session ())
  | .attend =>
    match σ.tasks with
    | [] => []
    | (_, task) :: _ => Session.Step.left (σ.moment decide) ⟨σ.session (), task⟩
  | .fire _ | .issueToken | .advance _ | .change _ => []

/-- The calls of hooks in a move. -/
def moveCalls (decide : Decisions V C W) (σ : Commons Unit V C W) :
    Move Unit V C W → List (Asked V C)
  | .perform _ r => Begun.calls (σ.moment decide) (r.begun (σ.moment decide) (σ.session ()))
  | .attend =>
    match σ.tasks with
    | [] => []
    | (_, task) :: _ => task.call?.toList
  | .begin _ _ | .fire _ | .issueToken | .advance _ | .change _ => []

/-- The entries that leave a cache by themselves in a run: they are over, or depend on what leaves,
and nobody has asked for them to be taken out, or put another in their place. -/
def left (decide : Decisions V C W) (σ : Commons Unit V C W) :
    List (Move Unit V C W) → List (String × Slot V C)
  | [] => []
  | move :: moves => σ.moveLeft decide move ++ left decide (σ.step decide move) moves

/-- The calls of hooks in a run, in order. -/
def calls (decide : Decisions V C W) (σ : Commons Unit V C W) :
    List (Move Unit V C W) → List (Asked V C)
  | [] => []
  | move :: moves => σ.moveCalls decide move ++ calls decide (σ.step decide move) moves

/-- The tasks that wait. -/
def waitingTasks (σ : Commons Unit V C W) : List (Session.Task V C) := σ.tasks.map Prod.snd

theorem session_after (σ : Commons Unit V C W) (i : Unit) (s : Session V C W) :
    (σ.after i s).session () = s := by
  change Session.mk ((σ.after i s).caches ()) s.scene = s
  rw [caches_after, if_pos rfl]

theorem waitingTasks_afterBegin (σ : Commons Unit V C W) (i : Unit) (s : Session V C W)
    (tasks : List (Session.Task V C)) :
    (σ.afterBegin i s tasks).waitingTasks = tasks ++ σ.waitingTasks := by
  unfold waitingTasks afterBegin
  rw [List.map_append, List.map_map]
  exact congrArg (· ++ _) (List.map_id _)

variable {left : List (String × Slot V C)} {calls : List (Asked V C)}

/-- **A move keeps the balance.** -/
theorem balanced_step (hooks : Discreet V C W) {σ : Commons Unit V C W}
    (h : (σ.session ()).Balanced σ.waitingTasks left calls) (hc : (σ.caches ()).Linked)
    (move : Move Unit V C W) :
    ((σ.step hooks.decide move).session ()).Balanced (σ.step hooks.decide move).waitingTasks
      (left ++ σ.moveLeft hooks.decide move) (calls ++ σ.moveCalls hooks.decide move) := by
  cases move with
  | perform i r =>
    simp only [step, moveLeft, moveCalls, session_after]
    exact h.perform hooks hc r
  | begin i r =>
    simp only [step, moveLeft, moveCalls, session_afterBegin, waitingTasks_afterBegin,
      List.append_nil]
    exact h.begin hc _ r
  | attend =>
    simp only [step, moveLeft, moveCalls]
    unfold waitingTasks at h
    cases htasks : σ.tasks with
    | nil =>
      rw [htasks] at h
      simpa [waitingTasks, htasks] using h
    | cons first tasks =>
      obtain ⟨i, task⟩ := first
      rw [htasks] at h
      simp only [session_afterBegin, waitingTasks_afterBegin]
      exact Session.Balanced.attend hooks σ.now h hc
  | fire | issueToken | advance | change =>
    simp only [moveLeft, moveCalls, List.append_nil]
    exact h

theorem balanced_run (hooks : Discreet V C W) {σ : Commons Unit V C W}
    (h : (σ.session ()).Balanced σ.waitingTasks left calls) (hc : ∀ i, (σ.caches i).Linked)
    (moves : List (Move Unit V C W)) :
    ((σ.run hooks.decide moves).session ()).Balanced (σ.run hooks.decide moves).waitingTasks
      (left ++ σ.left hooks.decide moves) (calls ++ σ.calls hooks.decide moves) := by
  induction moves generalizing σ left calls with
  | nil =>
    rw [Commons.left, Commons.calls, List.append_nil, List.append_nil]
    exact h
  | cons move moves ih =>
    rw [Commons.left, Commons.calls, ← List.append_assoc, ← List.append_assoc]
    exact ih (balanced_step hooks h (hc ()) move) (linked_step hooks.decide σ move hc)

/-- What hooks hear in a run are its calls, as long as nobody else touches what they keep. -/
theorem heard_run {decide : Decisions V C W} {heard : W → List (Asked V C)}
    (h : ∀ now, Session.Hears ⟨now, decide now⟩ heard) {moves : List (Move Unit V C W)}
    (hmoves : ∀ world, Move.change world ∉ moves) (σ : Commons Unit V C W) :
    heard (σ.run decide moves).scene.world =
      heard σ.scene.world ++ σ.calls decide moves := by
  induction moves generalizing σ with
  | nil => exact (List.append_nil _).symm
  | cons move moves ih =>
    have hrest := ih (fun world hmem => hmoves world (List.mem_cons_of_mem _ hmem))
      (σ.step decide move)
    rw [calls, ← List.append_assoc]
    refine hrest.trans (congrArg (· ++ _) ?_)
    cases move with
    | perform i r => exact (h σ.now).perform (σ.session ()) r
    | begin i r =>
      simp only [moveCalls, List.append_nil]
      exact congrArg heard (Session.Hears.world_begin (m := σ.moment decide) (σ.session ()) r)
    | attend =>
      simp only [step, moveCalls]
      cases σ.tasks with
      | nil => exact (List.append_nil _).symm
      | cons first tasks => exact (h σ.now).attend (σ.session ()) first.2
    | change world => exact absurd List.mem_cons_self (hmoves world)
    | fire | issueToken | advance => exact (List.append_nil _).symm

/-- **Every entry is accounted for**, at every moment of every run of a cache from empty, whatever
its hooks decide, with whatever they themselves do to the cache while they are asked. What is stored
is what was put in, by requests and hooks, less what was in the way of an insertion, what was
dropped with all others, what the metric of evictions has counted, for its three causes, and what
has left and is still to be counted; the last is nothing when nothing is left to do. Those counted
under a cause of their own are, with those still to be counted, the entries that have left by
themselves, each as often as it has. And hooks are asked once for each of them that has one, in the
order in which they are counted, with its key, its value and the reason that it is counted under; no
entry that was removed, replaced or dropped is among them. -/
theorem entries_accounted (hooks : Discreet V C W) (flag : Flag) (epoch now : Instant)
    (scene : Scene W) (moves : List (Move Unit V C W)) :
    let σ₀ : Commons Unit V C W := start ⟨fun _ => flag, fun _ _ _ => rfl⟩ (fun _ => epoch) now
      { scene with journal := [] }
    let σ := σ₀.run hooks.decide moves
    let journal := σ.scene.journal
    let pending := Session.waitingEntries σ.waitingTasks
    (σ.caches ()).size + pending.length + replacedCount journal + droppedCount journal +
        (evictedCount journal .removed + evictedCount journal .expired +
          evictedCount journal .dependency) = storedCount journal ∧
      ∃ counted : List (Evicted V C),
        ((counted ++ pending).map Evicted.row).Perm (σ₀.left hooks.decide moves) ∧
        lapses journal = counted.map Evicted.lapse ∧
        σ₀.calls hooks.decide moves = counted.filterMap Evicted.call? := by
  intro σ₀ σ journal pending
  have hstart : (σ₀.session ()).Balanced σ₀.waitingTasks [] [] := .start
  have hrun := balanced_run hooks hstart
    (fun _ => .dropAll { epoch := epoch, flag := flag }) moves
  obtain ⟨hsum, counted, hleft, hlapses, hcalls⟩ := hrun
  simp only [Scene.book, storedCount_filter, replacedCount_filter, evictedCount_filter,
    droppedCount_filter, lapses_filter] at hsum hlapses
  exact ⟨hsum, counted, hleft, hlapses, hcalls⟩

end Commons

end Templating
