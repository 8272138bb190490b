import Mathlib.Logic.Embedding.Basic
import Templating.Proofs.Cache.Settle

/-!
# Caches at work

Several caches share one scene, and callers use them in any order. A **request** is done as a whole
(`Cache.Request.perform`), or it is only begun (`Cache.Request.begin`): its entries have left and
their hooks wait to be asked, one task after the other. While tasks wait anything may happen, also
to the same cache, as when a hook calls back into it. A **run** is any list of such moves.

`linked_run`: at every moment of every run every cache is linked.
-/

namespace Templating

/-- What is asked of a cache. -/
inductive Cache.Request (V C : Type)
  | insert (key : String) (value : V) (options : Options C)
  | insertIfAbsent (key : String) (value : V) (options : Options C)
  | get (key : String)
  /-- The second half of a read, for one whose purge was only begun. -/
  | look (key : String)
  | remove (key : String)
  | purge
  | clear

namespace Cache.Request

variable {V C W : Type}

/-- The session when a request is done, with all that hooks have asked for. -/
def perform (m : Moment V C W) (s : Session V C W) : Cache.Request V C → Session V C W
  | insert key value options => (Session.insert m key value options s).2
  | insertIfAbsent key value options => (Session.insertIfAbsent m key value options s).2
  | get key => (Session.get m key s).2
  | look key => (Session.look m key s).2
  | remove key => (Session.remove m key s).2
  | purge => (Session.purge m s).2
  | clear => (Session.clear s).2

/-- The session when a request has evicted what it evicts and no hook was asked yet, and the entries
whose hooks are to be asked. A read begins with a purge. -/
def begin (m : Moment V C W) (s : Session V C W) :
    Cache.Request V C → Session V C W × List (Evicted V C)
  | insert key value options =>
    let p := s.cache.place m.now s.scene.signals key value options
    (s.commit key p, p.evicted)
  | insertIfAbsent key value options =>
    let p := s.cache.place m.now s.scene.signals key value options
    if s.contains m key then (s, []) else (s.commit key p, p.evicted)
  | get _ | look _ | purge =>
    (s.swept m, (s.cache.sweep m.now (s.scene.signals.lower s.cache.flag)).2)
  | remove key =>
    match s.cache.detach key with
    | none => (s, [])
    | some d => (⟨d.cache, s.scene.note (.evicted key .removed)⟩, d.evicted)
  | clear => ((Session.clear s).2, [])

end Cache.Request

/-- Caches that share a scene. -/
structure Commons (ι V C W : Type) where
  now : Instant
  caches : ι → Cache V C
  scene : Scene W
  /-- What is left to do, first things first, each with the cache that it is about. -/
  tasks : List (ι × Session.Task V C) := []

/-- What hooks decide, at each instant. -/
abbrev Decisions (V C W : Type) :=
  Instant → (hook : C) → (key : String) → (value : V) → Reason → Act W (Action V C)

/-- One thing that happens to caches that share a scene. -/
inductive Move (ι V C W : Type)
  | perform (i : ι) (r : Cache.Request V C)
  | begin (i : ι) (r : Cache.Request V C)
  /-- The first task that waits is done. -/
  | attend
  | fire (t : Token)
  | issueToken
  | advance (d : Duration)
  /-- Something changes in the world around. -/
  | change (world : W)

namespace Commons

variable {ι V C W : Type}

/-- Empty caches, each with its own flag. -/
def start (flags : ι ↪ Flag) (epochs : ι → Instant) (now : Instant) (scene : Scene W) :
    Commons ι V C W where
  now
  caches i := { epoch := epochs i, flag := flags i }
  scene

/-- One of the caches in the scene. -/
def session (σ : Commons ι V C W) (i : ι) : Session V C W := ⟨σ.caches i, σ.scene⟩

/-- The present. -/
def moment (decide : Decisions V C W) (σ : Commons ι V C W) : Moment V C W := ⟨σ.now, decide σ.now⟩

variable [DecidableEq ι]

/-- The caches when one of them, with the scene, has become `s`. -/
def after (σ : Commons ι V C W) (i : ι) (s : Session V C W) : Commons ι V C W :=
  { σ with caches := Function.update σ.caches i s.cache, scene := s.scene }

/-- The caches when one of them has become `s` and tasks about it are to be done before others. -/
def afterBegin (σ : Commons ι V C W) (i : ι) (s : Session V C W)
    (tasks : List (Session.Task V C)) : Commons ι V C W :=
  { σ.after i s with tasks := tasks.map (fun task => (i, task)) ++ σ.tasks }

/-- What a move does. -/
def step (decide : Decisions V C W) (σ : Commons ι V C W) : Move ι V C W → Commons ι V C W
  | .perform i r => σ.after i (r.perform (σ.moment decide) (σ.session i))
  | .begin i r =>
    let (s, evicted) := r.begin (σ.moment decide) (σ.session i)
    σ.afterBegin i s (evicted.map .consult)
  | .attend =>
    match σ.tasks with
    | [] => σ
    | (i, task) :: tasks =>
      let (s, more) := (σ.session i).attend (σ.moment decide) task
      { σ with tasks }.afterBegin i s more
  | .fire t => { σ with scene.signals := σ.scene.signals.fire t }
  | .issueToken => { σ with scene.signals := σ.scene.signals.issueToken.2 }
  | .advance d => { σ with now := σ.now + d }
  | .change world => { σ with scene.world := world }

/-- A run: any moves, one after the other. -/
def run (decide : Decisions V C W) (σ : Commons ι V C W) (moves : List (Move ι V C W)) :
    Commons ι V C W :=
  moves.foldl (step decide) σ

/-! ## What runs keep -/

theorem run_induction {decide : Decisions V C W} {P : Commons ι V C W → Prop}
    (hstep : ∀ σ move, P σ → P (σ.step decide move)) {σ : Commons ι V C W} (h : P σ)
    (moves : List (Move ι V C W)) : P (σ.run decide moves) := by
  induction moves generalizing σ with
  | nil => exact h
  | cons move moves ih => exact ih (hstep σ move h)

theorem caches_after (σ : Commons ι V C W) (i j : ι) (s : Session V C W) :
    (σ.after i s).caches j = if j = i then s.cache else σ.caches j :=
  Function.update_apply ..

theorem session_afterBegin (σ : Commons ι V C W) (i : ι) (s : Session V C W)
    (tasks : List (Session.Task V C)) : (σ.afterBegin i s tasks).session i = s := by
  change Session.mk ((σ.after i s).caches i) s.scene = s
  rw [caches_after, if_pos rfl]

theorem step_attend (decide : Decisions V C W) {σ : Commons ι V C W} {i : ι}
    {task : Session.Task V C} {tasks : List (ι × Session.Task V C)}
    (h : σ.tasks = (i, task) :: tasks) :
    σ.step decide .attend =
      { σ with tasks }.afterBegin i ((σ.session i).attend (σ.moment decide) task).1
        ((σ.session i).attend (σ.moment decide) task).2 := by
  simp only [step, h]

theorem forall_after {σ : Commons ι V C W} {i : ι} {s : Session V C W} {P : ι → Cache V C → Prop}
    (hi : P i s.cache) (hother : ∀ j, j ≠ i → P j (σ.caches j)) (j : ι) :
    P j ((σ.after i s).caches j) := by
  rw [caches_after]
  split
  · next hj => rwa [hj]
  · next hj => exact hother j hj

end Commons

namespace Session.Kept

variable {V C W : Type} {m : Moment V C W} {P : Session V C W → Prop} (k : Kept m P)
  {s : Session V C W}

include k

theorem perform (h : P s) (r : Cache.Request V C) : P (r.perform m s) := by
  cases r with
  | insert key value options => exact k.insert h key value options
  | insertIfAbsent key value options => exact k.insertIfAbsent h key value options
  | get key => exact k.get h key
  | look key => exact k.look h key
  | remove key => exact k.remove h key
  | purge => exact k.purge h
  | clear => exact k.clear h

theorem begin (h : P s) (r : Cache.Request V C) : P (r.begin m s).1 := by
  cases r with
  | insert key value options => exact k.place s key value options h
  | insertIfAbsent key value options =>
    simp only [Cache.Request.begin]
    split
    · exact h
    · exact k.place s key value options h
  | get key | look key | purge => exact k.sweep s h
  | remove key =>
    simp only [Cache.Request.begin]
    cases hd : s.cache.detach key with
    | none => exact h
    | some d => exact k.note _ _ (k.detach s key d h hd)
  | clear => exact k.clear h

end Session.Kept

/-! ## Linked caches at every moment -/

theorem Session.kept_linked {V C W : Type} (m : Moment V C W) :
    Session.Kept m fun s => s.cache.Linked where
  note _ _ h := h
  decide _ _ _ _ _ h := h
  place s key value options h := h.place key m.now s.scene.signals value options
  detach _ _ _ h hd := h.detach hd
  sweep s h := h.sweep m.now (s.scene.signals.lower s.cache.flag)
  touch _ key h := h.touch m.now key
  dropAll s _ := .dropAll s.cache

namespace Commons

variable {ι V C W : Type} [DecidableEq ι]

/-- What all operations on a cache keep, every move keeps. -/
theorem kept_step {decide : Decisions V C W} {P : ι → Cache V C → Prop}
    (k : ∀ (σ : Commons ι V C W) i, Session.Kept (σ.moment decide) fun s => P i s.cache)
    (σ : Commons ι V C W) (move : Move ι V C W) (h : ∀ i, P i (σ.caches i)) (i : ι) :
    P i ((σ.step decide move).caches i) := by
  cases move with
  | perform j r =>
    exact forall_after ((k σ j).perform (s := σ.session j) (h j) r) (fun i _ => h i) i
  | begin j r =>
    exact forall_after ((k σ j).begin (s := σ.session j) (h j) r) (fun i _ => h i) i
  | attend =>
    simp only [step]
    split
    · exact h i
    · next j task tasks _ =>
      exact forall_after ((k σ j).attend (s := σ.session j) (h j) task) (fun i _ => h i) i
  | fire t => exact h i
  | issueToken => exact h i
  | advance d => exact h i
  | change world => exact h i

theorem linked_step (decide : Decisions V C W) (σ : Commons ι V C W) (move : Move ι V C W)
    (h : ∀ i, (σ.caches i).Linked) (i : ι) : ((σ.step decide move).caches i).Linked :=
  kept_step (P := fun _ c => c.Linked) (fun σ _ => Session.kept_linked (σ.moment decide)) σ move h i

/-- **Every cache is linked at every moment**: whatever requests are made of any caches, begun and
left waiting or carried out, in whatever order, whatever their hooks decide, and whatever tokens
fire meanwhile. -/
theorem linked_run (decide : Decisions V C W) (flags : ι ↪ Flag) (epochs : ι → Instant)
    (now : Instant) (scene : Scene W) (moves : List (Move ι V C W)) (i : ι) :
    (((start flags epochs now scene).run decide moves).caches i).Linked :=
  run_induction (P := fun σ => ∀ i, (σ.caches i).Linked) (linked_step decide)
    (fun i => Cache.Linked.dropAll { epoch := epochs i, flag := flags i }) moves i

end Commons

end Templating
