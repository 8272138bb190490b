import Templating.Cache.Basic

/-!
# Working with a cache

A `Session` is a cache in its scene. The operations here evict, ask the hooks of what was evicted,
and carry out what they decide, which may insert and remove further entries. `settle` does this to
the end: each entry is asked at most once for each time it was stored, and only a hook stores
entries, so the work ends whatever the hooks decide.
-/

namespace Templating

/-- A cache and what surrounds it. -/
structure Session (V C W : Type) where
  cache : Cache V C
  scene : Scene W

/-- A computation over a cache in its scene. -/
abbrev Work (V C W : Type) := StateM (Session V C W)

/-- The present: the instant, and what a hook decides at it about an entry that leaves. -/
structure Moment (V C W : Type) where
  now : Instant
  decide : (hook : C) → (key : String) → (value : V) → Reason → Act W (Action V C)

namespace Session

variable {V C W : Type}

def onScene {α : Type} (act : Act W α) : Work V C W α := fun s =>
  let (a, scene) := act s.scene
  (a, { s with scene })

def note (e : Event) : Work V C W Unit := modify fun s => { s with scene := s.scene.note e }

inductive Task (V C : Type)
  /-- Count an evicted entry and ask its hook. -/
  | consult (entry : Evicted V C)
  /-- Remove a key on behalf of a hook. -/
  | remove (key : String)

/-- How many entries wait to be asked. -/
def waiting : List (Task V C) → Nat
  | [] => 0
  | .consult _ :: tasks => waiting tasks + 1
  | .remove _ :: tasks => waiting tasks

theorem waiting_consults (evicted : List (Evicted V C)) (tasks : List (Task V C)) :
    waiting (evicted.map .consult ++ tasks) = evicted.length + waiting tasks := by
  induction evicted with
  | nil => simp
  | cons e evicted ih => simp [waiting, ih]; omega

theorem waiting_removes (keys : List String) (tasks : List (Task V C)) :
    waiting (keys.map .remove ++ tasks) = waiting tasks := by
  induction keys with
  | nil => simp
  | cons key keys ih => simpa [waiting] using ih

def commit (s : Session V C W) (key : String) (p : Cache.Placed V C) : Session V C W where
  cache := p.cache
  scene :=
    ({ s.scene with signals := p.signals }.noteIf p.replaced (.replaced key)).noteIf p.stored
      (.stored key)

/-- Does what is left to do, first things first. -/
def settle (m : Moment V C W) (s : Session V C W) (tasks : List (Task V C)) : Session V C W :=
  match tasks with
  | [] => s
  | .consult e :: tasks =>
    let scene := s.scene.note (.evicted e.key e.reason.cause)
    match e.slot.options.hook with
    | none => settle m { s with scene } tasks
    | some hook =>
      let (action, scene) :=
        m.decide hook e.key e.slot.value e.reason (scene.note (.consulted e.key e.reason))
      match action with
      | .remove also => settle m { s with scene } (also.map .remove ++ tasks)
      | .reinsert value options =>
        let p := s.cache.place m.now scene.signals e.key value options
        settle m ({ s with scene }.commit e.key p) (p.evicted.map .consult ++ tasks)
  | .remove key :: tasks =>
    match _h : s.cache.detach key with
    | none => settle m s tasks
    | some d =>
      settle m ⟨d.cache, s.scene.note (.evicted key .removed)⟩ (d.evicted.map .consult ++ tasks)
termination_by (s.cache.size + waiting tasks, tasks.length)
decreasing_by
  · exact Prod.Lex.left _ _ (by simp [waiting])
  · exact Prod.Lex.left _ _ (by simp [waiting, waiting_removes])
  · simp only [commit, waiting_consults, List.length_append, List.length_map, List.length_cons,
      waiting]
    rcases s.cache.size_place m.now scene.signals e.key value options with ⟨hnil, hsize⟩ | hsize
    · rw [Prod.lex_def, hnil, List.length_nil]
      simp only
      omega
    · exact Prod.Lex.left _ _ (by omega)
  · exact Prod.Lex.right _ (by simp)
  · have := Cache.size_detach_lt _h
    refine Prod.Lex.left _ _ ?_
    simp only [waiting_consults, waiting]
    omega

def consultAll (m : Moment V C W) (s : Session V C W) (evicted : List (Evicted V C)) :
    Session V C W :=
  s.settle m (evicted.map .consult)

/-- Evicts what has to leave by itself, with all that depends on it, and answers how many entries
that were. -/
def purge (m : Moment V C W) : Work V C W Nat := fun s =>
  let signals := s.scene.signals.lower s.cache.flag
  let (cache, evicted) := s.cache.sweep m.now signals
  (evicted.length, consultAll m ⟨cache, { s.scene with signals }⟩ evicted)

/-- Purges unless it is sure that this would find nothing. -/
def maintain (m : Moment V C W) (s : Session V C W) : Session V C W :=
  if s.cache.mayBeDue m.now s.scene.signals then (purge m s).2 else s

/-- The value of a live entry, which counts as read. -/
def get (m : Moment V C W) (key : String) : Work V C W (Option V) := fun s =>
  let s := maintain m s
  match s.cache.entries.get? key with
  | none => (none, { s with scene := s.scene.note (.miss key) })
  | some slot =>
    if slot.isLive s.cache.epoch m.now s.scene.signals then
      (some slot.value, ⟨s.cache.touch m.now key, s.scene.note (.hit key)⟩)
    else
      let s := (purge m s).2
      (none, { s with scene := s.scene.note (.miss key) })

/-- Whether a live entry is stored under `key`. It does not count as read. -/
def contains (m : Moment V C W) (key : String) (s : Session V C W) : Bool :=
  s.cache.contains m.now s.scene.signals key

/-- Puts an entry in and answers whether it was stored: an entry that would be invalid from the
start is not, but the entry it should have replaced leaves all the same. -/
def insert (m : Moment V C W) (key : String) (value : V) (options : Options C) :
    Work V C W Bool := fun s =>
  let p := s.cache.place m.now s.scene.signals key value options
  (p.stored, consultAll m (s.commit key p) p.evicted)

/-- Puts an entry in unless a live one is there. -/
def insertIfAbsent (m : Moment V C W) (key : String) (value : V) (options : Options C) :
    Work V C W Bool := fun s =>
  if s.contains m key then (false, s) else insert m key value options s

/-- Takes an entry out, live or not, with all that depends on it. Its own hook is not asked. -/
def remove (m : Moment V C W) (key : String) : Work V C W (Option V) := fun s =>
  match s.cache.detach key with
  | none => (none, s)
  | some d =>
    (some d.slot.value,
      consultAll m ⟨d.cache, s.scene.note (.evicted key .removed)⟩ d.evicted)

/-- Drops every entry without asking any hook. -/
def clear : Work V C W Unit := fun s =>
  ((), ⟨s.cache.dropAll, s.scene.note (.cleared s.cache.size)⟩)

end Session

end Templating
