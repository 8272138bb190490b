import Mathlib.Logic.Embedding.Basic
import Templating.Proofs.Cache.Tidy
import Templating.Proofs.Engine.Collisions
import Templating.Proofs.Engine.Hanging

/-!
# Engines under one roof

In a `House` live engines that share one cache. Each has a room of its own: files in memory that
push changes, where every call is noted. Each has a prefix of its own, without a colon. They do
their errands one at a time, in any order, and between two of them time may pass (`House.step`). The
house keeps what each was answered.
-/

namespace Templating

/-! ## Rooms -/

/-- Files in memory, and the calls to them, last first. -/
structure Room where
  memory : Memory
  calls : List (Call × String) := []

namespace Room

def within {α : Type} (act : Act Memory α) : Act Room α :=
  Source.within Room.memory (fun room memory => { room with memory }) act

/-- A call, which is noted. -/
def call {α : Type} (kind : Call) (path : String) (act : Act Memory α) : Act Room α := do
  modify fun scene => { scene with world.calls := (kind, path) :: scene.world.calls }
  within act

def store : Store Room where
  isFile path := call .isFile path (Memory.store.isFile path)
  isFolder path := call .isFolder path (Memory.store.isFolder path)
  list path := call .list path (Memory.store.list path)
  read path := call .read path (Memory.store.read path)
  fingerprint path := call .fingerprint path (Memory.store.fingerprint path)
  watch path := call .watch path (Memory.store.watch path)
  capacity room := Memory.store.capacity room.memory
  write path content := within (Memory.store.write path content)
  remove path := within (Memory.store.remove path)

end Room

/-! ## Houses -/

namespace House

/-- What an engine is asked for. -/
inductive Request
  | resolve (g : Group.Made) (name : String) (layout : Option String)
  | resolvePartial (g : Group.Made) (name : String)
  | resolvePath (g : Group.Made) (path : String)
  | config (g : Group.Made)
  | register (name source : String)
  | clear

/-- What is done for one of the engines. -/
inductive Errand
  /-- An engine is made, in place of the one before it. -/
  | join (site : Template.Library) (options : EngineOptions)
  | ask (r : Request)
  | write (path content : String)
  | remove (path : String)

inductive Reply
  /-- An engine was made, or a template registered. -/
  | made (outcome : Except ViewError Unit)
  | resolution (outcome : Except ViewError Resolution)
  | template (outcome : Except ViewError (Option Template.Compiled))
  | partials (value : GroupConfig)
  | done
  | removed (found : Bool)
  /-- There is no engine to ask. -/
  | absent

inductive Move (ι : Type)
  | errand (i : ι) (errand : Errand)
  | advance (time : Duration)

abbrev Rooms (ι : Type) := ι → Room

/-- The shared cache in its scene. -/
abbrev Common (ι : Type) := Session Entry (Poller (Rooms ι)) (Rooms ι)

end House

/-- The shared cache with the rooms, the engines, and what each was answered, last first. -/
structure House (ι : Type) where
  now : Instant
  session : House.Common ι
  engines : ι → Option (Engine (House.Rooms ι)) := fun _ => none
  answers : ι → List House.Reply := fun _ => []

namespace House

variable {ι : Type}

/-- Whether a move is about one engine. All are concerned that time passes. -/
def Move.concerns [DecidableEq ι] (i : ι) : Move ι → Bool
  | .errand j _ => decide (j = i)
  | .advance _ => true

/-- Nobody has joined yet. -/
def start (flag : Flag) (epoch now : Instant) (files : ι → List (String × String)) : House ι where
  now
  session :=
    ⟨{ epoch, flag }, { world := fun i => { memory := { files := files i, push := true } } }⟩

variable [DecidableEq ι]

/-- An action in one of the rooms. -/
def inRoom {α : Type} (i : ι) (act : Act Room α) : Act (Rooms ι) α :=
  Source.within (fun rooms => rooms i) (fun rooms room => Function.update rooms i room) act

def source (i : ι) : Source (Rooms ι) :=
  Room.store.toSource.focus (fun rooms => rooms i) fun rooms room => Function.update rooms i room

/-- What an engine answers, and the engine afterwards. -/
def serve (e : Engine (Rooms ι)) (now : Instant) :
    Request → Resolving (Rooms ι) (Reply × Engine (Rooms ι))
  | .resolve g name layout => return (.resolution (← e.resolve now g.1 name layout), e)
  | .resolvePartial g name => return (.resolution (← e.resolvePartial now g.1 name), e)
  | .resolvePath g path => return (.template (← e.resolvePath now g.1 path), e)
  | .config g => return (.partials (← e.config now g.1), e)
  | .register name source => do
    match ← e.register now name source with
    | .ok e' => return (.made (.ok ()), e')
    | .error err => return (.made (.error err), e)
  | .clear => do
    e.clear now
    return (.done, e)

/-- What comes of an errand, and the engine afterwards, if there is one. An engine joins with the
prefix that is its own. -/
def perform (i : ι) (k : KeySpace) (now : Instant) (e? : Option (Engine (Rooms ι))) :
    Errand → Resolving (Rooms ι) (Reply × Option (Engine (Rooms ι)))
  | .join site options => do
    match ← Engine.create (source i) site { options with keyPrefix := some k.keyPrefix } now with
    | .ok e => return (.made (.ok ()), some e)
    | .error err => return (.made (.error err), e?)
  | .ask r => do
    match e? with
    | none => return (.absent, none)
    | some e =>
      let (reply, e) ← serve e now r
      return (reply, some e)
  | .write path content => do
    Session.onScene (inRoom i (Room.store.write path content))
    return (.done, e?)
  | .remove path => do
    let found ← Session.onScene (inRoom i (Room.store.remove path))
    return (.removed found, e?)

/-- What a move leaves behind. -/
def step (spaces : ι ↪ { k : KeySpace // k.ColonFree }) (σ : House ι) : Move ι → House ι
  | .errand i errand =>
    let done := perform i (spaces i).1 σ.now (σ.engines i) errand σ.session
    { σ with
      session := done.2
      engines := Function.update σ.engines i done.1.2
      answers := Function.update σ.answers i (done.1.1 :: σ.answers i) }
  | .advance time => { σ with now := σ.now + time }

def run (spaces : ι ↪ { k : KeySpace // k.ColonFree }) (σ : House ι) (moves : List (Move ι)) :
    House ι :=
  moves.foldl (step spaces) σ

/-! ## What happens in a room -/

section Rooms

/-- The scene when a call is noted. -/
def noted (i : ι) (kind : Call) (path : String) (scene : Scene (Rooms ι)) : Scene (Rooms ι) :=
  { scene with
    world := Function.update scene.world i
      { scene.world i with calls := (kind, path) :: (scene.world i).calls } }

variable (i : ι) (path : String) (scene : Scene (Rooms ι))

theorem source_read : (source i).read path scene =
    ((scene.world i).memory.read path, noted i .read path scene) := rfl

/-- The scene when a token was handed out. -/
def watched (i : ι) (path : String) (scene : Scene (Rooms ι)) : Scene (Rooms ι) :=
  let room := scene.world i
  { scene with
    signals := scene.signals.issueToken.2
    world := Function.update scene.world i
      { memory := { room.memory with
          watchers := (path, scene.signals.issueToken.1) :: room.memory.attended
          orphans := [] }
        calls := (.watch, path) :: room.calls } }

theorem source_changeToken? (hpush : (scene.world i).memory.push = true) :
    (source i).changeToken? path scene =
      (some scene.signals.issueToken.1, watched i path scene) := by
  have hwatch : Memory.watch path { scene with world := (scene.world i).memory } =
      (some scene.signals.issueToken.1,
        { scene with
          signals := scene.signals.issueToken.2
          world := { (scene.world i).memory with
            watchers := (path, scene.signals.issueToken.1) :: (scene.world i).memory.attended
            orphans := [] } }) :=
    if_pos hpush
  have hcall : (source i).watch path scene =
      (.ok (some scene.signals.issueToken.1), watched i path scene) := by
    change (let r := Memory.watch path { scene with world := (scene.world i).memory };
      let room : Room := ⟨r.2.world, (.watch, path) :: (scene.world i).calls⟩
      ((.ok r.1 : Except StoreError (Option Token)),
        { r.2 with world := Function.update scene.world i room })) = _
    rw [hwatch]
    rfl
  unfold Source.changeToken?
  rw [bind_apply, hcall]
  rfl

/-- The scene when files have changed at a path, and those who watch it were told. -/
def changed (i : ι) (path : String) (files : List (String × String)) (scene : Scene (Rooms ι)) :
    Scene (Rooms ι) :=
  let memory := (scene.world i).memory
  { scene with
    signals := ((memory.watchers.filter fun w => covers w.1 path).map Prod.snd).foldl
      Signals.fire scene.signals
    world := Function.update scene.world i { scene.world i with
      memory := { memory with
        files, watchers := memory.watchers.filter fun w => !covers w.1 path } } }

theorem inRoom_write (content : String) : inRoom i (Room.store.write path content) scene =
    ((), changed i path (Sorted.put path content (scene.world i).memory.files) scene) := by
  change (let r := Memory.notify path { scene with world := { (scene.world i).memory with
      files := Sorted.put path content (scene.world i).memory.files } };
    ((), { r.2 with
      world := Function.update scene.world i ⟨r.2.world, (scene.world i).calls⟩ })) = _
  simp only [Memory.notify_eq]
  rfl

theorem inRoom_remove : inRoom i (Room.store.remove path) scene =
    if ((scene.world i).memory.files.lookup path).isSome = true then
      (true, changed i path ((scene.world i).memory.files.filter fun f => f.1 != path) scene)
    else (false, scene) := by
  change (let r := Memory.remove path { scene with world := (scene.world i).memory };
    (r.1, { r.2 with
      world := Function.update scene.world i ⟨r.2.world, (scene.world i).calls⟩ })) = _
  split
  · next hfound =>
    rw [Memory.remove_present hfound]
    simp only [Memory.notify_eq]
    rfl
  · next habsent =>
    rw [Memory.remove_absent (Bool.eq_false_iff.2 habsent)]
    simp only
    rw [Function.update_eq_self]

end Rooms

end House

end Templating
