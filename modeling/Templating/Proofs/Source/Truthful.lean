import Templating.Proofs.Source.Change
import Templating.Source.Observed

/-!
# What a source tells

A source may be anything that answers calls. `Source.Keeps` says that its calls lead from one
possible world to another, `Source.Candid` that they tell what the files hold, and `Source.Truthful`
both, and that right behind a call which reads a file this is as it was; behind any other call it
may have changed.

Files in memory under observation are such a source, as long as no change is set up behind a call
that reads a file, to that very file (`Observed.truthful`).
-/

namespace Templating

/-! ## Acts that keep a property of the world -/

def Act.Keeps {W α : Type} (Q : W → Prop) (act : Act W α) : Prop :=
  ∀ scene, Q scene.world → Q (act scene).2.world

namespace Act.Keeps

variable {W α β : Type} {Q : W → Prop}

theorem pure (a : α) : Keeps Q (Pure.pure a : Act W α) := fun _ h => h

theorem bind {act : Act W α} {next : α → Act W β} (h : Keeps Q act)
    (hnext : ∀ a, Keeps Q (next a)) : Keeps Q (act >>= next) :=
  fun scene hQ => hnext (act scene).1 _ (h scene hQ)

theorem takeSerial : Keeps Q (modifyGet Scene.takeSerial) := fun _ h => h

end Act.Keeps

/-- The calls of a source keep a property of the world. -/
structure Source.Keeps {W : Type} (s : Source W) (Q : W → Prop) : Prop where
  isFile : ∀ path, (s.isFile path).Keeps Q
  isFolder : ∀ path, (s.isFolder path).Keeps Q
  list : ∀ path, (s.list path).Keeps Q
  read : ∀ path, (s.read path).Keeps Q
  fingerprint : ∀ path, (s.fingerprint path).Keeps Q
  watch : ∀ path, (s.watch path).Keeps Q

namespace Source.Keeps

variable {W : Type} {s : Source W} {Q : W → Prop} (k : s.Keeps Q)

theorem trivial (s : Source W) : s.Keeps fun _ => True :=
  ⟨fun _ _ _ => ⟨⟩, fun _ _ _ => ⟨⟩, fun _ _ _ => ⟨⟩, fun _ _ _ => ⟨⟩, fun _ _ _ => ⟨⟩,
    fun _ _ _ => ⟨⟩⟩

include k

theorem changeToken? (path : String) : (s.changeToken? path).Keeps Q := by
  refine Act.Keeps.bind (k.watch path) fun answer => ?_
  cases answer <;> exact .pure _

end Source.Keeps

/-- The source tells what its files hold, if it tells anything. Behind any call they may change. -/
structure Source.Candid {W : Type} (s : Source W) (files : W → String → Option String)
    (digest : String → String) : Prop where
  read_ok : ∀ path scene text, (s.read path scene).1 = .ok text →
    files scene.world path = some text
  fingerprint_ok : ∀ path scene fingerprint, (s.fingerprint path scene).1 = .ok fingerprint →
    ∃ text, files scene.world path = some text ∧ digest text = fingerprint

/-- The source tells what its files hold, its calls lead from one possible world to another, and
right behind a call that reads a file this is as it was. -/
structure Source.Truthful {W : Type} (s : Source W) (possible : W → Prop)
    (files : W → String → Option String) (digest : String → String) : Prop
    extends Source.Keeps s possible where
  read_ok : ∀ path scene text, possible scene.world → (s.read path scene).1 = .ok text →
    files scene.world path = some text
  fingerprint_ok : ∀ path scene fingerprint, possible scene.world →
    (s.fingerprint path scene).1 = .ok fingerprint →
      ∃ text, files scene.world path = some text ∧ digest text = fingerprint
  still : ∀ path scene, possible scene.world →
    files (s.read path scene).2.world path = files scene.world path

/-- What files may hold. -/
def possibleTexts {W : Type} (possible : W → Prop) (files : W → String → Option String) :
    Set String :=
  { text | ∃ w path, possible w ∧ files w path = some text }

/-! ## Files in memory under observation -/

namespace Memory

theorem files_call (path : String) (scene : Scene Memory) :
    (source.isFile path scene).2.world.files = scene.world.files ∧
      (source.isFolder path scene).2.world.files = scene.world.files ∧
      (source.list path scene).2.world.files = scene.world.files ∧
      (source.read path scene).2.world.files = scene.world.files ∧
      (source.fingerprint path scene).2.world.files = scene.world.files ∧
      (source.watch path scene).2.world.files = scene.world.files := by
  refine ⟨rfl, rfl, rfl, rfl, rfl, ?_⟩
  change (watch path scene).2.world.files = scene.world.files
  unfold watch
  split <;> rfl

theorem lookup_of_read {m : Memory} {path text : String} (h : m.read path = .ok text) :
    m.files.lookup path = some text := by
  unfold read at h
  cases hlookup : m.files.lookup path with
  | none =>
    rw [hlookup] at h
    cases h
  | some content =>
    rw [hlookup] at h
    cases h
    rfl

end Memory

namespace Observed

/-- All texts are as `T` says, those of the changes to come included, and no change comes behind a
call that reads the same file. -/
structure Calm (T : String → Prop) (o : Observed Memory) : Prop where
  held : ∀ path text, o.inner.files.lookup path = some text → T text
  coming : ∀ r ∈ o.races, ∀ text, r.content = some text → T text
  still : ∀ r ∈ o.races, r.call = .read → r.target ≠ r.path

variable {T : String → Prop} {c : Call} {path : String}

theorem of_takeRace {races others : List Race} {r : Race}
    (h : takeRace c path races = some (r, others)) :
    r ∈ races ∧ r.call = c ∧ r.path = path ∧ ∀ other ∈ others, other ∈ races := by
  induction races generalizing others with
  | nil => cases h
  | cons first races ih =>
    unfold takeRace at h
    split at h
    · next hfirst =>
      cases h
      exact ⟨List.mem_cons_self, hfirst.1, hfirst.2, fun _ => List.mem_cons_of_mem _⟩
    · obtain ⟨⟨found, rest⟩, htake, heq⟩ := Option.map_eq_some_iff.1 h
      cases heq
      obtain ⟨hmem, hcall, hpath, hothers⟩ := ih htake
      refine ⟨List.mem_cons_of_mem _ hmem, hcall, hpath, fun other hother => ?_⟩
      rcases List.mem_cons.1 hother with rfl | hrest
      · exact List.mem_cons_self
      · exact List.mem_cons_of_mem _ (hothers other hrest)

/-- Behind a call nothing happens, or a change that was set up there. -/
theorem race_cases (c : Call) (path : String) (scene : Scene (Observed Memory)) :
    (race Memory.store c path scene).2 = scene ∨
      ∃ r ∈ scene.world.races, r.call = c ∧ r.path = path ∧
        (∀ other ∈ (race Memory.store c path scene).2.world.races, other ∈ scene.world.races) ∧
        ∀ p, (race Memory.store c path scene).2.world.inner.files.lookup p =
          if p = r.target then r.content else scene.world.inner.files.lookup p := by
  cases htake : takeRace c path scene.world.races with
  | none =>
    left
    unfold race
    simp only [bind, StateT.bind, get, getThe, MonadStateOf.get, StateT.get, Pure.pure, htake]
    rfl
  | some taken =>
    obtain ⟨r, others⟩ := taken
    obtain ⟨hmem, hcall, hpath, hothers⟩ := of_takeRace htake
    refine .inr ⟨r, hmem, hcall, hpath, ?_⟩
    unfold race
    simp only [bind, StateT.bind, get, getThe, MonadStateOf.get, StateT.get, Pure.pure, htake]
    cases hcontent : r.content with
    | some content => exact ⟨hothers, fun p => Memory.lookup_write ..⟩
    | none => exact ⟨hothers, fun p => Memory.lookup_remove ..⟩

theorem Calm.race {scene : Scene (Observed Memory)} (h : Calm T scene.world) :
    Calm T (Observed.race Memory.store c path scene).2.world := by
  rcases race_cases c path scene with heq | ⟨r, hr, -, -, hothers, hfiles⟩
  · rw [heq]
    exact h
  · refine ⟨fun p text hfile => ?_, fun other hother => h.coming other (hothers other hother),
      fun other hother => h.still other (hothers other hother)⟩
    rw [hfiles] at hfile
    split at hfile
    · exact h.coming r hr text hfile
    · exact h.held p text hfile

/-- A call is counted and answered before the change behind it happens. -/
theorem call_eq {U α : Type} {s : Store U} (failed : α) (act : Act U α)
    (scene : Scene (Observed U)) :
    let counted := { scene with world.usage := scene.world.usage.count c }
    call s c path failed act scene =
      if scene.world.faults.contains (c, path) = true then
        (failed, (race s c path counted).2)
      else ((within act counted).1, (race s c path (within act counted).2).2) := by
  intro counted
  cases hfaulty : scene.world.faults.contains (c, path) with
  | true =>
    unfold call
    change (if scene.world.faults.contains (c, path) = true then _ else _ : Act _ α) counted = _
    rw [if_pos hfaulty]
    rfl
  | false =>
    unfold call
    change (if scene.world.faults.contains (c, path) = true then _ else _ : Act _ α) counted = _
    rw [hfaulty]
    rfl

/-- What is answered was so before the call, and behind it only a change that was set up there can
happen. -/
theorem call_cases {α : Type} (c : Call) (path : String) (failed : α) {act : Act Memory α}
    (hact : ∀ scene, (act scene).2.world.files = scene.world.files)
    (scene : Scene (Observed Memory)) :
    ∃ between : Scene (Observed Memory), between.world.inner.files = scene.world.inner.files ∧
      between.world.races = scene.world.races ∧
      (call Memory.store c path failed act scene).2 = (race Memory.store c path between).2 ∧
      ((call Memory.store c path failed act scene).1 = failed ∨
        ∃ before : Scene Memory, before.world = scene.world.inner ∧
          (call Memory.store c path failed act scene).1 = (act before).1) := by
  rw [call_eq]
  let counted := { scene with world.usage := scene.world.usage.count c }
  split
  · exact ⟨counted, rfl, rfl, rfl, .inl rfl⟩
  · exact ⟨(within act counted).2, hact _, rfl, rfl, .inr ⟨_, rfl, rfl⟩⟩

theorem keeps_call {α : Type} (failed : α) {act : Act Memory α}
    (hact : ∀ scene, (act scene).2.world.files = scene.world.files) :
    (call Memory.store c path failed act).Keeps (Calm T) := by
  intro scene h
  obtain ⟨between, hfiles, hraces, hafter, -⟩ := call_cases c path failed hact scene
  rw [hafter]
  refine Calm.race ⟨?_, ?_, ?_⟩
  · rw [hfiles]
    exact h.held
  · rw [hraces]
    exact h.coming
  · rw [hraces]
    exact h.still

/-- Files in memory under observation tell what they hold, whatever changes behind the calls. -/
theorem candid : (store Memory.store).toSource.Candid (fun o path => o.inner.files.lookup path)
    Memory.digest where
  read_ok path scene text hok := by
    obtain ⟨-, -, -, -, hanswer | ⟨before, hbefore, hanswer⟩⟩ := call_cases .read path
      (.error (injected path)) (fun scene => (Memory.files_call path scene).2.2.2.1) scene
    · cases hanswer.symm.trans hok
    · rw [← hbefore]
      exact Memory.lookup_of_read (hanswer.symm.trans hok)
  fingerprint_ok path scene fingerprint hok := by
    obtain ⟨-, -, -, -, hanswer | ⟨before, hbefore, hanswer⟩⟩ := call_cases .fingerprint path
      (.error (injected path)) (fun scene => (Memory.files_call path scene).2.2.2.2.1) scene
    · cases hanswer.symm.trans hok
    · have hdigest : (before.world.read path).map Memory.digest = .ok fingerprint :=
        hanswer.symm.trans hok
      cases hread : before.world.read path with
      | error err =>
        rw [hread] at hdigest
        cases hdigest
      | ok text =>
        rw [hread] at hdigest
        rw [← hbefore]
        exact ⟨text, Memory.lookup_of_read hread, Except.ok.inj hdigest⟩

/-- **Files in memory under observation** tell what they hold, whatever changes behind the calls,
if no file changes behind a call that reads it. -/
theorem truthful (T : String → Prop) :
    (store Memory.store).toSource.Truthful (Calm T) (fun o path => o.inner.files.lookup path)
      Memory.digest where
  isFile path := keeps_call _ fun scene => (Memory.files_call path scene).1
  isFolder path := keeps_call _ fun scene => (Memory.files_call path scene).2.1
  list path := keeps_call _ fun scene => (Memory.files_call path scene).2.2.1
  read path := keeps_call _ fun scene => (Memory.files_call path scene).2.2.2.1
  fingerprint path := keeps_call _ fun scene => (Memory.files_call path scene).2.2.2.2.1
  watch path := keeps_call _ fun scene => (Memory.files_call path scene).2.2.2.2.2
  read_ok path scene text _ := candid.read_ok path scene text
  fingerprint_ok path scene fingerprint _ := candid.fingerprint_ok path scene fingerprint
  still path scene h := by
    obtain ⟨between, hfiles, hraces, hafter, -⟩ := call_cases .read path
      (.error (injected path)) (fun scene => (Memory.files_call path scene).2.2.2.1) scene
    change (call Memory.store .read path _ (Memory.source.read path)
      scene).2.world.inner.files.lookup path = _
    rw [hafter, ← hfiles]
    rcases race_cases .read path between with heq | ⟨r, hr, hcall, hpath, -, hlookup⟩
    · rw [heq]
    · rw [hraces] at hr
      rw [hlookup, if_neg fun heq => h.still r hr hcall (heq.symm.trans hpath.symm)]

end Observed

end Templating
