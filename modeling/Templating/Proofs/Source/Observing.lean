import Templating.Proofs.Engine.Reporting
import Templating.Proofs.Source.Handouts
import Templating.Proofs.Source.Issuing

/-!
# What observation adds

A store under observation does what the store does. What the calls of a store follow, and its
changes too, those of the observed one follow, be it that a call fails or that a file changes behind
it (`Observed.follows`). So it hands out tokens like the store, unless it is a request for a token
that fails (`Observed.issues`). While no call fails and nothing changes behind one, it reports what
the store reports (`Observed.reports`), and a call for a fingerprint does no more than that it is
counted (`Observed.charges`).

Files in memory and in a folder can be observed in this way: `Files.follows_leads`,
`Files.issues`.
-/

namespace Templating

/-- To call the store and to change its files leads from a scene to one that is related to it. -/
structure Store.Follows {U : Type} (s : Store U) (R : Scene U → Scene U → Prop) : Prop
    extends s.toSource.Follows R where
  write : ∀ path content, (s.write path content).Follows R
  remove : ∀ path, (s.remove path).Follows R

namespace Observed

variable {U α : Type} {s : Store U} {R : Scene U → Scene U → Prop} {S : Scene U → Prop}
  {push : Bool} {Q : U → Prop} {r : Report} {c : Call} {path : String} {act : Act U α}
  {scene : Scene (Observed U)}

/-- The scene as the store itself sees it. -/
def core (scene : Scene (Observed U)) : Scene U := { scene with world := scene.world.inner }

/-! ## Where calls lead -/

/-- For the store itself it is as `R` says, and the same calls fail. -/
def Inside (R : Scene U → Scene U → Prop) (before after : Scene (Observed U)) : Prop :=
  R (core before) (core after) ∧ after.world.faults = before.world.faults

section Follows

variable (course : Scene.Course R)

include course

theorem course_inside : Scene.Course (Inside R) where
  refl scene := ⟨course.refl (core scene), rfl⟩
  trans _ _ _ h h' := ⟨course.trans _ _ _ h.1 h'.1, h'.2.trans h.2⟩
  note scene event := ⟨course.note (core scene) event, rfl⟩
  takeSerial scene := ⟨course.takeSerial (core scene), rfl⟩

omit course in
theorem follows_within (h : act.Follows R) : (within act).Follows (Inside R) :=
  fun scene => ⟨h (core scene), rfl⟩

theorem follows_race (h : s.Follows R) : (race s c path).Follows (Inside R) := by
  intro scene
  cases htake : takeRace c path scene.world.races with
  | none =>
    unfold race
    simp only [bind, StateT.bind, get, getThe, MonadStateOf.get, StateT.get, Pure.pure, htake]
    exact (course_inside course).refl scene
  | some taken =>
    obtain ⟨change, others⟩ := taken
    let spent : Scene (Observed U) := { scene with world.races := others }
    unfold race
    simp only [bind, StateT.bind, get, getThe, MonadStateOf.get, StateT.get, Pure.pure, htake]
    cases change.content with
    | some content => exact follows_within (h.write change.target content) spent
    | none => exact follows_within (h.remove change.target) spent

theorem follows_call (h : s.Follows R) (failed : α) (hact : act.Follows R) :
    (call s c path failed act).Follows (Inside R) := by
  intro scene
  rw [call_eq]
  let counted : Scene (Observed U) := { scene with world.usage := scene.world.usage.count c }
  split
  · exact follows_race course h counted
  · exact (course_inside course).trans _ _ _ (follows_within hact counted) (follows_race course h _)

/-- **What the calls of a store and its changes follow**, the calls of the observed one follow. -/
theorem follows (h : s.Follows R) : (store s).toSource.Follows (Inside R) where
  isFile path := follows_call course h _ (h.isFile path)
  isFolder path := follows_call course h _ (h.isFolder path)
  list path := follows_call course h _ (h.list path)
  read path := follows_call course h _ (h.read path)
  fingerprint path := follows_call course h _ (h.fingerprint path)
  watch path := follows_call course h _ (h.watch path)

end Follows

/-! ## Tokens -/

/-- It is as `S` says for the store itself, and if this pushes changes, no request for a token
fails. -/
def Serves (S : Scene U → Prop) (push : Bool) (scene : Scene (Observed U)) : Prop :=
  S (core scene) ∧ (push = true → ∀ path, (Call.watch, path) ∉ scene.world.faults)

theorem changeToken?_eq (s : Store U) (path : String) (scene : Scene (Observed U)) :
    ((store s).changeToken? path scene).1 =
      if scene.world.faults.contains (.watch, path) = true then none
      else (s.changeToken? path (core scene)).1 := by
  rw [Source.fst_changeToken?, Source.fst_changeToken?]
  change (call s .watch path (.error (injected path)) (s.watch path) scene).1.toOption.join = _
  rw [call_eq]
  split <;> rfl

/-- **An observed store issues tokens** as the store does. -/
theorem issues (h : s.toSource.Issues S push) (hfollows : s.Follows fun a b => S a → S b) :
    (store s).toSource.Issues (Serves S push) push where
  steadfast a b hworld hfired hissued hserves := by
    refine ⟨h.steadfast (core a) (core b) (congrArg inner hworld) hfired hissued hserves.1, ?_⟩
    rw [hworld]
    exact hserves.2
  follows := by
    refine (follows h.steadfast.course hfollows).mono fun a b hab hserves =>
      ⟨hab.1 hserves.1, ?_⟩
    rw [hab.2]
    exact hserves.2
  pushes path scene hserves := by
    have hcore := h.pushes path (core scene) hserves.1
    rw [changeToken?_eq]
    split
    · next hfaulty =>
      cases push with
      | false => rfl
      | true => exact absurd (List.contains_iff_mem.1 hfaulty) (hserves.2 rfl path)
    · exact hcore
  fresh path scene t hserves ht := by
    rw [changeToken?_eq] at ht
    split at ht
    · cases ht
    · exact h.fresh path (core scene) t hserves.1 ht

/-! ## Quiet stores -/

/-- No call fails, and nothing changes behind one. -/
structure Quiet (o : Observed U) : Prop where
  faults : o.faults = []
  races : o.races = []

theorem call_quiet (h : scene.world.Quiet) (failed : α) (act : Act U α) :
    call s c path failed act scene =
      within act { scene with world.usage := scene.world.usage.count c } := by
  have hrace : ∀ after : Scene (Observed U), after.world.races = [] →
      (race s c path after).2 = after := by
    intro after hafter
    unfold race
    simp only [bind, StateT.bind, get, getThe, MonadStateOf.get, StateT.get, Pure.pure, hafter]
    rfl
  rw [call_eq, h.faults, if_neg (by simp)]
  exact Prod.ext rfl (hrace _ h.races)

theorem still_call (failed : α) (h : act.Follows (Scene.Still Q)) :
    (call s c path failed act).Follows (Scene.Still fun o => Q o.inner ∧ o.Quiet) := by
  rintro scene ⟨hworld, hquiet⟩
  rw [call_quiet hquiet]
  obtain ⟨hafter, hfired⟩ := h (core scene) hworld
  exact ⟨⟨hafter, hquiet.faults, hquiet.races⟩, hfired⟩

/-- **A quiet store** reports what it would report unobserved. -/
theorem reports (h : s.toSource.Reports Q r) :
    (store s).toSource.Reports (fun o => Q o.inner ∧ o.Quiet) r := by
  have hcall : ∀ {α : Type} {act : Act U α} {c path failed} {scene : Scene (Observed U)},
      scene.world.Quiet → (call s c path failed act scene).1 = (act (core scene)).1 := by
    intro α act c path failed scene hquiet
    rw [call_quiet hquiet]
    rfl
  exact
    { still :=
        { isFile path := still_call _ (h.still.isFile path)
          isFolder path := still_call _ (h.still.isFolder path)
          list path := still_call _ (h.still.list path)
          read path := still_call _ (h.still.read path)
          fingerprint path := still_call _ (h.still.fingerprint path)
          watch path := still_call _ (h.still.watch path) }
      isFile path scene hQ := (hcall hQ.2).trans (h.isFile path (core scene) hQ.1)
      isFolder path scene hQ := (hcall hQ.2).trans (h.isFolder path (core scene) hQ.1)
      list path scene hQ := (hcall hQ.2).trans (h.list path (core scene) hQ.1)
      read path scene hQ := (hcall hQ.2).trans (h.read path (core scene) hQ.1)
      fingerprint path scene hQ := (hcall hQ.2).trans (h.fingerprint path (core scene) hQ.1)
      watched path scene hQ := by
        refine Eq.trans ?_ (h.watched path (core scene) hQ.1)
        exact congrArg (fun answer : Except StoreError (Option Token) =>
          answer.toOption.join.isSome) (hcall hQ.2)
      bounded o ho := by
        obtain ⟨texts, hlength, htexts⟩ := h.bounded o.inner ho.1
        exact ⟨texts, Nat.le_add_right_of_le hlength, htexts⟩ }

/-- When `n` more fingerprints were asked for. -/
def charged (n : Nat) (o : Observed U) : Observed U :=
  { o with usage.fingerprint := o.usage.fingerprint + n }

theorem iterate_charged (n : Nat) (o : Observed U) : (charged 1)^[n] o = o.charged n := by
  induction n with
  | zero => rfl
  | succ n ih =>
    rw [Function.iterate_succ_apply', ih]
    rfl

/-- **A call for a fingerprint** is counted, if it does nothing in the store itself. -/
theorem charges (h : ∀ path scene, (s.fingerprint path scene).2 = scene) :
    (store s).toSource.Charges (fun o => Q o.inner ∧ o.Quiet) (charged 1) := by
  rintro path scene ⟨-, hquiet⟩
  change (call s .fingerprint path (.error (injected path)) (s.fingerprint path) scene).2 = _
  rw [call_quiet hquiet]
  exact congrArg (fun after : Scene U => ({ after with world :=
    { scene.world.charged 1 with inner := after.world } } : Scene (Observed U)))
    (h path (core scene))

end Observed

/-! ## Files in memory and in a folder -/

namespace Memory

variable {push : Bool}

theorem follows_leads : store.Follows fun a b => a.signals.Leads b.signals where
  toFollows := leads_source
  write path content scene := (changed_write path content scene).leads
  remove path scene := by
    change scene.signals.Leads (remove path scene).2.signals
    cases hfile : (scene.world.files.lookup path).isSome with
    | true => exact (changed_remove_present hfile).leads
    | false =>
      rw [remove_absent hfile]
      exact .refl _

/-- Changes are signalled as `push` says, by tokens that are in order. -/
structure Served (push : Bool) (scene : Scene Memory) : Prop extends InOrder scene where
  push : scene.world.push = push

theorem Served.perform {scene : Scene Memory} (h : Served push scene) (deed : Deed) :
    Served push (deed.perform scene) :=
  ⟨deed.inOrder h.toInOrder, (deed.push_perform scene).trans h.push⟩

theorem follows_served : store.Follows fun a b => Served push a → Served push b where
  isFile _ _ h := h
  isFolder _ _ h := h
  list _ _ h := h
  read _ _ h := h
  fingerprint _ _ h := h
  watch path _ h := h.perform (.watch path)
  write path content _ h := h.perform (.write path content)
  remove path _ h := h.perform (.remove path)

theorem issues : store.toSource.Issues (Served push) push where
  steadfast a b hworld hfired hissued h := by
    refine ⟨⟨⟨?_, ?_⟩, ?_⟩, ?_⟩
    · rw [hworld, hissued]
      exact h.issued
    · rw [hworld]
      exact h.path
    · unfold Signals.hasFired
      rw [hfired, hissued]
      exact h.past
    · rw [hworld]
      exact h.push
  follows := follows_served.toFollows
  pushes path scene h := by
    rw [Source.fst_changeToken?, ← h.push]
    change (watch path scene).1.isSome = _
    unfold watch
    cases scene.world.push <;> rfl
  fresh path scene t h ht := by
    rw [Source.fst_changeToken?] at ht
    change (watch path scene).1 = some t at ht
    cases hpush : scene.world.push with
    | false =>
      rw [watch_of_not_push hpush] at ht
      cases ht
    | true =>
      -- It is the next token, and those that have fired were handed out before.
      rw [(issued_watch hpush path).1] at ht
      cases ht
      exact Bool.eq_false_iff.2 fun hfired => Nat.lt_irrefl _ (h.past _ hfired)

end Memory

namespace Files

variable {push : Bool}

theorem follows_leads : store.Follows fun a b => a.signals.Leads b.signals where
  toFollows := leads_store
  write path content := follows_act (Memory.follows_leads.write path content) fun _ => .refl _
  remove path := follows_act (Memory.follows_leads.remove path) fun _ => .refl _

/-- Changes are signalled as `push` says, which they are of files in memory only, by tokens that are
in order. -/
def Served (push : Bool) (scene : Scene Files) : Prop :=
  match scene.world with
  | .memory m => Memory.Served push { scene with world := m }
  | .directory _ => push = false

theorem follows_served : store.Follows fun a b => Served push a → Served push b where
  isFile path := follows_act (Memory.follows_served.isFile path) fun _ h => h
  isFolder path := follows_act (Memory.follows_served.isFolder path) fun _ h => h
  list path := follows_act (Memory.follows_served.list path) fun _ h => h
  read path := follows_act (Memory.follows_served.read path) fun _ h => h
  fingerprint path := follows_act (Memory.follows_served.fingerprint path) fun _ h => h
  watch path := follows_act (Memory.follows_served.watch path) fun _ h => h
  write path content := follows_act (Memory.follows_served.write path content) fun _ h => h
  remove path := follows_act (Memory.follows_served.remove path) fun _ h => h

/-- **Files issue tokens** if they are kept in memory and changes are signalled, and else none. -/
theorem issues : store.toSource.Issues (Served push) push where
  steadfast := by
    rintro ⟨signals, journal, serial, m | d⟩ ⟨signals', journal', serial', _⟩ rfl hfired hissued h
    · exact Memory.issues.steadfast ⟨signals, journal, serial, m⟩ ⟨signals', journal', serial', m⟩
        rfl hfired hissued h
    · exact h
  follows := follows_served.toFollows
  pushes path := by
    rintro ⟨signals, journal, serial, m | d⟩ h
    · exact Memory.issues.pushes path ⟨signals, journal, serial, m⟩ h
    · exact Eq.symm h
  fresh path := by
    rintro ⟨signals, journal, serial, m | d⟩ t h ht
    · exact Memory.issues.fresh path ⟨signals, journal, serial, m⟩ t h ht
    · cases ht

/-- What can be read has a fingerprint. -/
theorem fingerprint_of_read (files : Files) {path text : String} {err : StoreError}
    (h : files.report.read path = .ok text) : files.report.fingerprint path ≠ .error err := by
  cases files with
  | memory m =>
    change m.read path = .ok text at h
    change (m.read path).map Memory.digest ≠ .error err
    rw [h]
    exact nofun
  | directory d =>
    change d.read path = .ok text at h
    change d.fingerprint path ≠ .error err
    unfold Directory.read at h
    unfold Directory.fingerprint
    cases hbytes : d.readBytes path with
    | ok bytes => exact nofun
    | error fault =>
      rw [hbytes] at h
      cases h

theorem snd_fingerprint (path : String) (scene : Scene Files) :
    (store.fingerprint path scene).2 = scene := by
  obtain ⟨signals, journal, serial, m | d⟩ := scene <;> rfl

end Files

end Templating
