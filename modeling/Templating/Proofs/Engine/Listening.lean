import Templating.Proofs.Cache.Lasting
import Templating.Proofs.Cache.Tidy
import Templating.Proofs.Engine.Service
import Templating.Proofs.Engine.Workshop
import Templating.Proofs.Source.Hearing

/-!
# Which paths entries listen to

Where changes are signalled, the partials of a group hold tokens of its partial folders and of files
in them, and what is kept for a path holds the token of that path. Only the note that a file is not
well formed and the global entry hold none (`KeySpace.Listens`). It is so in the cache of a service
at any time (`Service.attends_run`).
-/

namespace Templating

open Work (Answers Takes)

/-- What an entry of an engine is like, and which paths its tokens hear of. -/
inductive KeySpace.Listens (k : KeySpace) (names : FolderNames) (scene : Scene Memory) :
    String → Entry → Options (Poller Memory) → Prop
  | global : Listens k names scene k.global .global {}
  | partials (g : Group.Made) (v : GroupConfig) (tokens : List Token)
      (posted : Memory.Posted scene (names.partialFolders g.1) tokens) :
      Listens k names scene (k.config g.1) (.config v) { keys := [k.global], tokens }
  /-- A template, or the note that there is no file. -/
  | answer (g : Group.Made) (path : String) (value : Entry) (t : Token) (sliding : Duration)
      (answers : value = .missing ∨
        ∃ template : Template.Compiled, template.path = path ∧ value = .compiled template)
      (hears : Memory.Hears scene path t) :
      Listens k names scene (k.path g.1 path) value
        { keys := [k.config g.1], tokens := [t], expiration := .sliding sliding }
  | broken (g : Group.Made) (path : String) (deadline : Instant) :
      Listens k names scene (k.path g.1 path) .missing { expiration := .absolute deadline }

namespace KeySpace

variable {k : KeySpace} {names : FolderNames} {scene scene' : Scene Memory} {key : String}
  {value : Entry} {options : Options (Poller Memory)}

theorem Listens.onward (h : k.Listens names scene key value options)
    (honward : Memory.Onward scene scene') : k.Listens names scene' key value options := by
  cases h with
  | global => exact .global
  | partials g v tokens posted => exact .partials g v tokens (posted.onward honward)
  | answer g path value t sliding answers hears =>
    exact .answer g path value t sliding answers (honward.hears path t hears)
  | broken g path deadline => exact .broken g path deadline

theorem Listens.hook (h : k.Listens names scene key value options) : options.hook = none := by
  cases h <;> rfl

/-! ## Sessions -/

/-- All entries listen, to a store that signals changes. -/
structure Attends (k : KeySpace) (names : FolderNames) (s : EngineSession) : Prop where
  holds : s.cache.Holds (k.Listens names s.scene) []
  unshared : Memory.Unshared s.scene
  push : s.scene.world.push = true

/-- All entries listen in a given scene, from which the present one does not differ in its world nor
in its tokens. -/
structure Rests (k : KeySpace) (names : FolderNames) (scene : Scene Memory) (s : EngineSession)
    (pending : List (Evicted Entry (Poller Memory))) : Prop where
  holds : s.cache.Holds (k.Listens names scene) pending
  world : s.scene.world = scene.world
  fired : s.scene.signals.fired = scene.signals.fired
  issued : s.scene.signals.issued = scene.signals.issued

variable (k names scene) in
/-- What becomes of the cache alone leaves the scene at rest. -/
theorem lasting_rests (now : Instant) :
    Session.Lasting (Poller.moment now) (k.Listens names scene) (k.Rests names scene) where
  note _ _ _ h := ⟨h.holds, h.world, h.fired, h.issued⟩
  forget _ _ _ h := ⟨h.holds.forget, h.world, h.fired, h.issued⟩
  decide _ x _ _ h hhook :=
    nomatch (h.holds.pending x List.mem_cons_self).hook.symm.trans hhook
  renew _ x _ _ _ _ h hhook _ :=
    nomatch (h.holds.pending x List.mem_cons_self).hook.symm.trans hhook
  place s _ key value options h hnew := by
    have hplace := Session.fired_place s.cache now s.scene.signals key value options
    refine ⟨h.holds.place now s.scene.signals hnew,
      (Session.world_commit ..).trans h.world, ?_, ?_⟩ <;> rw [Session.signals_commit]
    · exact hplace.1.trans h.fired
    · exact hplace.2.trans h.issued
  detach s _ key d h hd :=
    ⟨h.holds.thin (.detach h.holds.linked hd)
      (Cache.was_stored_of_detach h.holds.linked.toConsistent hd), h.world, h.fired, h.issued⟩
  sweep s h := by
    have hswept := h.holds.thin (.sweep h.holds.linked now (s.scene.signals.lower s.cache.flag))
      (Cache.loses_evictEach h.holds.linked
        (s.cache.doomed now (s.scene.signals.lower s.cache.flag))).was_stored
    rw [List.append_nil] at hswept
    exact ⟨hswept, h.world, h.fired, h.issued⟩
  touch s key h :=
    ⟨h.holds.thin (.touch h.holds.linked now key) (List.forall_mem_nil _), h.world, h.fired,
      h.issued⟩
  dropAll s h :=
    ⟨h.holds.thin (.dropAll s.cache) (List.forall_mem_nil _), h.world, h.fired, h.issued⟩

namespace Attends

variable {s : EngineSession} {α : Type}

theorem silent (h : k.Attends names s) : Session.Silent s.cache :=
  fun key slot hget => (h.holds.stored key slot hget).hook

/-- **The scene goes on**, and all still listen. -/
theorem onward (h : k.Attends names s) (honward : Memory.Onward s.scene scene') :
    k.Attends names { s with scene := scene' } where
  holds := ⟨h.holds.linked, fun key slot hget => (h.holds.stored key slot hget).onward honward,
    nofun⟩
  unshared := honward.unshared h.unshared
  push := honward.push.trans h.push

theorem takes_onScene {act : Act Memory α} (h : act.Follows Memory.Onward) :
    Takes (k.Attends names) (k.Attends names) (Session.onScene act : Resolving Memory α) :=
  fun s hs => hs.onward (h s.scene)

/-- **What becomes of the cache alone** leaves all listening. -/
theorem takes_cache {T : EngineSession → Prop} {op : Resolving Memory α}
    (h : ∀ s, T s → k.Attends names s ∧
      Takes (k.Rests names s.scene · []) (k.Rests names s.scene · []) op) :
    Takes T (k.Attends names) op := by
  intro s hs
  obtain ⟨hattends, hop⟩ := h s hs
  have hrests := hop s ⟨hattends.holds, rfl, rfl, rfl⟩
  have honward : Memory.Onward s.scene (op s).2.scene :=
    .of_same hrests.world hrests.fired hrests.issued
  exact ⟨⟨hrests.holds.linked, fun key slot hget =>
    (hrests.holds.stored key slot hget).onward honward, nofun⟩,
    honward.unshared hattends.unshared, honward.push.trans hattends.push⟩

theorem takes_get (now : Instant) (key : String) :
    Takes (k.Attends names) (k.Attends names) (Session.get (Poller.moment now) key) :=
  takes_cache fun s hs => ⟨hs, (lasting_rests k names s.scene now).get key⟩

theorem takes_remove (now : Instant) (key : String) :
    Takes (k.Attends names) (k.Attends names) (Session.remove (Poller.moment now) key) :=
  takes_cache fun s hs => ⟨hs, (lasting_rests k names s.scene now).remove key⟩

theorem takes_purge (now : Instant) :
    Takes (k.Attends names) (k.Attends names) (Session.purge (Poller.moment now)) :=
  takes_cache fun s hs => ⟨hs, (lasting_rests k names s.scene now).purge⟩

theorem takes_clear : Takes (k.Attends names) (k.Attends names) Session.clear :=
  takes_cache fun s hs => ⟨hs, (lasting_rests k names s.scene 0).clear⟩

/-- What listens may be put in. -/
theorem takes_insert {T : EngineSession → Prop} (now : Instant)
    (h : ∀ s, T s → k.Attends names s ∧ k.Listens names s.scene key value options) :
    Takes T (k.Attends names) (Session.insert (Poller.moment now) key value options) :=
  takes_cache fun s hs => ⟨(h s hs).1, (lasting_rests k names s.scene now).insert (h s hs).2⟩

end Attends

end KeySpace

/-! ## Operations of an engine -/

namespace Engine

open KeySpace (Attends)

variable {e : Engine Memory} {now : Instant}

theorem takes_ensureGlobal_attends : Takes (e.keys.Attends e.options.folders)
    (e.keys.Attends e.options.folders) (e.ensureGlobal now) :=
  .bind (Attends.takes_cache fun s hs =>
    ⟨hs, (KeySpace.lasting_rests e.keys e.options.folders s.scene now).insertIfAbsent .global⟩)
    fun _ => .pure _

theorem takes_clear_attends : Takes (e.keys.Attends e.options.folders)
    (e.keys.Attends e.options.folders) (e.clear now) :=
  .bind (Attends.takes_remove now _) fun _ =>
    .bind (Attends.takes_insert now fun _ hs => ⟨hs, .global⟩) fun _ => .pure _

variable {g : Group.Made} {c : GroupConfig} (hsource : e.source = Memory.source)

include hsource

theorem follows_source : e.source.Follows Memory.Onward := by
  rw [hsource]
  exact Memory.follows_onward

/-- **A build** is posted for the group's folders. -/
theorem takes_build_attends : Takes (e.keys.Attends e.options.folders)
    (e.keys.Attends e.options.folders) (e.build now g.1) := by
  let P := e.keys.Attends e.options.folders
  let folders := e.options.folders.partialFolders g.1
  have hfollows := follows_source hsource
  have hslash := e.options.folders.endsInSlash_partialFolders g.1
  have hinsert : ∀ found : Gathering,
      Takes (fun s => P s ∧ Memory.Posted s.scene folders found.tokens) P
        (Session.insert (Poller.moment now) (e.keys.config g.1) (.config found.config)
          { keys := [e.keys.global], tokens := found.tokens }) := fun found =>
    Attends.takes_insert now fun s hs => ⟨hs.1, .partials g found.config found.tokens hs.2⟩
  refine answers_build (A := P)
    (B := fun found s => P s ∧ Memory.Posted s.scene folders found.tokens)
    (C := fun found _ s => P s ∧ found.tokens ≠ []) (D := fun _ _ _ => False) (R := fun _ => P)
    takes_ensureGlobal_attends (fun s hs => ?gather) (fun found s hs => ?insert)
    (fun found hnil s hs => absurd hnil hs.2) (fun _ _ _ => False.elim) (fun _ _ _ _ hs => hs.1)
    fun _ => Attends.takes_onScene (.note Memory.course_onward _)
  case gather =>
    refine ⟨Attends.takes_onScene (hfollows.gather Memory.course_onward _ _ _) s hs, ?_⟩
    rw [hsource]
    exact Memory.posted_gather _ _ hslash hs.push
  case insert =>
    -- There is a partial folder, and so a token.
    obtain ⟨folder, hfolder⟩ := List.exists_mem_of_ne_nil _
      (e.options.folders.partialFolders_ne_nil g.1)
    obtain ⟨t, ht, -⟩ := hs.2.reaches folder hfolder
    exact ⟨hinsert found s hs, List.ne_nil_of_mem ht⟩

theorem takes_config_attends : Takes (e.keys.Attends e.options.folders)
    (e.keys.Attends e.options.folders) (e.config now g.1) :=
  answers_config (R := fun _ => e.keys.Attends e.options.folders) (Attends.takes_get now _)
    (fun s _ hs _ => Attends.takes_get now _ s hs) (takes_build_attends hsource)

/-- **A look-up** keeps an answer with the token of its path. -/
theorem takes_lookup_attends (path : String) : Takes (e.keys.Attends e.options.folders)
    (e.keys.Attends e.options.folders) (e.lookup now g.1 c path) := by
  let P := e.keys.Attends e.options.folders
  let U : Option Token → EngineSession → Prop := fun token s =>
    P s ∧ ∃ t, token = some t ∧ Memory.Hears s.scene path t
  have hfollows := follows_source hsource
  have hact : ∀ {α : Type} {act : Act Memory α} (token : Option Token),
      act.Follows Memory.Onward → Takes (U token) (U token) (Session.onScene act) := by
    rintro α act token h s ⟨hs, t, rfl, hears⟩
    exact ⟨Attends.takes_onScene h s hs, t, rfl, (h s.scene).hears path t hears⟩
  have htoken : Answers P U (Session.onScene (e.source.changeToken? path)) := by
    intro s hs
    refine ⟨Attends.takes_onScene (hfollows.changeToken? Memory.course_onward path) s hs, ?_⟩
    rw [hsource]
    exact Memory.hears_watch hs.push path
  have hkeep : ∀ (token : Option Token) (value : Entry) (sliding recheck : Duration),
      (value = .missing ∨
        ∃ template : Template.Compiled, template.path = path ∧ value = .compiled template) →
      Takes (U token) P (Session.insert (Poller.moment now) (e.keys.path g.1 path) value
        (e.guarded now g.1 token sliding recheck)) := by
    refine fun token value sliding recheck hvalue => Attends.takes_insert now ?_
    rintro s ⟨hs, t, rfl, hears⟩
    exact ⟨hs, .answer g path value t sliding hvalue hears⟩
  refine takes_lookup (Attends.takes_get now _) (Attends.takes_onScene (hfollows.fingerprint path))
    (Attends.takes_remove now _) <| takes_ask_of htoken
      (fun token => hact token (hfollows.isFile path))
      (fun token => .bind (hkeep token .missing _ _ (.inl rfl)) fun _ => .pure _) fun token =>
        takes_compile_of (U := fun _ => U token) (hact token (hfollows.read path))
          (fun _ event => hact token (.note Memory.course_onward event))
          (fun _ => hact token (hfollows.fingerprint path)) (fun _ _ hs => hs.1)
          (fun _ => .bind (Attends.takes_insert now fun s hs => ⟨hs.1, .broken g path _⟩)
            fun _ => .pure _) ?_
  rintro _ template rfl - - -
  unfold rememberCompiled
  split
  · exact fun _ hs => hs.1
  · exact .bind (hkeep token _ _ _ (.inr ⟨template, rfl, rfl⟩)) fun _ => .pure _

/-- **Every operation** leaves all entries listening. -/
theorem keeps_attends : Workshop.Keeps e now (fun _ => True)
    (e.keys.Attends e.options.folders) where
  config _ _ := takes_config_attends hsource
  views _ _ name layout :=
    takes_views (R := fun _ => e.keys.Attends e.options.folders) (fun _ hs => hs)
      (takes_config_attends hsource).answers (fun _ path _ => takes_lookup_attends hsource path)
      (fun _ _ hs => hs) name layout
  path _ _ path _ :=
    takes_resolvePath (R := fun _ => e.keys.Attends e.options.folders) (fun _ hs => hs)
      (takes_config_attends hsource).answers fun _ => takes_lookup_attends hsource path
  clear := takes_clear_attends

end Engine

/-! ## Runs of a service -/

namespace Service

/-- All entries of the service listen. -/
def Attends (σ : Service) : Prop := σ.keys.Attends σ.options.folders σ.session

variable {σ : Service}

theorem Attends.act {α : Type} (h : σ.Attends) {op : Resolving Memory α}
    (hop : Takes (σ.keys.Attends σ.options.folders) (σ.keys.Attends σ.options.folders) op) :
    (σ.act op).2.Attends := hop σ.session h

theorem Attends.altered (h : σ.Attends) {path : String} {scene : Scene Memory}
    (haltered : Memory.Altered path σ.scene scene) :
    σ.keys.Attends σ.options.folders { σ.session with scene } := h.onward haltered.onward

theorem attends_step (h : σ.Attends) (r : Request) : (σ.step r).Attends := by
  have hkeeps : Workshop.Keeps σ.engine σ.now (fun _ => True)
      (σ.keys.Attends σ.options.folders) := Engine.keeps_attends rfl
  cases r with
  | write path content => exact h.altered (Memory.altered_write path content σ.scene)
  | remove path =>
    change σ.keys.Attends σ.options.folders
      { σ.session with scene := (Memory.remove path σ.scene).2 }
    cases hfile : (σ.scene.world.files.lookup path).isSome with
    | true => exact h.altered (Memory.altered_remove hfile)
    | false =>
      rw [Memory.remove_absent hfile]
      exact h
  | resolve g name layout => exact h.act (hkeeps.views g trivial name layout).1
  | resolvePartial g name => exact h.act (hkeeps.views g trivial name none).2
  | resolvePath g path => exact h.act (hkeeps.path g trivial path trivial)
  | config g => exact h.act (hkeeps.config g trivial)
  | register name source =>
    change (σ.register name source).Attends
    rcases σ.register_eq name source with heq | ⟨site, heq⟩
    · rw [heq]
      exact h.act (Takes.pure ())
    · have hclear := h.act hkeeps.clear
      rw [heq]
      exact hclear
  | clear => exact h.act hkeeps.clear
  | purge => exact h.act (KeySpace.Attends.takes_purge σ.now)
  | clearCache => exact h.act KeySpace.Attends.takes_clear
  | evict key => exact h.act (KeySpace.Attends.takes_remove σ.now key)
  | advance time => exact h

variable {files : List (String × String)} {site : Template.Library} {options : EngineOptions}
  {now : Instant}

theorem attends_start (h : start true files site options now = .ok σ) : σ.Attends := by
  unfold start at h
  simp only at h
  split at h
  · cases h
  · next e session hcreate =>
    cases h
    obtain ⟨⟨keys, rfl⟩, scene, hworld, rfl⟩ := Engine.create_eq_ok hcreate
    have hempty : keys.Attends options.folders
        ⟨{ epoch := now, flag := ({} : Signals).issueFlag.1 }, scene⟩ := by
      refine ⟨⟨.dropAll { epoch := now, flag := ({} : Signals).issueFlag.1 }, nofun, nofun⟩,
        ⟨fun w hw => ?_, fun w hw => ?_⟩, congrArg Memory.push hworld⟩ <;>
          rw [hworld] at hw <;> cases hw
    exact Engine.takes_ensureGlobal_attends (e := ⟨Memory.source, site, options, keys⟩) _ hempty

/-- **At any time** all entries of a service listen. -/
theorem attends_run (h : start true files site options now = .ok σ) (requests : List Request) :
    (σ.run requests).Attends := by
  induction requests using List.reverseRecOn with
  | nil => exact attends_start h
  | append_singleton requests r ih =>
    rw [run, List.foldl_append]
    exact attends_step ih r

end Service

end Templating
