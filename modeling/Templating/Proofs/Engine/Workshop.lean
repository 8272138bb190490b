import Templating.Proofs.Cache.Steady
import Templating.Proofs.Engine.Resolve
import Templating.Proofs.Source.Following

/-!
# An engine over any source

A `Workshop` is an engine with its cache at an instant, like a `Service`, but nothing is said about
its source: its calls may fail, and they may change the world in any way. The cache may be shared,
and between two operations of the engine others may use it, time may pass, and the scene may become
another.

A steady property of the cache is carried through each operation of the engine, given that the
entries are admitted which the operation puts in. The property may be another one once a group's
partials are there (`I₁` beside `I₀`).
-/

namespace Templating

namespace Source.Keeps

variable {W : Type} {s : Source W} {Q : W → Prop} (k : s.Keeps Q)

include k

theorem gather (extension : String) (site : Template.Library) (folders : List String) :
    (Gathering.gather s extension site folders).Keeps Q :=
  k.follows.gather (Scene.course_world Q) extension site folders

theorem fingerprints (g : Gathering) : (g.fingerprints s).Keeps Q :=
  k.follows.fingerprints (Scene.course_world Q) g

end Source.Keeps

namespace Poller

variable {W : Type} {Q : W → Prop}

theorem keeps_decide {p : Poller W} (h : p.source.Keeps Q) (now : Instant) (key : String)
    (value : Entry) (reason : Reason) : ((moment now).decide p key value reason).Keeps Q :=
  follows_decide (Scene.course_world Q) h.follows now key value reason

/-- A poller puts back nothing but the snapshot that has expired. -/
theorem of_reinsert {p : Poller W} {now : Instant} {key : String} {value : Entry}
    {reason : Reason} {scene : Scene W} {new : Entry} {options : Options (Poller W)}
    (h : ((moment now).decide p key value reason scene).1 = .reinsert new options) :
    ∃ snap, value = .poll snap ∧ reason = .expired ∧ new = .poll snap ∧
      options = p.options now snap.configKey := by
  cases value with
  | poll snap =>
    cases reason with
    | dependencyChanged => cases h
    | expired =>
      change ((snap.isUnchanged p.source p.extension >>= fun same =>
        if same = true then _ else _ : Act W _) scene).1 = _ at h
      rw [bind_apply] at h
      split at h
      · cases h
        exact ⟨snap, rfl, rfl, rfl, rfl⟩
      · cases h
  | global | config | compiled | missing => cases h

end Poller

/-! ## Operations of an engine -/

/-- The template was compiled with a library, from what the source has read in a world with `Q`. -/
def Template.Compiled.CompiledWith {W : Type} (t : Compiled) (s : Source W) (Q : W → Prop)
    (library : Library) : Prop :=
  ∃ (scene : Scene W) (text : String), Q scene.world ∧ (s.read t.path scene).1 = .ok text ∧
    library.compile t.path text = .ok t.render ∧ t.layout = (Declaration.scan text).name?

namespace Engine

open Session.Steady (Rests)
open Work (Answers Takes)

variable {W : Type} {e : Engine W} {now : Instant} {g : Group}
  {I I₀ I₁ : Cache Entry (Poller W) → List (Evicted Entry (Poller W)) → Prop} {Q : W → Prop}

/-- No engine is made, or it has what it was made from, with the keys that were asked for or keys of
its own, and it has made sure that its global entry is there. -/
theorem create_cases (source : Source W) (site : Template.Library) (options : EngineOptions)
    (now : Instant) (s : Session Entry (Poller W) W) :
    (∃ err, create source site options now s = (.error err, s)) ∨
      ∃ (keys : KeySpace) (scene : Scene W), scene.world = s.scene.world ∧
        (options.keyPrefix = some keys.keyPrefix ∨
          options.keyPrefix = none ∧ ∃ serial, keys = .unique serial) ∧
        create source site options now s = (.ok ⟨source, site, options, keys⟩,
          ((⟨source, site, options, keys⟩ : Engine W).ensureGlobal now { s with scene }).2) := by
  unfold create
  cases checkOptions options with
  | error err => exact .inl ⟨err, rfl⟩
  | ok _ =>
    right
    cases options.keyPrefix with
    | none => exact ⟨_, s.scene.takeSerial.2, rfl, .inr ⟨rfl, s.scene.serial, rfl⟩, rfl⟩
    | some text => exact ⟨⟨text⟩, s.scene, rfl, .inl rfl, rfl⟩

theorem create_eq_ok {source : Source W} {site : Template.Library} {options : EngineOptions}
    {now : Instant} {s s' : Session Entry (Poller W) W} {e : Engine W}
    (h : create source site options now s = (.ok e, s')) :
    (∃ keys, e = ⟨source, site, options, keys⟩) ∧
      ∃ scene : Scene W, scene.world = s.scene.world ∧
        s' = (e.ensureGlobal now { s with scene }).2 := by
  rcases create_cases source site options now s with ⟨err, herr⟩ | ⟨keys, scene, hworld, -, hok⟩
  · cases herr.symm.trans h
  · cases hok.symm.trans h
    exact ⟨⟨keys, rfl⟩, scene, hworld, rfl⟩

theorem takes_onScene {α : Type} {act : Act W α} (h : act.Keeps Q) :
    Takes (Rests I Q) (Rests I Q) (Session.onScene act : Resolving W α) :=
  fun s hs => ⟨hs.1, h s.scene hs.2⟩

theorem takes_note (event : Event) :
    Takes (Rests I Q) (Rests I Q) (Session.note event : Resolving W Unit) :=
  fun _ hs => hs

section Config

/-- **What a build leaves**, given what each of its parts makes of what the part before it left: the
global entry is there, the partials are gathered, they are put in, and, where there is nothing to
watch and they were stored, fingerprints are taken and a poller is armed. -/
theorem answers_build {P A : Session Entry (Poller W) W → Prop}
    {B : Gathering → Session Entry (Poller W) W → Prop}
    {C : Gathering → Bool → Session Entry (Poller W) W → Prop}
    {D : Gathering → List (String × String) → Session Entry (Poller W) W → Prop}
    {R : GroupConfig → Session Entry (Poller W) W → Prop}
    (hglobal : Takes P A (e.ensureGlobal now))
    (hgather : Answers A B (Session.onScene (Gathering.gather e.source e.options.extension e.site
      (e.options.folders.partialFolders g))))
    (hinsert : ∀ found, Answers (B found) (C found) (Session.insert (Poller.moment now)
      (e.keys.config g) (.config found.config)
        { keys := [e.keys.global], tokens := found.tokens }))
    (hfingerprints : ∀ found, found.tokens = [] →
      Answers (C found true) (D found) (Session.onScene (found.fingerprints e.source)))
    (harm : ∀ found fingerprints, Takes (D found fingerprints) (R found.config)
      (e.arm now ⟨e.options.folders.partialFolders g, fingerprints, found.ignored.eraseDups,
        e.keys.config g⟩))
    (hdone : ∀ found stored s, (found.tokens = [] → stored = false) → C found stored s →
      R found.config s)
    (hnote : ∀ c, Takes (R c) (R c) (Session.note .built)) :
    Answers P R (e.build now g) := by
  have hkey : Answers P (fun key s => key = e.keys.global ∧ A s) (e.ensureGlobal now) :=
    fun s hs => ⟨rfl, hglobal s hs⟩
  unfold build
  refine .bind hkey fun key => ?_
  rintro s ⟨rfl, hs⟩
  revert s
  change Answers A R _
  refine .bind hgather fun found => .bind (hinsert found) fun stored => ?_
  have hend : Answers (R found.config) R
      (do Session.note .built; return found.config : Resolving W GroupConfig) :=
    hnote found.config
  simp only
  split
  · next harmed =>
    obtain ⟨hempty, rfl⟩ := Bool.and_eq_true_iff.1 harmed
    exact .bind (hfingerprints found (List.isEmpty_iff.1 hempty)) fun fingerprints s hs =>
      hend _ (harm found fingerprints s hs)
  · next hskipped =>
    refine fun s hs => hend s (hdone found stored s (fun hnil => ?_) hs)
    rw [hnil] at hskipped
    simpa using hskipped

/-- The partials of a group are found in the cache, or they are put together. A look into the cache
may bring about what holds from then on, if it finds no partials there. -/
theorem answers_config_of {P₀ P : Session Entry (Poller W) W → Prop}
    {R : GroupConfig → Session Entry (Poller W) W → Prop}
    (hfirst : ∀ s, P₀ s →
      (∀ c, (Session.get (Poller.moment now) (e.keys.config g) s).1 ≠ some (.config c)) →
        P (Session.get (Poller.moment now) (e.keys.config g) s).2)
    (hfound : ∀ s c, P₀ s →
      (Session.get (Poller.moment now) (e.keys.config g) s).1 = some (.config c) →
        R c (Session.get (Poller.moment now) (e.keys.config g) s).2)
    (hagain : ∀ s, P s →
      (∀ c, (Session.get (Poller.moment now) (e.keys.config g) s).1 ≠ some (.config c)) →
        P (Session.get (Poller.moment now) (e.keys.config g) s).2)
    (hhit : ∀ s c, P s →
      (Session.get (Poller.moment now) (e.keys.config g) s).1 = some (.config c) →
        R c (Session.get (Poller.moment now) (e.keys.config g) s).2)
    (hbuild : Answers P R (e.build now g)) : Answers P₀ R (e.config now g) := by
  have hcached : ∀ {P₀ : Session Entry (Poller W) W → Prop},
      (∀ s, P₀ s →
        (∀ c, (Session.get (Poller.moment now) (e.keys.config g) s).1 ≠ some (.config c)) →
          P (Session.get (Poller.moment now) (e.keys.config g) s).2) →
      (∀ s c, P₀ s → (Session.get (Poller.moment now) (e.keys.config g) s).1 = some (.config c) →
        R c (Session.get (Poller.moment now) (e.keys.config g) s).2) →
      ∀ s, P₀ s → ((e.cachedConfig? now g s).1 = none → P (e.cachedConfig? now g s).2) ∧
        ∀ c, (e.cachedConfig? now g s).1 = some c → R c (e.cachedConfig? now g s).2 := by
    intro P₀ hget hhit s hs
    have hmissed := hget s hs
    have hfound := hhit s
    unfold cachedConfig?
    rw [bind_apply]
    generalize Session.get (Poller.moment now) (e.keys.config g) s = r at hmissed hfound
    obtain ⟨_ | (_ | c | _ | _ | _), s'⟩ := r
    case some.config =>
      refine ⟨nofun, fun _ h => ?_⟩
      cases h
      exact hfound c hs rfl
    all_goals exact ⟨fun _ => hmissed nofun, fun _ h => nomatch h⟩
  intro s hs
  obtain ⟨hmissed, hfound⟩ := hcached hfirst hfound s hs
  unfold config
  rw [bind_apply]
  generalize e.cachedConfig? now g s = r at hmissed hfound
  obtain ⟨_ | c, s'⟩ := r
  · obtain ⟨hmissed', hfound'⟩ := hcached hagain hhit s' (hmissed rfl)
    simp only
    rw [bind_apply]
    generalize e.cachedConfig? now g s' = r' at hmissed' hfound'
    obtain ⟨_ | c, s''⟩ := r'
    · exact hbuild s'' (hmissed' rfl)
    · exact hfound' c rfl
  · exact hfound c rfl

theorem answers_config {P : Session Entry (Poller W) W → Prop}
    {R : GroupConfig → Session Entry (Poller W) W → Prop}
    (hget : Takes P P (Session.get (Poller.moment now) (e.keys.config g)))
    (hhit : ∀ s c, P s →
      (Session.get (Poller.moment now) (e.keys.config g) s).1 = some (.config c) →
        R c (Session.get (Poller.moment now) (e.keys.config g) s).2)
    (hbuild : Answers P R (e.build now g)) : Answers P R (e.config now g) :=
  answers_config_of (fun s hs _ => hget s hs) hhit (fun s hs _ => hget s hs) hhit hbuild

variable (hsource : e.source.Keeps Q)

include hsource in
theorem takes_build (hglobal : Takes (Rests I₀ Q) (Rests I₀ Q) (e.ensureGlobal now))
    (hconfig : ∀ value tokens, Takes (Rests I₀ Q) (Rests I₁ Q)
      (Session.insert (Poller.moment now) (e.keys.config g) (.config value)
        { keys := [e.keys.global], tokens }))
    (harm : ∀ serial snap, snap.configKey = e.keys.config g → Takes (Rests I₁ Q) (Rests I₁ Q)
      (Session.insert (Poller.moment now) (KeySpace.poller snap.configKey serial) (.poll snap)
        (e.poller.options now snap.configKey))) :
    Takes (Rests I₀ Q) (Rests I₁ Q) (e.build now g) :=
  answers_build (B := fun _ => Rests I₀ Q) (C := fun _ _ => Rests I₁ Q)
    (D := fun _ _ => Rests I₁ Q) (R := fun _ => Rests I₁ Q) hglobal
    (takes_onScene (hsource.gather _ _ _)) (fun found => hconfig found.config found.tokens)
    (fun found _ => takes_onScene (hsource.fingerprints found))
    (fun _ _ => .bind (takes_onScene .takeSerial) fun serial =>
      .bind (harm serial _ rfl) fun _ => .pure _)
    (fun _ _ _ _ h => h) fun _ => takes_note _

theorem takes_config
    (hget : Takes (Rests I₀ Q) (Rests I₀ Q)
      (Session.get (Poller.moment now) (e.keys.config g)))
    (hhit : ∀ s c, Rests I₀ Q s →
      (Session.get (Poller.moment now) (e.keys.config g) s).1 = some (.config c) →
        Rests I₁ Q (Session.get (Poller.moment now) (e.keys.config g) s).2)
    (hbuild : Takes (Rests I₀ Q) (Rests I₁ Q) (e.build now g)) :
    Takes (Rests I₀ Q) (Rests I₁ Q) (e.config now g) :=
  answers_config (R := fun _ => Rests I₁ Q) hget hhit hbuild

/-- What every entry is like is kept, if it holds of the entries of groups and pollers. -/
theorem takes_config_holds {A : String → Entry → Options (Poller W) → Prop}
    (k : Session.Steady (Poller.moment now) (fun _ _ => A) (Cache.Holds A) Q)
    (hsource : e.source.Keeps Q) (hglobal : A e.keys.global .global {})
    (hconfig : ∀ value tokens,
      A (e.keys.config g) (.config value) { keys := [e.keys.global], tokens })
    (hpoll : ∀ key snap, A key (.poll snap) (e.poller.options now snap.configKey)) :
    Takes (Rests (Cache.Holds A) Q) (Rests (Cache.Holds A) Q) (e.config now g) :=
  takes_config (k.get _) (fun s _ h _ => k.get _ s h)
    (takes_build hsource (.bind (k.insertIfAbsent fun _ _ => hglobal) fun _ => .pure _)
      (fun value tokens => k.insert fun _ _ => hconfig value tokens)
      fun _ snap _ => k.insert fun _ _ => hpoll _ snap)

end Config

/-! ## Look-ups -/

section Lookup

variable {c : GroupConfig} {path : String}

/-- What was compiled was read. -/
theorem of_compiled {answer : Except StoreError String} {render : Template.RenderFn}
    {layout : Option String}
    (h : (match answer with
      | .ok source => ((c.library.compile path source).toOption).map fun render =>
        (render, (Template.Declaration.scan source).name?)
      | .error _ => none) = some (render, layout)) :
    ∃ source, answer = .ok source ∧ c.library.compile path source = .ok render ∧
      (Template.Declaration.scan source).name? = layout := by
  cases answer with
  | error err => cases h
  | ok source =>
    cases hmade : c.library.compile path source with
    | error err =>
      simp only [hmade] at h
      cases h
    | ok made =>
      simp only [hmade] at h
      cases h
      exact ⟨source, rfl, hmade, rfl⟩

section Steps

variable {P T : Session Entry (Poller W) W → Prop}

theorem takes_hasFingerprint (h : Takes P P (Session.onScene (e.source.fingerprint path)))
    (expected : String) : Takes P P (e.hasFingerprint path expected : Resolving W Bool) := by
  refine .bind h fun answer => ?_
  cases answer <;> exact .pure _

/-- To compile is to read, and to keep what was made of the text. -/
theorem takes_compile_of {U : Except StoreError String → Session Entry (Poller W) W → Prop}
    {token : Option Token} (hread : Answers T U (Session.onScene (e.source.read path)))
    (hnote : ∀ answer event, Takes (U answer) (U answer) (Session.note event))
    (hfingerprint : ∀ answer,
      Takes (U answer) (U answer) (Session.onScene (e.source.fingerprint path)))
    (hweak : ∀ answer s, U answer s → P s)
    (hbroken : ∀ answer, Takes (U answer) P (e.rememberBroken now g path))
    (hcompiled : ∀ text (template : Template.Compiled), template.path = path →
      c.library.compile path text = .ok template.render →
        template.layout = (Template.Declaration.scan text).name? →
          template.fingerprint.isNone = token.isSome →
            Takes (U (.ok text)) P (e.rememberCompiled now g token template)) :
    Takes T P (e.compile now g c path token) := by
  unfold compile
  refine .bind_answers hread fun answer => .bind (hnote answer _) fun _ => ?_
  split
  · exact .bind (hbroken answer) fun _ => .pure _
  · next render layout hmade =>
    obtain ⟨text, rfl, hrender, hlayout⟩ := of_compiled hmade
    split
    · next htoken =>
      exact .bind (hcompiled text _ rfl hrender hlayout.symm htoken.symm) fun _ => .pure _
    · next htoken =>
      refine .bind (hfingerprint _) fun digest => ?_
      cases digest with
      | error _ => exact (Takes.pure _).mono (hweak _) fun _ h => h
      | ok _ =>
        exact .bind (hcompiled text _ rfl hrender hlayout.symm (Bool.eq_false_iff.2 htoken).symm)
          fun _ => .pure _

/-- To ask is to take a token first, and then to compile or to note that there is no file. -/
theorem takes_ask_of {U : Option Token → Session Entry (Poller W) W → Prop}
    (htoken : Answers T U (Session.onScene (e.source.changeToken? path)))
    (hisFile : ∀ token, Takes (U token) (U token) (Session.onScene (e.source.isFile path)))
    (hmissing : ∀ token, Takes (U token) P (e.rememberMissing now g path token))
    (hcompile : ∀ token, Takes (U token) P (e.compile now g c path token)) :
    Takes T P (e.ask now g c path) := by
  refine .bind_answers htoken fun token => .bind (hisFile token) fun isFile => ?_
  cases isFile with
  | false => exact .bind (hmissing token) fun _ => .pure _
  | true => exact hcompile token

theorem takes_lookup
    (hget : Takes P P (Session.get (Poller.moment now) (e.keys.path g path)))
    (hfingerprint : Takes P P (Session.onScene (e.source.fingerprint path)))
    (hremove : Takes P P (Session.remove (Poller.moment now) (e.keys.path g path)))
    (hask : Takes P P (e.ask now g c path)) : Takes P P (e.lookup now g c path) := by
  refine .bind hget fun found => ?_
  split
  · exact .pure _
  · next template =>
    split
    · exact .pure _
    · refine .bind (takes_hasFingerprint hfingerprint _) fun same => ?_
      cases same with
      | true => exact .pure _
      | false => exact .bind hremove fun _ => hask
  · exact hask

end Steps

variable (hsource : e.source.Keeps Q)

include hsource

theorem takes_compile {token : Option Token}
    (hbroken : Takes (Rests I Q) (Rests I Q) (e.rememberBroken now g path))
    (hcompiled : ∀ template : Template.Compiled, template.path = path →
      template.CompiledWith e.source Q c.library →
        Takes (Rests I Q) (Rests I Q) (e.rememberCompiled now g token template)) :
    Takes (Rests I Q) (Rests I Q) (e.compile now g c path token) := by
  refine takes_compile_of (U := fun answer s => Rests I Q s ∧ ∀ text, answer = .ok text →
    ∃ scene : Scene W, Q scene.world ∧ (e.source.read path scene).1 = .ok text)
    (fun s hs => ⟨takes_onScene (hsource.read path) s hs, fun _ h => ⟨s.scene, hs.2, h⟩⟩)
    (fun _ _ _ hs => hs)
    (fun _ s hs => ⟨takes_onScene (hsource.fingerprint path) s hs.1, hs.2⟩) (fun _ _ hs => hs.1)
    (fun _ => hbroken.mono (fun _ hs => hs.1) fun _ hs => hs) ?_
  rintro text template rfl hrender hlayout - s ⟨hs, hread⟩
  obtain ⟨scene, hworld, htext⟩ := hread text rfl
  exact hcompiled template rfl ⟨scene, text, hworld, htext, hrender, hlayout⟩ s hs

theorem takes_ask
    (hmissing : ∀ token, Takes (Rests I Q) (Rests I Q) (e.rememberMissing now g path token))
    (hcompile : ∀ token, Takes (Rests I Q) (Rests I Q) (e.compile now g c path token)) :
    Takes (Rests I Q) (Rests I Q) (e.ask now g c path) :=
  takes_ask_of (U := fun _ => Rests I Q) (takes_onScene (hsource.changeToken? path))
    (fun _ => takes_onScene (hsource.isFile path)) hmissing hcompile

/-- **A look-up** keeps what is steady, if the answers about its path are admitted. -/
theorem takes_lookup_steady
    {New : Cache Entry (Poller W) → List (Evicted Entry (Poller W)) → String → Entry →
      Options (Poller W) → Prop}
    (k : Session.Steady (Poller.moment now) New I Q)
    (hguarded : ∀ cache value token sliding recheck, I cache [] →
      (value = .missing ∨ ∃ template : Template.Compiled, template.path = path ∧
        template.CompiledWith e.source Q c.library ∧ value = .compiled template) →
        New cache [] (e.keys.path g path) value (e.guarded now g token sliding recheck))
    (hbroken : ∀ cache, I cache [] → New cache [] (e.keys.path g path) .missing
      { expiration := .absolute (now + e.options.timings.compileFailureRetry) }) :
    Takes (Rests I Q) (Rests I Q) (e.lookup now g c path) := by
  refine takes_lookup (k.get _) (takes_onScene (hsource.fingerprint path)) (k.remove _)
    (takes_ask hsource
      (fun token => .bind (k.insert fun cache h => hguarded cache _ token _ _ h (.inl rfl))
        fun _ => .pure _)
      fun token => takes_compile hsource (.bind (k.insert hbroken) fun _ => .pure _) ?_)
  rintro template rfl hwith
  unfold rememberCompiled
  split
  · exact .pure _
  · exact .bind (k.insert fun cache h =>
      hguarded cache _ token _ _ h (.inr ⟨template, rfl, hwith, rfl⟩)) fun _ => .pure _

end Lookup

/-! ## Requests -/

section Resolve

variable {P P₀ P₁ : Session Entry (Poller W) W → Prop}
  {R : GroupConfig → Session Entry (Poller W) W → Prop} {c : GroupConfig}

theorem takes_search {paths : List String}
    (hlookup : ∀ path ∈ paths, Takes P P (e.lookup now g c path)) (searched : List String) :
    Takes P P (e.search now g c searched paths) := by
  induction paths generalizing searched with
  | nil => exact .pure _
  | cons path paths ih =>
    refine .bind (hlookup path List.mem_cons_self) fun found => ?_
    cases found with
    | some template => exact .pure _
    | none => exact ih (fun p hp => hlookup p (List.mem_cons_of_mem _ hp)) _

theorem takes_follow (hlookup : ∀ path, Rooted path → Takes P P (e.lookup now g c path))
    (fuel : Nat) (view : Template.Compiled) (layouts : List Template.Compiled)
    (searched : List String) (next : Option String) :
    Takes P P (e.follow now g c fuel view layouts searched next) := by
  induction fuel generalizing layouts searched next with
  | zero => cases next <;> exact .pure _
  | succ fuel ih =>
    cases next with
    | none => exact .pure _
    | some name =>
      refine .bind (takes_search (fun path hpath => hlookup path ?_) searched) fun found => ?_
      · exact e.rooted_candidates name (e.options.folders.rooted_layoutFolders g) path hpath
      · obtain ⟨_ | layout, tried⟩ := found
        · exact .pure _
        · simp only
          split
          · exact .pure _
          · exact ih _ _ _

/-- **A request** for a view or a partial keeps what its look-ups keep once the group's partials are
there. What that is may depend on the partials. A request that is refused leaves the session as it
is. -/
theorem takes_views (hrefused : ∀ s, P₀ s → P₁ s) (hconfig : Answers P₀ R (e.config now g))
    (hlookup : ∀ c path, Rooted path → Takes (R c) (R c) (e.lookup now g c path))
    (hweak : ∀ c s, R c s → P₁ s) (name : String) (layout : Option String) :
    Takes P₀ P₁ (e.resolve now g name layout) ∧ Takes P₀ P₁ (e.resolvePartial now g name) := by
  have hviews : ∀ c, Takes (R c) (R c) (e.search now g c []
      (e.candidates name (e.options.folders.viewFolders g))) := fun c =>
    takes_search (fun path hmem => hlookup c path
      (e.rooted_candidates name (e.options.folders.rooted_viewFolders g) path hmem)) []
  constructor
  · unfold resolve
    split
    · exact hrefused
    · refine .bind_answers hconfig fun c => .bind (hviews c) fun found => ?_
      obtain ⟨_ | view, searched⟩ := found
      · exact (Takes.pure _).mono (hweak c) fun _ h => h
      · exact .bind .get fun s =>
          (takes_follow (hlookup c) _ _ _ _ _).mono (fun _ h => h) (hweak c)
  · unfold resolvePartial
    split
    · exact hrefused
    · refine .bind_answers hconfig fun c => .bind (hviews c) fun found => ?_
      obtain ⟨_ | view, searched⟩ := found <;> exact (Takes.pure _).mono (hweak c) fun _ h => h

/-- So does a request for a path, which need not be one that views are looked for under. -/
theorem takes_resolvePath (hrefused : ∀ s, P₀ s → P₁ s) (hconfig : Answers P₀ R (e.config now g))
    {path : String} (hpath : ∀ c, Takes (R c) P₁ (e.lookup now g c path)) :
    Takes P₀ P₁ (e.resolvePath now g path) := by
  unfold resolvePath
  split
  · exact hrefused
  · exact .bind_answers hconfig fun c => .bind (hpath c) fun _ => .pure _

end Resolve

end Engine

/-! ## Runs -/

/-- An engine with its cache, at an instant. -/
structure Workshop (W : Type) where
  engine : Engine W
  now : Instant
  session : Session Entry (Poller W) W

namespace Workshop

/-- What may happen. -/
inductive Move (W : Type)
  | resolve (g : Group.Made) (name : String) (layout : Option String)
  | resolvePartial (g : Group.Made) (name : String)
  | resolvePath (g : Group.Made) (path : String)
  | config (g : Group.Made)
  | register (name source : String)
  | clear
  /-- Others use the cache. -/
  | cache (r : Cache.Request Entry (Poller W))
  /-- The scene becomes another, as when files change and tokens fire. -/
  | change (scene : Scene W)
  | advance (time : Duration)

/-- What others put into the cache is as `P` says, and the world becomes one with `Q`. -/
def Move.Within {W : Type} (P : String → Options (Poller W) → Prop) (Q : W → Prop) :
    Move W → Prop
  | .cache (.insert key _ options) | .cache (.insertIfAbsent key _ options) => P key options
  | .change scene => Q scene.world
  | _ => True

variable {W : Type}

def act {α : Type} (σ : Workshop W) (op : Resolving W α) : Workshop W :=
  { σ with session := (op σ.session).2 }

/-- What a move leaves behind. -/
def step (σ : Workshop W) : Move W → Workshop W
  | .resolve g name layout => σ.act (σ.engine.resolve σ.now g.1 name layout)
  | .resolvePartial g name => σ.act (σ.engine.resolvePartial σ.now g.1 name)
  | .resolvePath g path => σ.act (σ.engine.resolvePath σ.now g.1 path)
  | .config g => σ.act (σ.engine.config σ.now g.1)
  | .register name source =>
    match σ.engine.register σ.now name source σ.session with
    | (.ok engine, session) => { σ with engine, session }
    | (.error _, session) => { σ with session }
  | .clear => σ.act (σ.engine.clear σ.now)
  | .cache r => { σ with session := r.perform (Poller.moment σ.now) σ.session }
  | .change scene => { σ with session := { σ.session with scene } }
  | .advance time => { σ with now := σ.now + time }

def run (σ : Workshop W) (moves : List (Move W)) : Workshop W := moves.foldl step σ

/-- To register a template is to be refused, or to drop what is cached and go on with other
templates of the site. -/
theorem step_register (σ : Workshop W) (name source : String) :
    σ.step (.register name source) = σ ∨
      ∃ site, σ.step (.register name source) =
        { σ.step .clear with engine := { σ.engine with site } } := by
  rcases σ.engine.register_cases σ.now name source σ.session with ⟨err, hrefused⟩ | ⟨site, hdone⟩
  · left
    simp only [step, hrefused]
  · right
    exact ⟨site, by simp only [step, act, hdone]⟩

/-- An engine stays what it is, but for the templates of the site. -/
theorem engine_step (σ : Workshop W) (move : Move W) :
    ∃ site, (σ.step move).engine = { σ.engine with site } := by
  cases move with
  | register name source =>
    rcases σ.step_register name source with heq | ⟨site, heq⟩
    · exact ⟨σ.engine.site, by rw [heq]⟩
    · exact ⟨site, by rw [heq]⟩
  | _ => exact ⟨σ.engine.site, rfl⟩

theorem engine_run (σ : Workshop W) (moves : List (Move W)) :
    ∃ site, (σ.run moves).engine = { σ.engine with site } := by
  induction moves generalizing σ with
  | nil => exact ⟨σ.engine.site, rfl⟩
  | cons move moves ih =>
    obtain ⟨site, hstep⟩ := σ.engine_step move
    obtain ⟨site', hrun⟩ := ih (σ.step move)
    exact ⟨site', hrun.trans (by rw [hstep])⟩

/-- The move is a request for something of the group. -/
def Move.Asks (g : Group.Made) : Move W → Prop
  | .resolve g' _ _ | .resolvePartial g' _ | .resolvePath g' _ | .config g' => g' = g
  | _ => False

/-- What every operation of the engine makes of sessions with `P`, if the groups and the paths that
are asked for are as `G` and `L` say. -/
structure Leads (e : Engine W) (now : Instant) (G : Group.Made → Prop) (L : String → Prop)
    (P R : Session Entry (Poller W) W → Prop) : Prop where
  config : ∀ g, G g → Work.Takes P R (e.config now g.1)
  views : ∀ g, G g → ∀ name layout, Work.Takes P R (e.resolve now g.1 name layout) ∧
    Work.Takes P R (e.resolvePartial now g.1 name)
  path : ∀ g, G g → ∀ path, L path → Work.Takes P R (e.resolvePath now g.1 path)
  clear : Work.Takes P R (e.clear now)

/-- What every operation of the engine keeps. -/
abbrev Keeps (e : Engine W) (now : Instant) (L : String → Prop)
    (P : Session Entry (Poller W) W → Prop) : Prop :=
  Leads e now (fun _ => True) L P P

/-- **A move** leads where the operations of the engine lead, and what others do with the cache,
another scene, and time. The site of the engine may change meanwhile. -/
theorem step_leads {σ : Workshop W} {move : Move W} {L : String → Prop}
    {P : Session Entry (Poller W) W → Prop} {R : Instant → Session Entry (Poller W) W → Prop}
    (h : P σ.session) (hengine : Leads σ.engine σ.now (fun g => move.Asks g) L P (R σ.now))
    (hrefused : R σ.now σ.session) (hpath : ∀ g path, move = .resolvePath g path → L path)
    (hcache : ∀ r, move = .cache r → R σ.now (r.perform (Poller.moment σ.now) σ.session))
    (hchange : ∀ scene, move = .change scene → R σ.now { σ.session with scene })
    (hlater : ∀ time, R (σ.now + time) σ.session) :
    (∃ site, (σ.step move).engine = { σ.engine with site }) ∧
      R (σ.step move).now (σ.step move).session := by
  have hact : ∀ {α : Type} {op : Resolving W α}, Work.Takes P (R σ.now) op →
      (∃ site, (σ.act op).engine = { σ.engine with site }) ∧ R (σ.act op).now (σ.act op).session :=
    fun hop => ⟨⟨σ.engine.site, rfl⟩, hop _ h⟩
  cases move with
  | resolve g name layout => exact hact (hengine.views g rfl name layout).1
  | resolvePartial g name => exact hact (hengine.views g rfl name none).2
  | resolvePath g path => exact hact (hengine.path g rfl path (hpath g path rfl))
  | config g => exact hact (hengine.config g rfl)
  | register name source =>
    rcases σ.step_register name source with heq | ⟨site, heq⟩
    · rw [heq]
      exact ⟨⟨σ.engine.site, rfl⟩, hrefused⟩
    · rw [heq]
      exact ⟨⟨site, rfl⟩, hengine.clear _ h⟩
  | clear => exact hact hengine.clear
  | cache r => exact ⟨⟨σ.engine.site, rfl⟩, hcache r rfl⟩
  | change scene => exact ⟨⟨σ.engine.site, rfl⟩, hchange scene rfl⟩
  | advance time => exact ⟨⟨σ.engine.site, rfl⟩, hlater time⟩

/-- **A run** keeps what every operation of the engine keeps. -/
theorem run_keeps {e₀ : Engine W} {L : String → Prop}
    {P : Instant → Session Entry (Poller W) W → Prop} {A : Move W → Prop}
    (hengine : ∀ site now, Keeps { e₀ with site } now L (P now))
    (hpath : ∀ g path, A (.resolvePath g path) → L path)
    (hcache : ∀ now s r, A (.cache r) → P now s → P now (r.perform (Poller.moment now) s))
    (hchange : ∀ now s scene, A (.change scene) → P now s → P now { s with scene })
    (hlater : ∀ now time s, P now s → P (now + time) s) {σ : Workshop W}
    (hsite : ∃ site, σ.engine = { e₀ with site }) (h : P σ.now σ.session) {moves : List (Move W)}
    (hmoves : ∀ move ∈ moves, A move) :
    (∃ site, (σ.run moves).engine = { e₀ with site }) ∧
      P (σ.run moves).now (σ.run moves).session := by
  induction moves generalizing σ with
  | nil => exact ⟨hsite, h⟩
  | cons move moves ih =>
    have hallowed := hmoves move List.mem_cons_self
    obtain ⟨old, hold⟩ := hsite
    have hkeeps : Keeps σ.engine σ.now L (P σ.now) := by
      rw [hold]
      exact hengine old σ.now
    have hleads : Leads σ.engine σ.now (fun g => move.Asks g) L (P σ.now) (P σ.now) :=
      ⟨fun g _ => hkeeps.config g trivial, fun g _ => hkeeps.views g trivial,
        fun g _ => hkeeps.path g trivial, hkeeps.clear⟩
    obtain ⟨⟨site, hsite⟩, hnext⟩ := step_leads h hleads h
      (fun g path heq => hpath g path (heq ▸ hallowed))
      (fun r heq => hcache _ _ r (heq ▸ hallowed) h)
      (fun scene heq => hchange _ _ scene (heq ▸ hallowed) h) fun time => hlater _ time _ h
    exact ih ⟨site, by rw [hsite, hold]⟩ hnext fun other hmem =>
      hmoves other (List.mem_cons_of_mem _ hmem)

/-! ## Visits -/

/-- A part of a request, or what happens between two of them. -/
inductive Visit (W : Type)
  | config (g : Group.Made)
  | lookup (g : Group.Made) (c : GroupConfig) (path : String)
  | cache (r : Cache.Request Entry (Poller W))
  | change (scene : Scene W)
  | advance (time : Duration)

/-- Paths are looked up as `L` says, what others put into the cache is as `P` says, and the world
becomes one with `Q`. -/
def Visit.Within (L : Group.Made → String → Prop) (P : String → Options (Poller W) → Prop)
    (Q : W → Prop) : Visit W → Prop
  | .lookup g _ path => L g path
  | .cache (.insert key _ options) | .cache (.insertIfAbsent key _ options) => P key options
  | .change scene => Q scene.world
  | _ => True

def visit (σ : Workshop W) : Visit W → Workshop W
  | .config g => σ.act (σ.engine.config σ.now g.1)
  | .lookup g c path => σ.act (σ.engine.lookup σ.now g.1 c path)
  | .cache r => σ.step (.cache r)
  | .change scene => σ.step (.change scene)
  | .advance time => σ.step (.advance time)

def visits (σ : Workshop W) (vs : List (Visit W)) : Workshop W := vs.foldl visit σ

theorem visits_concat (σ : Workshop W) (vs : List (Visit W)) (v : Visit W) :
    σ.visits (vs ++ [v]) = (σ.visits vs).visit v := by
  unfold visits
  rw [List.foldl_append]
  rfl

/-- The visit is a part of a request for something of the group. -/
def Visit.PartOf (g : Group.Made) : Visit W → Prop
  | .config g' | .lookup g' _ _ => g' = g
  | _ => False

/-- A request is made up of visits. -/
theorem step_eq_visits (σ : Workshop W) {g : Group.Made} {move : Move W} (h : move.Asks g) :
    ∃ vs, (∀ v ∈ vs, v.PartOf g) ∧ σ.step move = σ.visits vs := by
  let P : Session Entry (Poller W) W → Prop := fun s =>
    ∃ vs, (∀ v ∈ vs, v.PartOf g) ∧ { σ with session := s } = σ.visits vs
  have hvisit : ∀ {α : Type} (op : Resolving W α) (v : Visit W), v.PartOf g →
      (∀ s : Session Entry (Poller W) W,
        ({ σ with session := s } : Workshop W).visit v = { σ with session := (op s).2 }) →
      Work.Takes P P op := by
    rintro α op v hv hop s ⟨vs, hvs, hs⟩
    refine ⟨vs ++ [v], fun w hw => ?_, by rw [visits_concat, ← hs, hop]⟩
    rcases List.mem_append.1 hw with hw | hw
    · exact hvs w hw
    · exact List.mem_singleton.1 hw ▸ hv
  have hstart : P σ.session := ⟨[], List.forall_mem_nil _, rfl⟩
  have hlookup : ∀ c path, Work.Takes P P (σ.engine.lookup σ.now g.1 c path) := fun c path =>
    hvisit _ (.lookup g c path) rfl fun _ => rfl
  have hconfig := hvisit (σ.engine.config σ.now g.1) (.config g) rfl fun _ => rfl
  have hviews := Engine.takes_views (R := fun _ => P) (fun _ h => h) hconfig.answers
    (fun c path _ => hlookup c path) (fun _ _ h => h)
  cases move with
  | resolve g' name layout =>
    obtain rfl : g' = g := h
    exact (hviews name layout).1 σ.session hstart
  | resolvePartial g' name =>
    obtain rfl : g' = g := h
    exact (hviews name none).2 σ.session hstart
  | resolvePath g' path =>
    obtain rfl : g' = g := h
    exact Engine.takes_resolvePath (R := fun _ => P) (fun _ h => h) hconfig.answers
      (fun c => hlookup c path) σ.session hstart
  | config g' =>
    obtain rfl : g' = g := h
    exact hconfig σ.session hstart
  | register | clear | cache | change | advance => exact h.elim

theorem engine_visits (σ : Workshop W) (vs : List (Visit W)) :
    (σ.visits vs).engine = σ.engine := by
  induction vs generalizing σ with
  | nil => rfl
  | cons v vs ih =>
    have hstep : (σ.visit v).engine = σ.engine := by cases v <;> rfl
    exact (ih (σ.visit v)).trans hstep

/-! ## What every entry is like -/

section Holds

open Session.Steady (Rests)

variable {A : String → Entry → Options (Poller W) → Prop} {Q : W → Prop} {e : Engine W}
  (hsteady : ∀ now, Session.Steady (Poller.moment now) (fun _ _ => A) (Cache.Holds A) Q)

include hsteady

/-- **Visits** keep what every entry is like, if the partials and the look-ups do. -/
theorem visits_hold {L : Group.Made → String → Prop} {P : String → Options (Poller W) → Prop}
    (hconfig : ∀ now (g : Group.Made),
      Work.Takes (Rests (Cache.Holds A) Q) (Rests (Cache.Holds A) Q) (e.config now g.1))
    (hlookup : ∀ now (g : Group.Made) c path, L g path →
      Work.Takes (Rests (Cache.Holds A) Q) (Rests (Cache.Holds A) Q) (e.lookup now g.1 c path))
    (hothers : ∀ key value options, P key options → A key value options)
    {σ : Workshop W} (hengine : σ.engine = e) (h : Rests (Cache.Holds A) Q σ.session)
    {vs : List (Visit W)} (hvs : ∀ v ∈ vs, v.Within L P Q) :
    Rests (Cache.Holds A) Q (σ.visits vs).session := by
  induction vs generalizing σ with
  | nil => exact h
  | cons v vs ih =>
    refine ih ((σ.engine_visits [v]).trans hengine) ?_
      fun other hmem => hvs other (List.mem_cons_of_mem _ hmem)
    have hv := hvs v List.mem_cons_self
    cases v with
    | config g =>
      rw [← hengine] at hconfig
      exact hconfig σ.now g _ h
    | lookup g c path =>
      rw [← hengine] at hlookup
      exact hlookup σ.now g c path hv _ h
    | cache r =>
      refine (hsteady σ.now).perform h r fun key value options hr _ _ => ?_
      rcases hr with rfl | rfl <;> exact hothers key value options hv
    | change scene => exact ⟨h.1, hv⟩
    | advance time => exact h

/-- So do the operations of the engine. -/
theorem keeps_holds {now : Instant}
    (hconfig : ∀ g : Group.Made,
      Work.Takes (Rests (Cache.Holds A) Q) (Rests (Cache.Holds A) Q) (e.config now g.1))
    (hlookup : ∀ (g : Group.Made) c path,
      Work.Takes (Rests (Cache.Holds A) Q) (Rests (Cache.Holds A) Q) (e.lookup now g.1 c path))
    (hglobal : A e.keys.global .global {}) :
    Keeps e now (fun _ => True) (Rests (Cache.Holds A) Q) where
  config g _ := hconfig g
  views g _ name layout :=
    Engine.takes_views (R := fun _ => Rests (Cache.Holds A) Q) (fun _ h => h) (hconfig g).answers
      (fun c path _ => hlookup g c path) (fun _ _ h => h) name layout
  path g _ path _ :=
    Engine.takes_resolvePath (fun _ h => h) (hconfig g).answers fun c => hlookup g c path
  clear := .bind ((hsteady now).remove _) fun _ =>
    .bind ((hsteady now).insert fun _ _ => hglobal) fun _ => .pure _

/-- **A new engine**, in a cache in which every entry is like this, keeps it so through any run and
in the middle of any request that follows. -/
theorem holds_visits {source : Source W} {site : Template.Library} {options : EngineOptions}
    {start : Instant} {s₀ s₁ : Session Entry (Poller W) W}
    (hcreate : Engine.create source site options start s₀ = (.ok e, s₁))
    (h : Rests (Cache.Holds A) Q s₀) (hglobal : A e.keys.global .global {})
    (hconfig : ∀ site now (g : Group.Made), Work.Takes (Rests (Cache.Holds A) Q)
      (Rests (Cache.Holds A) Q) (({ e with site } : Engine W).config now g.1))
    (hlookup : ∀ site now (g : Group.Made) c path, Work.Takes (Rests (Cache.Holds A) Q)
      (Rests (Cache.Holds A) Q) (({ e with site } : Engine W).lookup now g.1 c path))
    {P : String → Options (Poller W) → Prop}
    (hothers : ∀ key value options, P key options → A key value options) {moves : List (Move W)}
    (hmoves : ∀ move ∈ moves, move.Within P Q) {vs : List (Visit W)}
    (hvs : ∀ v ∈ vs, v.Within (fun _ _ => True) P Q) :
    let σ := ((⟨e, start, s₁⟩ : Workshop W).run moves).visits vs
    (∃ site, σ.engine = { e with site }) ∧ Rests (Cache.Holds A) Q σ.session := by
  intro σ
  have hstart : Rests (Cache.Holds A) Q s₁ := by
    obtain ⟨-, scene, hworld, rfl⟩ := Engine.create_eq_ok hcreate
    refine (Work.Takes.bind ((hsteady start).insertIfAbsent fun _ _ => hglobal) fun _ =>
      .pure e.keys.global) _ ⟨h.1, ?_⟩
    rw [hworld]
    exact h.2
  obtain ⟨⟨site', hsite⟩, hrun⟩ := run_keeps (σ := ⟨e, start, s₁⟩)
    (P := fun _ => Rests (Cache.Holds A) Q) (A := fun move => move.Within P Q)
    (fun site now => keeps_holds hsteady (fun g => hconfig site now g)
      (fun g c path => hlookup site now g c path) hglobal)
    (fun _ _ _ => trivial)
    (fun now s r hr hs => (hsteady now).perform hs r fun key value options hreq _ _ => by
      rcases hreq with rfl | rfl <;> exact hothers key value options hr)
    (fun _ _ _ hscene hs => ⟨hs.1, hscene⟩) (fun _ _ _ hs => hs) ⟨e.site, rfl⟩ hstart hmoves
  exact ⟨⟨site', (engine_visits _ vs).trans hsite⟩, visits_hold hsteady
    (fun now g => hconfig site' now g) (fun now g c path _ => hlookup site' now g c path) hothers
    hsite hrun hvs⟩

end Holds

end Workshop

end Templating
