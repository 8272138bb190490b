import Mathlib.Data.Set.Function
import Templating.Proofs.Engine.Clearing

/-!
# What a fingerprint describes

Where changes are not signalled, a compiled template carries the fingerprint that its file had when
it was compiled, and it is good as long as the file still has it. But the file is read in one call
and its fingerprint taken in another, and in between it may change. If it does not, behind any call
that reads it, then every fingerprint in the cache is that of the text that its template was made
from (`Workshop.fingerprint_describes`), whatever else happens between two calls. If it does, the
fingerprint is that of the new text, and the template of the old one counts as up to date
(`Workshop.fingerprint_of_other_text`).
-/

namespace Templating

open Session.Steady (Rests)
open Work (Takes)

/-- What the template renders and the layout it declares were made from the text. -/
def Template.Compiled.MadeFrom (t : Compiled) (text : String) : Prop :=
  (∃ library : Library, library.compile t.path text = .ok t.render) ∧
    t.layout = (Declaration.scan text).name?

section Described

variable {W : Type} (k : KeySpace) (possible : W → Prop) (files : W → String → Option String)
  (digest : String → String)

/-- What an entry is like: its hook leads to possible worlds, and if it is a compiled template of
the engine's, its fingerprint is that of the text that it was made from. -/
structure Described (key : String) (value : Entry) (options : Options (Poller W)) : Prop where
  hook : ∀ p, options.hook = some p → p.source.Keeps possible
  path : k.Owns key → ∀ t, value = .compiled t → ∃ g : Group.Made, key = k.path g.1 t.path
  made : k.Owns key → ∀ t fingerprint, value = .compiled t → t.fingerprint = some fingerprint →
    ∃ text ∈ possibleTexts possible files, digest text = fingerprint ∧ t.MadeFrom text

variable {k possible files digest} {key : String} {value : Entry} {options : Options (Poller W)}

theorem Described.plain (hhook : ∀ p, options.hook = some p → p.source.Keeps possible)
    (hvalue : ∀ t, value ≠ .compiled t) :
    Described k possible files digest key value options :=
  ⟨hhook, fun _ t ht => absurd ht (hvalue t), fun _ t _ ht => absurd ht (hvalue t)⟩

theorem steady_described (now : Instant) :
    Session.Steady (Poller.moment now) (fun _ _ => Described k possible files digest)
      (Cache.Holds (Described k possible files digest)) possible := by
  refine Session.steady_holds
    (fun e hook scene h hhook => Poller.keeps_decide (h.hook hook hhook) now _ _ _ scene) ?_
  intro e hook scene value options h hhook hre
  obtain ⟨snap, -, -, rfl, rfl⟩ := Poller.of_reinsert hre
  refine .plain ?_ nofun
  rintro _ ⟨⟩
  exact h.hook hook hhook

end Described

/-! ## Operations of an engine -/

namespace Engine

variable {W : Type} {possible : W → Prop} {files : W → String → Option String}
  {digest : String → String} {e : Engine W} {now : Instant} {g : Group.Made} {c : GroupConfig}
  {path : String}

/-- What holds of a session when nothing waits to be asked. -/
abbrev Describes (e : Engine W) (possible : W → Prop) (files : W → String → Option String)
    (digest : String → String) : Session Entry (Poller W) W → Prop :=
  Rests (Cache.Holds (Described e.keys possible files digest)) possible

theorem steady_describes (e : Engine W) (possible : W → Prop) (files : W → String → Option String)
    (digest : String → String) (now : Instant) :
    Session.Steady (Poller.moment now) (fun _ _ => Described e.keys possible files digest)
      (Cache.Holds (Described e.keys possible files digest)) possible :=
  steady_described now

/-- A stored template is the answer as long as its file has the fingerprint that it carries. -/
theorem lookup_of_same {s : Session Entry (Poller W) W} {t : Template.Compiled}
    {fingerprint : String}
    (hfound : (Session.get (Poller.moment now) (e.keys.path g.1 path) s).1 = some (.compiled t))
    (hcarries : t.fingerprint = some fingerprint)
    (hsame : (e.hasFingerprint path fingerprint
      (Session.get (Poller.moment now) (e.keys.path g.1 path) s).2).1 = true) :
    (e.lookup now g.1 c path s).1 = some t := by
  unfold lookup
  rw [bind_apply, hfound]
  simp only [hcarries]
  rw [bind_apply, hsame]
  rfl

variable (h : e.source.Truthful possible files digest)

include h in
theorem takes_config_described : Takes (e.Describes possible files digest)
    (e.Describes possible files digest) (e.config now g.1) := by
  refine takes_config_holds (steady_described now) h.toKeeps (.plain nofun nofun)
    (fun _ _ => .plain nofun nofun) fun _ _ => .plain ?_ nofun
  rintro _ ⟨⟩
  exact h.toKeeps

theorem takes_rememberCompiled_described (token : Option Token) {template : Template.Compiled}
    (hmade : ∀ fingerprint, template.fingerprint = some fingerprint →
      ∃ text ∈ possibleTexts possible files, digest text = fingerprint ∧ template.MadeFrom text) :
    Takes (e.Describes possible files digest) (e.Describes possible files digest)
      (e.rememberCompiled now g.1 token template) := by
  have hsteady := e.steady_describes possible files digest now
  unfold rememberCompiled
  split
  · exact .pure _
  · refine .bind (hsteady.insert fun _ _ => ⟨nofun, ?_, ?_⟩) fun _ => .pure _
    · rintro - _ ⟨⟩
      exact ⟨g, rfl⟩
    · rintro - _ fingerprint ⟨⟩ hfingerprint
      exact hmade fingerprint hfingerprint

include h in
/-- The fingerprint is that of the text that was read, since the file is as it was. -/
theorem takes_compile_described (token : Option Token) : Takes (e.Describes possible files digest)
    (e.Describes possible files digest) (e.compile now g.1 c path token) := by
  -- Nothing happens to the file between the two calls but what happens behind the first.
  let Still (s s' : Session Entry (Poller W) W) : Prop :=
    e.Describes possible files digest s' ∧
      files s'.scene.world path = files s.scene.world path
  have hsteady := e.steady_describes possible files digest now
  have hbroken : Takes (e.Describes possible files digest) (e.Describes possible files digest)
      (e.rememberBroken now g.1 path) :=
    .bind (hsteady.insert fun _ _ => .plain nofun nofun) fun _ => .pure _
  unfold compile
  refine .bind_of (S := Still) ?_ fun s hs => ?_
  · exact fun s hs => ⟨⟨hs.1, h.read path s.scene hs.2⟩, h.still path s.scene hs.2⟩
  have hread : ∀ text, (Session.onScene (e.source.read path) s).1 = .ok text →
      files s.scene.world path = some text := fun text => h.read_ok path s.scene text hs.2
  have hnote : ∀ event, Takes (Still s) (Still s)
      (Session.note event : Resolving W Unit) := fun _ _ hs' => hs'
  generalize (Session.onScene (e.source.read path) s).1 = answer at hread ⊢
  simp only
  refine .bind (hnote _) fun _ => ?_
  split
  · exact .bind (hbroken.mono (fun _ hs' => hs'.1) fun _ hs' => hs') fun _ => .pure _
  · next render layout hcompiled =>
    obtain ⟨source, rfl, hrender, rfl⟩ := of_compiled hcompiled
    have hsource := hread source rfl
    split
    · exact .bind ((takes_rememberCompiled_described token (by nofun)).mono (fun _ hs' => hs'.1)
        fun _ hs' => hs') fun _ => .pure _
    · refine .bind_of (S := fun _ s' => e.Describes possible files digest s')
        (fun s' hs' => ⟨hs'.1.1, h.fingerprint path s'.scene hs'.1.2⟩) fun s' hs' => ?_
      have hfingerprint : ∀ fingerprint,
          (Session.onScene (e.source.fingerprint path) s').1 = .ok fingerprint →
            digest source = fingerprint := by
        intro fingerprint hok
        obtain ⟨text, htext, hdigest⟩ := h.fingerprint_ok path s'.scene fingerprint hs'.1.2 hok
        rw [hs'.2, hsource] at htext
        cases htext
        exact hdigest
      generalize (Session.onScene (e.source.fingerprint path) s').1 = answer at hfingerprint ⊢
      cases answer with
      | error err => exact .pure _
      | ok fingerprint =>
        refine .bind (takes_rememberCompiled_described token ?_) fun _ => .pure _
        rintro _ ⟨⟩
        exact ⟨source, ⟨_, path, hs.2, hsource⟩, hfingerprint fingerprint rfl,
          ⟨c.library, hrender⟩, rfl⟩

include h in
theorem takes_lookup_described : Takes (e.Describes possible files digest)
    (e.Describes possible files digest) (e.lookup now g.1 c path) := by
  have hsteady := e.steady_describes possible files digest now
  exact takes_lookup (hsteady.get _) (takes_onScene (h.toKeeps.fingerprint path))
    (hsteady.remove _) (takes_ask h.toKeeps
      (fun token => .bind (hsteady.insert fun _ _ => .plain nofun nofun) fun _ => .pure _)
      fun token => takes_compile_described h token)

include h in
/-- A look-up that finds the fingerprint of a stored template unchanged answers with it, and the
template was made from what the file holds now. -/
theorem lookup_of_hasFingerprint (hdistinct : Set.InjOn digest (possibleTexts possible files))
    {s : Session Entry (Poller W) W} (hs : e.Describes possible files digest s)
    {t : Template.Compiled} {fingerprint : String}
    (hfound : (Session.get (Poller.moment now) (e.keys.path g.1 path) s).1 = some (.compiled t))
    (hcarries : t.fingerprint = some fingerprint)
    (hsame : (e.hasFingerprint path fingerprint
      (Session.get (Poller.moment now) (e.keys.path g.1 path) s).2).1 = true) :
    (e.lookup now g.1 c path s).1 = some t ∧ t.path = path ∧
      ∃ text, files (Session.get (Poller.moment now) (e.keys.path g.1 path) s).2.scene.world path =
        some text ∧ t.MadeFrom text := by
  have hsteady := e.steady_describes possible files digest now
  have hanswer : (e.lookup now g.1 c path s).1 = some t := lookup_of_same hfound hcarries hsame
  obtain ⟨slot, hslot, hvalue⟩ := Session.stored_of_get hfound
  obtain ⟨hholds, hpossible⟩ := hsteady.get _ s hs
  generalize (Session.get (Poller.moment now) (e.keys.path g.1 path) s).2 = s' at *
  have hdescribed := hholds.stored _ slot hslot
  have howns := e.keys.owns_path g path
  obtain ⟨g', hkey⟩ := hdescribed.path howns t hvalue
  obtain ⟨-, hpath⟩ := e.keys.path_injective g.2 g'.2 hkey
  obtain ⟨text, htext, hdigest, hmade⟩ := hdescribed.made howns t fingerprint hvalue hcarries
  refine ⟨hanswer, hpath.symm, text, ?_, hmade⟩
  obtain ⟨held, hheld, hsamedigest⟩ : ∃ held, files s'.scene.world path = some held ∧
      digest held = fingerprint := by
    have hok := h.fingerprint_ok path s'.scene
    unfold hasFingerprint at hsame
    rw [bind_apply] at hsame
    change ∀ current, _ → (Session.onScene (e.source.fingerprint path) s').1 = .ok current → _
      at hok
    generalize Session.onScene (e.source.fingerprint path) s' = r at hok hsame
    obtain ⟨answer, after⟩ := r
    cases answer with
    | error err => cases hsame
    | ok current =>
      obtain rfl : current = fingerprint := eq_of_beq hsame
      exact hok current hpossible rfl
  rw [hheld, hdistinct ⟨_, path, hpossible, hheld⟩ htext (hsamedigest.trans hdigest.symm)]

end Engine

/-! ## Runs -/

namespace Workshop

variable {W : Type}

/-- **A fingerprint describes what was compiled**, over a source whose files do not change right
behind the call that reads them; behind any other call they may. After any run of a new engine, in
a cache that others may use under keys of their own, and in the middle of any request that follows,
a stored template with a fingerprint was made from a text with that fingerprint. So when different
texts have different fingerprints, a look-up that finds the fingerprint unchanged answers with a
template made from what the file holds at that moment. -/
theorem fingerprint_describes {source : Source W} {site : Template.Library}
    {options : EngineOptions} {start : Instant} {s₀ s₁ : Session Entry (Poller W) W} {e : Engine W}
    {possible : W → Prop} {files : W → String → Option String} {digest : String → String}
    (htruthful : source.Truthful possible files digest)
    (hcreate : Engine.create source site options start s₀ = (.ok e, s₁))
    (hlinked : s₀.cache.Linked)
    (hfree : ∀ key, e.keys.Owns key → s₀.cache.entries.get? key = none)
    (hhooks : ∀ key slot p, s₀.cache.entries.get? key = some slot → slot.options.hook = some p →
      p.source.Keeps possible)
    (hpossible : possible s₀.scene.world) {moves : List (Move W)} {vs : List (Visit W)}
    (hmoves : ∀ move ∈ moves, move.Within (fun key options => ¬e.keys.Owns key ∧
      ∀ p, options.hook = some p → p.source.Keeps possible) possible)
    (hvs : ∀ v ∈ vs, v.Within (fun _ _ => True) (fun key options => ¬e.keys.Owns key ∧
      ∀ p, options.hook = some p → p.source.Keeps possible) possible) :
    let σ := ((⟨e, start, s₁⟩ : Workshop W).run moves).visits vs
    (∀ key slot t fingerprint, e.keys.Owns key → σ.session.cache.entries.get? key = some slot →
      slot.value = .compiled t → t.fingerprint = some fingerprint →
        ∃ text ∈ possibleTexts possible files, digest text = fingerprint ∧ t.MadeFrom text) ∧
    (Set.InjOn digest (possibleTexts possible files) →
      ∀ (g : Group.Made) path c t fingerprint,
        let found := Session.get (Poller.moment σ.now) (e.keys.path g.1 path) σ.session
        found.1 = some (.compiled t) → t.fingerprint = some fingerprint →
        (σ.engine.hasFingerprint path fingerprint found.2).1 = true →
          (σ.engine.lookup σ.now g.1 c path σ.session).1 = some t ∧ t.path = path ∧
            ∃ text, files found.2.scene.world path = some text ∧ t.MadeFrom text) := by
  intro σ
  have hsource : ∀ site, ({ e with site } : Engine W).source.Truthful possible files digest := by
    intro site
    obtain ⟨⟨keys, rfl⟩, -⟩ := Engine.create_eq_ok hcreate
    exact htruthful
  have hothers : ∀ key value (options : Options (Poller W)), (¬e.keys.Owns key ∧
      ∀ p, options.hook = some p → p.source.Keeps possible) →
        Described e.keys possible files digest key value options := fun key value options hnew =>
    ⟨hnew.2, fun howns => absurd howns hnew.1, fun howns => absurd howns hnew.1⟩
  have hstart : e.Describes possible files digest s₀ := by
    refine ⟨⟨hlinked, fun key slot hget => ?_, nofun⟩, hpossible⟩
    refine hothers key slot.value slot.options ⟨fun howns => ?_, fun p => hhooks key slot p hget⟩
    rw [hfree key howns] at hget
    cases hget
  obtain ⟨⟨site', hengine⟩, hvisited⟩ : (∃ site, σ.engine = { e with site }) ∧
      e.Describes possible files digest σ.session :=
    holds_visits steady_described hcreate hstart (.plain nofun nofun)
      (fun site _ _ => Engine.takes_config_described (hsource site))
      (fun site _ _ _ _ => Engine.takes_lookup_described (hsource site)) hothers hmoves hvs
  refine ⟨fun key slot t fingerprint howns hget => ?_, fun hdistinct g path c t fingerprint => ?_⟩
  · exact (hvisited.1.stored key slot hget).made howns t fingerprint
  · intro found hfound hcarries hsame
    rw [hengine] at hsame ⊢
    exact Engine.lookup_of_hasFingerprint (hsource site') hdistinct hvisited hfound hcarries hsame

/-! ## A fingerprint of another text -/

-- As before, `settle` and what it is part of are rewritten, and the rest of a run unfolds.

abbrev Studio := Session Entry (Poller (Observed Memory)) (Observed Memory)

def older : String := "old"

def newer : String := "\x7b#< new #\x7d"

def known (text : String) : Prop := text = older ∨ text = newer

/-- Files in memory that nobody can watch. -/
def shelf : Observed Memory := { inner := { files := [("~/page.hbs", older)], push := false } }

/-- An engine over them. -/
def shelver : Engine (Observed Memory) :=
  ⟨(Observed.store Memory.store).toSource, {}, { keyPrefix := some "p" }, ⟨"p"⟩⟩

def bare : Studio := ⟨{ epoch := 0, flag := ⟨1⟩ }, { world := shelf }⟩

def launched : Workshop (Observed Memory) := ⟨shelver, 0, (shelver.ensureGlobal 0 bare).2⟩

def grounded : Studio :=
  ⟨bare.cache.link 0 "p:global" .global {}, { world := shelf, journal := [.stored "p:global"] }⟩

/-- The session when the partials of the group are kept, of which there are none. -/
def grouped : Studio where
  cache := grounded.cache.link 0 "p::Home:config" (.config ⟨{}, [], []⟩) { keys := ["p:global"] }
  scene :=
    { world := shelf
      journal := [.stored "p::Home:config", .miss "p::Home:config", .miss "p::Home:config",
        .stored "p:global"] }

def snapshot : Snapshot :=
  ⟨shelver.options.folders.partialFolders home.1, [], [], "p::Home:config"⟩

/-- The session when a poller is beside them. -/
def armed : Studio where
  cache := grouped.cache.link 0 (KeySpace.poller "p::Home:config" 0) (.poll snapshot)
    (shelver.poller.options 0 "p::Home:config")
  scene :=
    { grouped.scene with
      journal := .built :: .stored (KeySpace.poller "p::Home:config" 0) :: grouped.scene.journal
      serial := 1 }

/-- The scene when a change of the page is set up behind a call. -/
def raced (call : Call) : Scene (Observed Memory) :=
  { armed.scene with
    world := { shelf with races := [⟨call, "~/page.hbs", "~/page.hbs", some newer⟩] } }

/-- The session while the page is looked up. -/
def seeking (world : Observed Memory) : Studio where
  cache := armed.cache.touch 0 "p::Home:config"
  scene :=
    { armed.scene with
      journal := .miss "p::Home:~/page.hbs" :: .hit "p::Home:config" :: armed.scene.journal
      world }

/-- The files when the page was read and the change is made. -/
def rewritten : Observed Memory where
  inner := { files := [("~/page.hbs", newer)], push := false }
  usage := { isFile := 1, read := 1 }

/-- The page as made from a text, with the fingerprint that the changed file has. -/
def page (text : String) : Template.Compiled where
  path := "~/page.hbs"
  render := (({} : Template.Library).compile "~/page.hbs" text).toOption.getD fun _ =>
    .ok ("", .empty)
  fingerprint := some (Memory.digest newer)
  layout := (Template.Declaration.scan text).name?

/-- The session when the page is kept. -/
def shelved (text : String) : Studio where
  cache := (seeking rewritten).cache.link 0 "p::Home:~/page.hbs" (.compiled (page text))
    (shelver.guarded 0 home.1 none 0 shelver.options.timings.viewRecheck)
  scene :=
    { (seeking rewritten).scene with
      journal :=
        .stored "p::Home:~/page.hbs" :: .compiled .view true :: (seeking rewritten).scene.journal
      world := { rewritten with usage.fingerprint := 1 } }

theorem digest_ne : Memory.digest older ≠ Memory.digest newer := by decide +kernel

theorem injOn_digest : Set.InjOn Memory.digest { text | known text } := by
  rintro a (rfl | rfl) b (rfl | rfl) hsame
  · rfl
  · exact absurd hsame digest_ne
  · exact absurd hsame.symm digest_ne
  · rfl

theorem compile_page {text : String} (h : (Template.Node.ofSource? text).isSome = true) :
    ({} : Template.Library).compile "~/page.hbs" text = .ok (page text).render := by
  obtain ⟨nodes, hnodes⟩ := Option.isSome_iff_exists.1 h
  simp only [page, Template.Library.compile, hnodes, Except.toOption, Option.getD_some]

theorem madeFrom_page {text : String} (h : (Template.Node.ofSource? text).isSome = true) :
    (page text).MadeFrom text :=
  ⟨⟨{}, compile_page h⟩, rfl⟩

/-- The session when the partials of the group are kept, and a poller is beside them. -/
def guarding (found : Gathering) (fingerprints : List (String × String)) (journal : List Event)
    (world : Observed Memory) : Studio where
  cache := (grounded.cache.link 0 "p::Home:config" (.config found.config)
    { keys := ["p:global"] }).link 0 (KeySpace.poller "p::Home:config" 0)
      (.poll ⟨snapshot.folders, fingerprints, found.ignored.eraseDups, snapshot.configKey⟩)
      (shelver.poller.options 0 "p::Home:config")
  scene :=
    { journal := .built :: .stored (KeySpace.poller "p::Home:config" 0) ::
        .stored "p::Home:config" :: journal
      serial := 1
      world }

theorem build_grounded {found : Gathering} {fingerprints : List (String × String)}
    {before gathered : List Event} {world world' world'' : Observed Memory}
    (hgather : Gathering.gather shelver.source shelver.options.extension shelver.site
      (shelver.options.folders.partialFolders home.1) { journal := before, world } =
        (found, { journal := gathered, world := world' }))
    (htokens : found.tokens = [])
    (hfingerprints : found.fingerprints shelver.source
      { journal := .stored "p::Home:config" :: gathered, world := world' } =
        (fingerprints, { journal := .stored "p::Home:config" :: gathered, world := world'' })) :
    shelver.build 0 home.1 ⟨grounded.cache, { journal := before, world }⟩ =
      (found.config, guarding found fingerprints gathered world'') := by
  let stored (world : Observed Memory) : Studio :=
    ⟨grounded.cache.link 0 "p::Home:config" (.config found.config) { keys := ["p:global"] },
      { journal := .stored "p::Home:config" :: gathered, world }⟩
  let snap : Snapshot :=
    ⟨snapshot.folders, fingerprints, found.ignored.eraseDups, snapshot.configKey⟩
  let armed : Studio :=
    { guarding found fingerprints gathered world'' with
      scene := { (guarding found fingerprints gathered world'').scene with
        journal := (guarding found fingerprints gathered world'').scene.journal.tail } }
  have hglobal : shelver.ensureGlobal 0 ⟨grounded.cache, { journal := before, world }⟩ =
      ("p:global", ⟨grounded.cache, { journal := before, world }⟩) := rfl
  have hgathered : Session.onScene (Gathering.gather shelver.source shelver.options.extension
      shelver.site (shelver.options.folders.partialFolders home.1))
        (⟨grounded.cache, { journal := before, world }⟩ : Studio) =
          (found, ⟨grounded.cache, { journal := gathered, world := world' }⟩) := by
    unfold Session.onScene
    simp only [hgather]
  have hinsert : Session.insert (Poller.moment 0) (shelver.keys.config home.1)
      (.config found.config) { keys := ["p:global"], tokens := [] }
        (⟨grounded.cache, { journal := gathered, world := world' }⟩ : Studio) =
          (true, (stored world').settle (Poller.moment 0) []) := rfl
  have htaken : Session.onScene (found.fingerprints shelver.source) (stored world') =
      (fingerprints, stored world'') := by
    unfold Session.onScene
    simp only [stored, hfingerprints]
  have hpoll : Session.insert (Poller.moment 0) (KeySpace.poller "p::Home:config" 0) (.poll snap)
      (shelver.poller.options 0 "p::Home:config")
        { stored world'' with scene := { (stored world'').scene with serial := 1 } } =
          (true, armed.settle (Poller.moment 0) []) := rfl
  have harm : shelver.arm 0 snap (stored world'') =
      ((), armed.settle (Poller.moment 0) []) := congrArg (fun r : Bool × Studio => ((), r.2)) hpoll
  unfold Engine.build
  simp only
  rw [bind_apply, hglobal]
  simp only
  rw [bind_apply, hgathered]
  simp only
  rw [htokens, bind_apply, hinsert, Session.settle_nil]
  change ((do
    let fingerprints ← Session.onScene (found.fingerprints shelver.source)
    shelver.arm 0 ⟨snapshot.folders, fingerprints, found.ignored.eraseDups, snapshot.configKey⟩
    Session.note .built
    return found.config : Resolving (Observed Memory) GroupConfig) (stored world')) = _
  rw [bind_apply, htaken]
  change ((do
    shelver.arm 0 snap
    Session.note .built
    return found.config : Resolving (Observed Memory) GroupConfig) (stored world'')) = _
  rw [bind_apply, harm, Session.settle_nil]
  rfl

/-- The cache is asked for the partials twice before they are put together. -/
theorem config_grounded (journal : List Event) (world : Observed Memory) :
    shelver.config 0 home.1 ⟨grounded.cache, { journal, world }⟩ =
      shelver.build 0 home.1 ⟨grounded.cache,
        { journal := .miss "p::Home:config" :: .miss "p::Home:config" :: journal, world }⟩ := by
  have hmiss : ∀ journal, shelver.cachedConfig? 0 home.1 ⟨grounded.cache, { journal, world }⟩ =
      (none, ⟨grounded.cache, { journal := .miss "p::Home:config" :: journal, world }⟩) :=
    fun _ => rfl
  unfold Engine.config
  rw [bind_apply, hmiss]
  simp only
  rw [bind_apply, hmiss]

theorem config_launched : shelver.config 0 home.1 launched.session = (⟨{}, [], []⟩, armed) := by
  have hlaunched : launched.session = grounded.settle (Poller.moment 0) [] := rfl
  have hgrounded : grounded =
      ⟨grounded.cache, { journal := [.stored "p:global"], world := shelf }⟩ := rfl
  rw [hlaunched, Session.settle_nil, hgrounded, config_grounded]
  let found : Gathering := { library := {}, tokens := [] }
  have hfingerprints : ∀ scene : Scene (Observed Memory),
      found.fingerprints shelver.source scene = ([], scene) := fun _ => rfl
  exact build_grounded rfl rfl (hfingerprints _)

/-- What was read is compiled, and the fingerprint is taken when the change is made. -/
theorem compile_seeking {world : Observed Memory} {text : String}
    (hread : Session.onScene (shelver.source.read "~/page.hbs") (seeking world) =
      (.ok text, seeking rewritten))
    (hnodes : (Template.Node.ofSource? text).isSome = true) :
    shelver.compile 0 home.1 ⟨{}, [], []⟩ "~/page.hbs" none (seeking world) =
      (some (page text), shelved text) := by
  let noted (world : Observed Memory) : Studio :=
    { seeking rewritten with
      scene := { (seeking world).scene with
        journal := .compiled .view true :: (seeking world).scene.journal } }
  have hfingerprint : Session.onScene (shelver.source.fingerprint "~/page.hbs")
      (noted rewritten) =
        (.ok (Memory.digest newer), noted { rewritten with usage.fingerprint := 1 }) := rfl
  have hremember : shelver.rememberCompiled 0 home.1 none (page text)
      (noted { rewritten with usage.fingerprint := 1 }) =
        ((), (shelved text).settle (Poller.moment 0) []) := rfl
  unfold Engine.compile
  rw [bind_apply, hread]
  simp only [compile_page hnodes, Except.toOption, Option.map_some]
  rw [bind_apply]
  simp only [Option.isSome_none, Bool.false_eq_true, if_false]
  change (_ : Resolving (Observed Memory) (Option Template.Compiled)) (noted rewritten) = _
  rw [bind_apply, hfingerprint]
  change (do
    shelver.rememberCompiled 0 home.1 none (page text)
    return some (page text) : Resolving (Observed Memory) (Option Template.Compiled)) _ = _
  rw [bind_apply, hremember, Session.settle_nil]
  rfl

/-- Behind the call that asks for the page, the change is made before the page is read; behind the
one that reads it, the old text was read. -/
theorem lookup_raced {call : Call} {text : String}
    (h : call = .isFile ∧ text = newer ∨ call = .read ∧ text = older)
    (hnodes : (Template.Node.ofSource? text).isSome = true) :
    shelver.lookup 0 home.1 ⟨{}, [], []⟩ "~/page.hbs"
      ⟨(seeking shelf).cache, (raced call).note (.hit "p::Home:config")⟩ =
        (some (page text), shelved text) := by
  have hmiss : Session.get (Poller.moment 0) (shelver.keys.path home.1 "~/page.hbs")
      ⟨(seeking shelf).cache, (raced call).note (.hit "p::Home:config")⟩ =
        (none, seeking (raced call).world) := by
    cases call <;> rfl
  have htoken : Session.onScene (shelver.source.changeToken? "~/page.hbs")
      (seeking (raced call).world) = (none, seeking (raced call).world) := by
    rcases h with ⟨rfl, -⟩ | ⟨rfl, -⟩ <;> rfl
  obtain ⟨found, hisFile, hread⟩ : ∃ found,
      Session.onScene (shelver.source.isFile "~/page.hbs") (seeking (raced call).world) =
        (true, seeking found) ∧
      Session.onScene (shelver.source.read "~/page.hbs") (seeking found) =
        (.ok text, seeking rewritten) := by
    rcases h with ⟨rfl, rfl⟩ | ⟨rfl, rfl⟩
    · exact ⟨{ rewritten with usage.read := 0 }, rfl, rfl⟩
    · exact ⟨{ (raced .read).world with usage.isFile := 1 }, rfl, rfl⟩
  unfold Engine.lookup
  rw [bind_apply, hmiss]
  simp only
  unfold Engine.ask
  rw [bind_apply, htoken, bind_apply, hisFile]
  exact compile_seeking hread hnodes

theorem run_raced {call : Call} {text : String}
    (h : call = .isFile ∧ text = newer ∨ call = .read ∧ text = older)
    (hnodes : (Template.Node.ofSource? text).isSome = true) :
    launched.run [.config home, .change (raced call), .resolvePath home "~/page.hbs"] =
      ⟨shelver, 0, shelved text⟩ := by
  have hconfig : shelver.config 0 home.1 ⟨armed.cache, raced call⟩ = (⟨{}, [], []⟩,
      ⟨(seeking shelf).cache, (raced call).note (.hit "p::Home:config")⟩) := by
    cases call <;> rfl
  have hrun : launched.run [.config home, .change (raced call), .resolvePath home "~/page.hbs"] =
      ⟨shelver, 0, (shelver.resolvePath 0 home.1 "~/page.hbs"
        { (shelver.config 0 home.1 launched.session).2 with scene := raced call }).2⟩ := rfl
  have hname : Engine.requireName "path" "~/page.hbs" = .ok () := rfl
  have hresolve : (shelver.resolvePath 0 home.1 "~/page.hbs" ⟨armed.cache, raced call⟩).2 =
      shelved text := by
    unfold Engine.resolvePath
    rw [hname]
    simp only
    rw [bind_apply, hconfig, bind_apply, lookup_raced h hnodes]
    rfl
  rw [hrun, config_launched, hresolve]

theorem get_shelved {text : String} (h : known text) :
    Session.get (Poller.moment 0) (shelver.keys.path home.1 "~/page.hbs") (shelved text) =
      (some (.compiled (page text)), ⟨(shelved text).cache.touch 0 "p::Home:~/page.hbs",
        (shelved text).scene.note (.hit "p::Home:~/page.hbs")⟩) := by
  rcases h with rfl | rfl <;> rfl

theorem hasFingerprint_shelved {text : String} (h : known text) :
    (shelver.hasFingerprint "~/page.hbs" (Memory.digest newer) (Session.get (Poller.moment 0)
      (shelver.keys.path home.1 "~/page.hbs") (shelved text)).2).1 = true := by
  rw [get_shelved h]
  exact beq_self_eq_true (Memory.digest newer)

theorem create_launched :
    Engine.create shelver.source {} { keyPrefix := some "p" } 0 bare =
      (.ok shelver, launched.session) := rfl

theorem nodes_newer : (Template.Node.ofSource? newer).isSome = true := by decide +kernel

theorem nodes_older : (Template.Node.ofSource? older).isSome = true := by decide +kernel

theorem calm_raced : Observed.Calm known (raced .isFile).world where
  held path text hfile := by
    change (match path == "~/page.hbs" with
      | true => some older
      | false => none) = some text at hfile
    split at hfile
    · exact .inl (Option.some.inj hfile).symm
    · cases hfile
  coming r hr text htext := by
    rw [List.mem_singleton.1 hr] at htext
    exact .inr (Option.some.inj htext).symm
  still r hr hread := by
    rw [List.mem_singleton.1 hr] at hread
    cases hread

theorem fingerprint_describes_shelved :
    let σ := launched.run [.config home, .change (raced .isFile), .resolvePath home "~/page.hbs"]
    Engine.create shelver.source {} { keyPrefix := some "p" } 0 bare =
        (.ok shelver, launched.session) ∧
      σ.session.scene.world.inner.files = [("~/page.hbs", newer)] ∧
      ∀ c, (shelver.lookup 0 home.1 c "~/page.hbs" σ.session).1 = some (page newer) ∧
        ∃ text, σ.session.scene.world.inner.files.lookup "~/page.hbs" = some text ∧
          (page newer).MadeFrom text := by
  intro σ
  have hσ : σ = ⟨shelver, 0, shelved newer⟩ := run_raced (.inl ⟨rfl, rfl⟩) nodes_newer
  have hheld : Observed.Calm known bare.scene.world :=
    ⟨calm_raced.held, by simp [bare, shelf], by simp [bare, shelf]⟩
  have hmoves : ∀ move ∈ [.config home, .change (raced .isFile), .resolvePath home "~/page.hbs"],
      Move.Within (fun key options => ¬shelver.keys.Owns key ∧
        ∀ p : Poller (Observed Memory), options.hook = some p →
          p.source.Keeps (Observed.Calm known)) (Observed.Calm known) move := by
    simp [Move.Within, calm_raced]
  have hdistinct : Set.InjOn Memory.digest (possibleTexts (Observed.Calm known)
      fun o path => o.inner.files.lookup path) := by
    refine injOn_digest.mono ?_
    rintro text ⟨w, path, hw, hfile⟩
    exact hw.held path text hfile
  have hhooks : ∀ key slot (p : Poller (Observed Memory)), bare.cache.entries.get? key = some slot →
      slot.options.hook = some p → p.source.Keeps (Observed.Calm known) := by
    intro _ _ _ hget
    cases hget
  have hdescribes := (fingerprint_describes (Observed.truthful known) create_launched
    (.dropAll bare.cache) (fun _ _ => rfl) hhooks hheld hmoves (List.forall_mem_nil _)).2 hdistinct
    home "~/page.hbs"
  have hvisits : Workshop.visits (Workshop.run ⟨shelver, 0, launched.session⟩ [.config home,
      .change (raced .isFile), .resolvePath home "~/page.hbs"]) [] =
        ⟨shelver, 0, shelved newer⟩ := hσ
  rw [hvisits] at hdescribes
  refine ⟨create_launched, by rw [hσ]; rfl, fun c => ?_⟩
  obtain ⟨hanswer, -, htext⟩ := hdescribes c (page newer) (Memory.digest newer)
    (by rw [get_shelved (.inr rfl)]) rfl (hasFingerprint_shelved (.inr rfl))
  rw [get_shelved (.inr rfl)] at htext
  rw [hσ]
  exact ⟨hanswer, htext⟩

/-- **A fingerprint of another text.** The page changes right behind the call that reads it. It is
kept as made from the old text, with the fingerprint of the new one, which is what the file holds
from then on. The next look-up finds the fingerprint unchanged and answers with it. -/
theorem fingerprint_of_other_text :
    let σ := launched.run [.config home, .change (raced .read), .resolvePath home "~/page.hbs"]
    Engine.create shelver.source {} { keyPrefix := some "p" } 0 bare =
        (.ok shelver, launched.session) ∧
      Set.InjOn Memory.digest { text | known text } ∧
      σ.session.scene.world.inner.files = [("~/page.hbs", newer)] ∧
      σ.session.scene.world.races.isEmpty = true ∧
      (∃ slot, σ.session.cache.entries.get? (shelver.keys.path home.1 "~/page.hbs") = some slot ∧
        slot.value = .compiled (page older)) ∧
      (page older).fingerprint = some (Memory.digest newer) ∧ (page older).MadeFrom older ∧
      (∀ text, known text → Memory.digest text = Memory.digest newer →
        ¬(page older).MadeFrom text) ∧
      ∀ c, (shelver.lookup 0 home.1 c "~/page.hbs" σ.session).1 = some (page older) := by
  intro σ
  have hσ : σ = ⟨shelver, 0, shelved older⟩ := run_raced (.inr ⟨rfl, rfl⟩) nodes_older
  rw [hσ]
  refine ⟨create_launched, injOn_digest, rfl, rfl, ⟨_, rfl, rfl⟩, rfl, madeFrom_page nodes_older,
    ?_, fun c => ?_⟩
  · rintro text htext hsame ⟨-, hlayout⟩
    obtain rfl : text = newer := injOn_digest htext (.inr rfl) hsame
    have hnew : (Template.Declaration.scan newer).name? = some "new" := by decide +kernel
    have hold : (page older).layout = none := by decide +kernel
    rw [hnew, hold] at hlayout
    cases hlayout
  · exact Engine.lookup_of_same (by rw [get_shelved (.inl rfl)]) rfl
      (hasFingerprint_shelved (.inl rfl))

end Workshop

end Templating
