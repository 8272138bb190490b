import Templating.Proofs.Engine.Repeats
import Templating.Proofs.Engine.Walks
import Templating.Proofs.Source.Observing

/-!
# What a request costs the second time

An engine over files in memory or in a folder, under observation, answers a request a second time
as it did the first time. Meanwhile no file is looked for, listed or read. If the files signal
changes nothing is asked of them at all, and if they do not, one fingerprint is asked for each
template that is found (`Workshop.repeats_from_cache`).
-/

namespace Templating.Workshop

open Template (Compiled)

/-- **The same request at the same instant** is answered the same, whether something is found or
missing, is not well formed or recurs. This is so after any run of an engine that keeps views, and
that keeps what it keeps for a millisecond at least, if no call fails and nothing changes meanwhile.
All that it costs are fingerprints: none if the files signal changes, and else one for each look-up
that finds a template. -/
theorem repeats_from_cache {site : Template.Library} {options : EngineOptions}
    {start epoch : Instant} {flag : Flag} {scene : Scene (Observed Files)}
    {e₀ : Engine (Observed Files)} {s₀ : Session Entry (Poller (Observed Files)) (Observed Files)}
    {moves : List (Move (Observed Files))} {push : Bool}
    (hcreate : Engine.create (Observed.store Files.store).toSource site options start
      ⟨{ epoch, flag }, scene⟩ = (.ok e₀, s₀))
    (hpatient : options.Patient) (hscene : Observed.Serves (Files.Served push) push scene)
    (horderly : (⟨e₀, start, s₀⟩ : Workshop (Observed Files)).Orderly moves)
    (hmoves : ∀ move ∈ moves, move.Discreet e₀.keys (Observed.Serves (Files.Served push) push))
    (hquiet : ((⟨e₀, start, s₀⟩ : Workshop (Observed Files)).run
      moves).session.scene.world.Quiet)
    (g : Group.Made) (name : String) (layout : Option String) :
    let σ := (⟨e₀, start, s₀⟩ : Workshop (Observed Files)).run moves
    let e := σ.engine
    (let first := e.resolve σ.now g.1 name layout σ.session
     let again := e.resolve σ.now g.1 name layout first.2
     let log := e.resolveLog σ.now g.1 name layout first.2
     again.1 = first.1 ∧ log.2 = again.2 ∧
       again.2.scene.world = first.2.scene.world.charged (Engine.fees push log.1)) ∧
    (let first := e.resolvePartial σ.now g.1 name σ.session
     let again := e.resolvePartial σ.now g.1 name first.2
     let log := e.resolvePartialLog σ.now g.1 name first.2
     again.1 = first.1 ∧ log.2 = again.2 ∧
       again.2.scene.world = first.2.scene.world.charged (Engine.fees push log.1)) := by
  intro σ e
  let files := σ.session.scene.world.inner
  have hleads : (Observed.store Files.store).toSource.Follows
      fun a b => a.signals.Leads b.signals :=
    (Observed.follows Scene.course_leads Files.follows_leads).mono fun _ _ => And.left
  have hissues : (Observed.store Files.store).toSource.Issues
      (Observed.Serves (Files.Served push) push) push :=
    Observed.issues Files.issues Files.follows_served
  have hfiling := Engine.filing_create hcreate hissues hscene
  obtain ⟨hsource, hstart⟩ := watches_create hcreate hleads
  obtain ⟨⟨keys, hkeys⟩, -⟩ := Engine.create_eq_ok hcreate
  have hoptions : e₀.options = options := by rw [hkeys]
  rw [← hsource] at hleads hissues
  rw [← hoptions] at hpatient
  obtain ⟨⟨site', hsite⟩, hlast⟩ := watches_run (σ := ⟨e₀, start, s₀⟩) hleads hstart horderly
  have he : e = { e₀ with site := site' } := hsite
  have hwatches : ({ e₀ with site := site' } : Engine (Observed Files)).Watches σ.now
    σ.session [] := hlast
  obtain ⟨-, hhangs⟩ := run_hangs hcreate (.dropAll { epoch, flag }) (fun _ _ => rfl)
    fun move hmem => (hmoves move hmem).within
  have hfiled := run_filing (σ := ⟨e₀, start, s₀⟩) hissues ⟨e₀.site, rfl⟩ hfiling hmoves
  have hreports := Observed.reports (Files.reports files)
  have hcharges : (Observed.store Files.store).toSource.Charges
      (fun o => files.Same o.inner ∧ o.Quiet) (Observed.charged 1) :=
    Observed.charges Files.snd_fingerprint
  rw [← hsource] at hreports hcharges
  have hworld : files.Same σ.session.scene.world.inner ∧ σ.session.scene.world.Quiet :=
    ⟨Files.Same.refl files, hquiet⟩
  have hdigest : ∀ path text err, files.report.read path = .ok text →
      files.report.fingerprint path ≠ .error err := fun _ _ _ => files.fingerprint_of_read
  rw [he]
  constructor
  · obtain ⟨hsame, hcost⟩ := Engine.resolve_again (e := { e₀ with site := site' }) hreports hissues
      hpatient hdigest hcharges hwatches hhangs hfiled hworld g name layout
    rw [Observed.iterate_charged] at hcost
    exact ⟨hsame, Engine.snd_resolveLog name layout _, hcost⟩
  · obtain ⟨hsame, hcost⟩ := Engine.resolvePartial_again (e := { e₀ with site := site' }) hreports
      hissues hpatient hdigest hcharges hwatches hhangs hfiled hworld g name
    rw [Observed.iterate_charged] at hcost
    exact ⟨hsame, Engine.snd_resolvePartialLog name _, hcost⟩

/-! The view and the layout that both name this layout, in files that are observed. -/

/-- An engine over these files, with keys that start with `p`. -/
def spy : Engine (Observed Files) :=
  ⟨(Observed.store Files.store).toSource, {}, { keyPrefix := some "p" }, ⟨"p"⟩⟩

/-- The files, which signal changes. -/
def watched : Scene (Observed Files) := { world := { inner := .memory circular.world } }

/-- Its cache when it is made. -/
def stationed : Session Entry (Poller (Observed Files)) (Observed Files) :=
  (spy.ensureGlobal 0 ⟨{ epoch := 0, flag := ⟨0⟩ }, watched⟩).2

/-- The layout is followed until it comes up again. -/
theorem recurs_circular (library : Template.Library) :
    spy.Resolves (circular.world.report.template library) home.1 "page" none
      (.error (.recursiveLayout "frame" "~/Views/_Layouts/frame.hbs")) := by
  have hfiles : circular.world.files.lookup "~/Views/Home/page.hbs" = some framed ∧
      circular.world.files.lookup "~/Views/_Layouts/frame.hbs" = some framed := ⟨rfl, rfl⟩
  obtain ⟨view, hview⟩ := template_framed library hfiles.1
  obtain ⟨frame, hframe⟩ := template_framed library hfiles.2
  have hlayout : Plain.Hit (circular.world.report.template library)
      ["~/Views/Home/_Layouts/frame.hbs", "~/Views/_Layouts/frame.hbs"]
      ⟨"~/Views/_Layouts/frame.hbs", frame, none, some "frame"⟩
      ["~/Views/Home/_Layouts/frame.hbs", "~/Views/_Layouts/frame.hbs"] :=
    ⟨["~/Views/Home/_Layouts/frame.hbs"], "~/Views/_Layouts/frame.hbs", [], rfl,
      List.forall_mem_singleton.2 rfl, hframe, rfl⟩
  have hstack : Plain.Stack (circular.world.report.template library)
      (fun next => spy.candidates next (spy.options.folders.layoutFolders home.1))
      (some "frame") [⟨"~/Views/_Layouts/frame.hbs", frame, none, some "frame"⟩] _
      (some "frame") := .more hlayout (.done _)
  have hpage : Plain.Hit (circular.world.report.template library)
      ["~/Views/Home/page.hbs", "~/Views/_Shared/page.hbs"]
      ⟨"~/Views/Home/page.hbs", view, none, some "frame"⟩ ["~/Views/Home/page.hbs"] :=
    ⟨[], "~/Views/Home/page.hbs", ["~/Views/_Shared/page.hbs"], rfl, List.forall_mem_nil _, hview,
      rfl⟩
  have hnodup : (([⟨"~/Views/_Layouts/frame.hbs", frame, none, some "frame"⟩] :
      List Compiled).map Compiled.path).Nodup := List.nodup_singleton _
  exact .named (by decide +kernel)
    (.recursive hpage hstack hnodup hlayout (List.mem_singleton_self _))

/-- **A layout that declares itself** is found to recur a second time without a call that is
counted. -/
theorem repeats_from_cache_circular :
    let σ := (⟨spy, 0, stationed⟩ : Workshop (Observed Files)).run [.advance 5]
    let first := σ.engine.resolve σ.now home.1 "page" none σ.session
    let again := σ.engine.resolve σ.now home.1 "page" none first.2
    first.1 = .error (.recursiveLayout "frame" "~/Views/_Layouts/frame.hbs") ∧
      again.1 = .error (.recursiveLayout "frame" "~/Views/_Layouts/frame.hbs") ∧
      again.2.scene.world.usage = first.2.scene.world.usage := by
  have hcreate : Engine.create (Observed.store Files.store).toSource {} { keyPrefix := some "p" } 0
      ⟨{ epoch := 0, flag := ⟨0⟩ }, watched⟩ = (.ok spy, stationed) := rfl
  have hpatient : ({ keyPrefix := some "p" } : EngineOptions).Patient :=
    ⟨⟨_, rfl, by decide⟩, by decide, by decide, by decide, by decide⟩
  have hserves : Observed.Serves (Files.Served true) true watched :=
    ⟨⟨⟨⟨nofun, nofun⟩, nofun⟩, rfl⟩, fun _ _ => List.not_mem_nil⟩
  have hmoves : ∀ move ∈ [(.advance 5 : Move (Observed Files))],
      move.Discreet spy.keys (Observed.Serves (Files.Served true) true) :=
    List.forall_mem_singleton.2 trivial
  let Q : Observed Files → Prop := fun o => (Files.memory circular.world).Same o.inner ∧ o.Quiet
  obtain ⟨hwatches, hempty⟩ := Engine.watches_empty (e := spy) (Q := Q) 0 0 ⟨0⟩ watched
    ⟨⟨rfl, rfl⟩, rfl, rfl⟩
  have hleads : spy.source.Follows fun a b => a.signals.Leads b.signals :=
    (Observed.follows Scene.course_leads Files.follows_leads).mono fun _ _ => And.left
  obtain ⟨hwatches, hempty⟩ := Engine.watches_ensureGlobal hleads hwatches hempty
  have hreports : spy.source.Reports Q circular.world.report :=
    Observed.reports (Files.reports (.memory circular.world))
  have hwatches : spy.Watches 5 stationed [] := hwatches.later 5 (.refl _)
  have hfirst : (spy.resolve 5 home.1 "page" none stationed).1 =
      .error (.recursiveLayout "frame" "~/Views/_Layouts/frame.hbs") :=
    (Engine.resolve_iff_template hreports hwatches hempty home "page" none _).2
      (recurs_circular _)
  have horderly : (⟨spy, 0, stationed⟩ : Workshop (Observed Files)).Orderly [.advance 5] :=
    ⟨trivial, trivial⟩
  obtain ⟨hsame, -, hcost⟩ := (repeats_from_cache hcreate hpatient hserves horderly hmoves
    hempty.2.2 home "page" none).1
  have hfree : ∀ answers (o : Observed Files),
      (o.charged (Engine.fees true answers)).usage = o.usage := fun _ _ => rfl
  have husage := congrArg Observed.usage hcost
  rw [hfree] at husage
  exact ⟨hfirst, hsame.trans hfirst, husage⟩

end Templating.Workshop
