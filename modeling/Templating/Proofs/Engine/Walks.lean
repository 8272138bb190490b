import Templating.Proofs.Engine.Cold

/-!
# Every request ends

The layouts of a view are followed from one to the next until one declares none. That this ends is
not for the program to see, since files may declare one another in a circle; it ends because no path
is taken twice (`Workshop.resolve_ends`). What counts is the path: one layout may be reached by
different names and in different folders, and templates in the cache may be older than the files.
-/

namespace Templating

open Template (Compiled)

namespace Workshop

variable {W : Type} {source : Source W} {site : Template.Library} {options : EngineOptions}
  {start epoch : Instant} {flag : Flag} {scene : Scene W} {e₀ : Engine W}
  {s₀ : Session Entry (Poller W) W} {moves : List (Move W)} {Q : W → Prop} {r : Report}

/-- A new engine's cache watches. -/
theorem watches_create
    (hcreate : Engine.create source site options start ⟨{ epoch, flag }, scene⟩ = (.ok e₀, s₀))
    (hsource : source.Follows fun a b => a.signals.Leads b.signals) :
    e₀.source = source ∧ e₀.Watches start s₀ [] := by
  obtain ⟨⟨keys, rfl⟩, scene', -, rfl⟩ := Engine.create_eq_ok hcreate
  obtain ⟨hwatches, hempty⟩ := Engine.watches_empty (e := ⟨source, site, options, keys⟩)
    (Q := fun _ => True) start epoch flag scene' trivial
  exact ⟨rfl, (Engine.watches_ensureGlobal hsource hwatches hempty).1⟩

/-- **Every request for a view ends**, after any run of an engine, whatever is in its cache, if
nobody writes meanwhile. Given what the look-up of each path would answer now (`look`), it has one
answer. If that is a view, no two of its layouts have one path, the first was found under the name
that comes first, each further one under the name that the one before it declares, and the last
declares none. The answer is that the layouts recur if and only if, when they are followed in this
way, a path comes up again before a layout is missing or declares none. -/
theorem resolve_ends
    (hcreate : Engine.create source site options start ⟨{ epoch, flag }, scene⟩ = (.ok e₀, s₀))
    (hsource : source.Follows fun a b => a.signals.Leads b.signals)
    (hmoves : (⟨e₀, start, s₀⟩ : Workshop W).Orderly moves) (hreports : source.Reports Q r)
    (hworld : Q ((⟨e₀, start, s₀⟩ : Workshop W).run moves).session.scene.world) (g : Group.Made)
    (name : String) (layout : Option String) :
    let σ := (⟨e₀, start, s₀⟩ : Workshop W).run moves
    let e := σ.engine
    let look := e.sight σ.now g.1 σ.session
    let views := e.candidates name (e.options.folders.viewFolders g.1)
    let paths := fun next => e.candidates next (e.options.folders.layoutFolders g.1)
    let first := fun view : Compiled => (layout.filter (· != "")).or view.layout
    let answer := (e.resolve σ.now g.1 name layout σ.session).1
    (∀ a, answer = a ↔ e.Resolves look g.1 name layout a) ∧
    (∀ view layouts, answer = .ok (.found ⟨view, layouts⟩) →
      (layouts.map Compiled.path).Nodup ∧ ∃ tried searched, Plain.Hit look views view tried ∧
        Plain.Stack look paths (first view) layouts searched none) ∧
    ∀ next path, answer = .error (.recursiveLayout next path) ↔
      Text.trim name ≠ "" ∧ ∃ view tried layouts searched again more,
        Plain.Hit look views view tried ∧
        Plain.Stack look paths (first view) layouts searched (some next) ∧
        (layouts.map Compiled.path).Nodup ∧
        Plain.Hit look (paths next) again more ∧ again.path = path ∧
        path ∈ layouts.map Compiled.path := by
  intro σ e look views paths first answer
  obtain ⟨hengine, hwatches⟩ := watches_create hcreate hsource
  subst hengine
  obtain ⟨⟨site', hsite⟩, hlast⟩ := watches_run (σ := ⟨e₀, start, s₀⟩) hsource hwatches hmoves
  have he : e = { e₀ with site := site' } := hsite
  have hwatches : e.Watches σ.now σ.session [] := by
    rw [he]
    exact hlast
  have hreports : e.source.Reports Q r := by
    rw [he]
    exact hreports
  have hanswer : ∀ a, answer = a ↔ e.Resolves look g.1 name layout a :=
    Engine.resolve_iff_sight hwatches hreports hworld g name layout
  refine ⟨hanswer, fun view layouts hfound => ?_, fun next path => ?_⟩
  · rcases (hanswer _).1 hfound with _ | ⟨-, h⟩
    cases h with
    | found hit hstack hnodup => exact ⟨hnodup, _, _, hit, hstack⟩
  · rw [hanswer]
    constructor
    · rintro (_ | ⟨hname, h⟩)
      cases h with
      | recursive hit hstack hnodup hmore hagain =>
        exact ⟨hname, _, _, _, _, _, _, hit, hstack, hnodup, hmore, rfl, hagain⟩
    · rintro ⟨hname, view, tried, layouts, searched, again, more, hit, hstack, hnodup, hmore, rfl,
        hagain⟩
      exact .named hname (.recursive hit hstack hnodup hmore hagain)

/-! A view and a layout that both name this layout. -/

def framed : String := "\x7b#< frame #\x7d"

def circular : Scene Memory where
  world :=
    { files := [("~/Views/Home/page.hbs", framed), ("~/Views/_Layouts/frame.hbs", framed)]
      push := true }

/-- An engine over these files, with keys that start with `p`. -/
def winder : Engine Memory := ⟨Memory.source, {}, { keyPrefix := some "p" }, ⟨"p"⟩⟩

/-- The engine when it is made. -/
def wound : Workshop Memory :=
  ⟨winder, 0, (winder.ensureGlobal 0 ⟨{ epoch := 0, flag := ⟨0⟩ }, circular⟩).2⟩

/-- Both files are templates that declare the layout. -/
theorem template_framed (library : Template.Library) {path : String}
    (h : circular.world.files.lookup path = some framed) : ∃ render,
      circular.world.report.template library path = some ⟨path, render, none, some "frame"⟩ := by
  obtain ⟨nodes, hnodes⟩ : ∃ nodes, Template.Node.ofSource? framed = some nodes :=
    Option.isSome_iff_exists.1 (by decide +kernel)
  have hlayout : (Template.Declaration.scan framed).name? = some "frame" := by decide +kernel
  have hread : circular.world.read path = .ok framed := by
    unfold Memory.read
    rw [h]
  have hfile : circular.world.report.isFile path = true := congrArg Option.isSome h
  obtain ⟨render, hmade⟩ : ∃ render,
      circular.world.report.made library path = some (render, some "frame") := by
    change circular.world.report.read path = _ at hread
    simp only [Report.made, hread, Template.Library.compile, hnodes, Except.toOption,
      Option.map_some, hlayout]
    exact ⟨_, rfl⟩
  exact ⟨render, (Report.template_of_made hfile hmade).trans rfl⟩

/-- **A layout that declares itself** is found to recur, some time after the engine was made. -/
theorem resolve_ends_circular :
    ((wound.run [.advance 5]).engine.resolve (wound.run [.advance 5]).now home.1 "page" none
      (wound.run [.advance 5]).session).1 =
        .error (.recursiveLayout "frame" "~/Views/_Layouts/frame.hbs") := by
  have hmoves : wound.Orderly [.advance 5] := ⟨trivial, trivial⟩
  have hreports := circular.world.reports
  obtain ⟨hwatches, hempty⟩ := Engine.watches_empty (e := winder) (Q := circular.world.Same) 0 0
    ⟨0⟩ circular ⟨rfl, rfl⟩
  obtain ⟨hwatches', hempty'⟩ := Engine.watches_ensureGlobal Memory.leads_source hwatches hempty
  have hsight : ∀ path, Text.startsWith rootMark path = true →
      winder.sight 5 home.1 wound.session path =
        circular.world.report.template (circular.world.report.config ".hbs" {}
          (winder.options.folders.partialFolders home.1)).library path := fun path hrooted =>
    Engine.sight_cold hreports (hwatches'.later 5 (.refl _)) hempty' hrooted
  have hview : ∃ view, winder.sight 5 home.1 wound.session "~/Views/Home/page.hbs" =
      some ⟨"~/Views/Home/page.hbs", view, none, some "frame"⟩ :=
    (template_framed _ rfl).imp fun _ h => (hsight _ (by decide +kernel)).trans h
  have hframe : ∃ frame, winder.sight 5 home.1 wound.session "~/Views/_Layouts/frame.hbs" =
      some ⟨"~/Views/_Layouts/frame.hbs", frame, none, some "frame"⟩ :=
    (template_framed _ rfl).imp fun _ h => (hsight _ (by decide +kernel)).trans h
  have hnone : winder.sight 5 home.1 wound.session "~/Views/Home/_Layouts/frame.hbs" = none :=
    (hsight _ (by decide +kernel)).trans rfl
  obtain ⟨view, hview⟩ := hview
  obtain ⟨frame, hframe⟩ := hframe
  have hlayout : Plain.Hit (winder.sight 5 home.1 wound.session)
      ["~/Views/Home/_Layouts/frame.hbs", "~/Views/_Layouts/frame.hbs"]
      ⟨"~/Views/_Layouts/frame.hbs", frame, none, some "frame"⟩
      ["~/Views/Home/_Layouts/frame.hbs", "~/Views/_Layouts/frame.hbs"] :=
    ⟨["~/Views/Home/_Layouts/frame.hbs"], "~/Views/_Layouts/frame.hbs", [], rfl,
      List.forall_mem_singleton.2 hnone, hframe, rfl⟩
  have hstack : Plain.Stack (winder.sight 5 home.1 wound.session)
      (fun next => winder.candidates next (winder.options.folders.layoutFolders home.1))
      (some "frame") [⟨"~/Views/_Layouts/frame.hbs", frame, none, some "frame"⟩] _
      (some "frame") := .more hlayout (.done _)
  have hcreate : Engine.create Memory.source {} { keyPrefix := some "p" } 0
      ⟨{ epoch := 0, flag := ⟨0⟩ }, circular⟩ = (.ok wound.engine, wound.session) := rfl
  exact ((resolve_ends hcreate Memory.leads_source hmoves hreports hempty'.2 home "page"
    none).2.2 "frame" "~/Views/_Layouts/frame.hbs").2 ⟨by decide +kernel,
      ⟨"~/Views/Home/page.hbs", view, none, some "frame"⟩, _, _, _, _, _,
      ⟨[], "~/Views/Home/page.hbs", ["~/Views/_Shared/page.hbs"], rfl, List.forall_mem_nil _,
        hview, rfl⟩, hstack, List.nodup_singleton _, hlayout, rfl, List.mem_singleton_self _⟩

end Workshop

end Templating
