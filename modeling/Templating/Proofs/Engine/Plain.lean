import Templating.Engine.Resolve
import Templating.Proofs.Source.Change

/-!
# Plain answers

What the files alone say, without cache and scene: `Plain.gather` puts a group's partials together,
`Plain.template` compiles a path, `Plain.resolve` finds a view and its layouts. An engine's answers
are compared with these. They depend on few files: a group's partials on those in its partial
folders (`gather_congr`), a template on its own.
-/

namespace Templating

namespace Plain

/-- The partial files in some folders. -/
def scan (files : List (String × String)) (extension : String) (folders : List String) :
    List String :=
  folders.flatMap fun folder => (listing files (asFolder folder)).filter (hasExtension extension)

def add (files : List (String × String)) (extension : String) (g : Gathering) (path : String) :
    Gathering :=
  if g.library.has (partialName extension path) then { g with ignored := g.ignored ++ [path] }
  else
    g.withPartial (partialName extension path) path none
      ((files.lookup path).bind fun source =>
        (g.library.register (partialName extension path) source).toOption)

def gather (files : List (String × String)) (extension : String) (site : Template.Library)
    (folders : List String) : Gathering :=
  (scan files extension folders).foldl (add files extension) { library := site, tokens := [] }

/-- The digests of files, as far as they are there. -/
def digests (files : List (String × String)) (paths : List String) : List (String × String) :=
  paths.filterMap fun path => (files.lookup path).map fun source => (path, Memory.digest source)

/-- What a poller remembers of a group's partial files. -/
def snapshot (files : List (String × String)) (extension : String) (site : Template.Library)
    (folders : List String) (configKey : String) : Snapshot :=
  let g := gather files extension site folders
  ⟨folders, Sorted.ofList (digests files g.attempted), g.ignored.eraseDups, configKey⟩

/-- A group's partials. -/
def config (e : Engine Memory) (files : List (String × String)) (g : Group) : GroupConfig :=
  (gather files e.options.extension e.site (e.options.folders.partialFolders g)).config

/-- The template that a source makes at a path. -/
def compile (push : Bool) (library : Template.Library) (path source : String) :
    Option Template.Compiled :=
  ((library.compile path source).toOption).map fun render =>
    ⟨path, render, if push then none else some (Memory.digest source),
      (Template.Declaration.scan source).name?⟩

/-- The template at a path, if there is one. -/
def template (push : Bool) (files : List (String × String)) (library : Template.Library)
    (path : String) : Option Template.Compiled :=
  (files.lookup path).bind (compile push library path)

/-- The template at the first of some paths that has one, and the paths tried. -/
def search (look : String → Option Template.Compiled) (searched : List String) :
    List String → Option Template.Compiled × List String
  | [] => (none, searched)
  | path :: paths =>
    match look path with
    | some template => (some template, searched ++ [path])
    | none => search look (searched ++ [path]) paths

/-- A view with its layouts, from the one called `next` on. -/
def follow (look : String → Option Template.Compiled) (paths : String → List String) :
    (fuel : Nat) → (view : Template.Compiled) → (layouts : List Template.Compiled) →
      (searched : List String) → (next : Option String) → Except ViewError Resolution
  | _, view, layouts, _, none => .ok (.found ⟨view, layouts⟩)
  | 0, _, _, searched, some _ => .ok (.notFound searched)
  | fuel + 1, view, layouts, searched, some name =>
    match search look searched (paths name) with
    | (none, searched) => .ok (.notFound searched)
    | (some layout, searched) =>
      if layouts.any (·.path == layout.path) then .error (.recursiveLayout name layout.path)
      else follow look paths fuel view (layouts ++ [layout]) searched layout.layout

end Plain

/-! ## What looking at files does to a scene -/

namespace Memory

/-- Nothing has happened to files and tokens, and who watched still does. -/
structure Calm (before after : Scene Memory) : Prop where
  files : after.world.files = before.world.files
  push : after.world.push = before.world.push
  watchers : ∀ w ∈ before.world.attended, w ∈ after.world.attended
  fired : ∀ t, after.signals.hasFired t = before.signals.hasFired t
  journal : before.journal <:+ after.journal

/-- Somebody has looked at the files and no flag was lowered. -/
structure Undisturbed (before after : Scene Memory) : Prop extends Calm before after where
  leads : before.signals.Leads after.signals

namespace Calm

theorem refl (scene : Scene Memory) : Calm scene scene :=
  ⟨rfl, rfl, fun _ h => h, fun _ => rfl, List.suffix_refl _⟩

theorem trans {a b c : Scene Memory} (h : Calm a b) (h' : Calm b c) : Calm a c where
  files := h'.files.trans h.files
  push := h'.push.trans h.push
  watchers w hw := h'.watchers w (h.watchers w hw)
  fired t := (h'.fired t).trans (h.fired t)
  journal := h.journal.trans h'.journal

theorem note (scene : Scene Memory) (e : Event) : Calm scene (scene.note e) :=
  ⟨rfl, rfl, fun _ h => h, fun _ => rfl, List.suffix_cons e _⟩

end Calm

namespace Undisturbed

theorem refl (scene : Scene Memory) : Undisturbed scene scene := ⟨.refl scene, .refl _⟩

theorem trans {a b c : Scene Memory} (h : Undisturbed a b) (h' : Undisturbed b c) :
    Undisturbed a c :=
  ⟨h.toCalm.trans h'.toCalm, h.leads.trans h'.leads⟩

theorem note (scene : Scene Memory) (e : Event) : Undisturbed scene (scene.note e) :=
  ⟨.note scene e, .refl _⟩

end Undisturbed

end Memory

/-- To ask for a token at a path: a store that pushes hands one out and remembers who watches. -/
theorem Memory.undisturbed_watch (path : String) (scene : Scene Memory) :
    Undisturbed scene (watch path scene).2 := by
  by_cases hpush : scene.world.push = true
  · have hkept : ∀ w ∈ scene.world.attended, w ∈ (watch path scene).2.world.attended := by
      rw [attended_watch hpush]
      exact fun _ h => List.mem_cons_of_mem _ h
    revert hkept
    unfold watch
    rw [if_pos hpush]
    exact fun hkept => ⟨⟨rfl, rfl, hkept, fun _ => rfl, List.suffix_refl _⟩, .issueToken (.refl _)⟩
  · unfold watch
    rw [if_neg hpush]
    exact .refl scene

theorem Memory.watch_of_push {scene : Scene Memory} (h : scene.world.push = true) (path : String) :
    ∃ t, (watch path scene).1 = some t ∧ (path, t) ∈ (watch path scene).2.world.attended := by
  rw [attended_watch h]
  unfold watch
  rw [if_pos h]
  exact ⟨_, rfl, List.mem_cons_self⟩

theorem Memory.watch_of_not_push {scene : Scene Memory} (h : scene.world.push = false)
    (path : String) : watch path scene = (none, scene) := by
  unfold watch
  rw [h]
  rfl

/-! ## Reading the source -/

theorem bind_apply {σ α β : Type} (x : StateM σ α) (f : α → StateM σ β) (s : σ) :
    (x >>= f) s = f (x s).1 (x s).2 := rfl

theorem pure_apply {σ α : Type} (a : α) (s : σ) : (pure a : StateM σ α) s = (a, s) := rfl

theorem isFolder_source (path : String) (scene : Scene Memory) :
    Memory.source.isFolder path scene = (scene.world.isFolder path, scene) := rfl

theorem list_source (path : String) (scene : Scene Memory) :
    Memory.source.list path scene = (scene.world.list path, scene) := rfl

theorem read_source (path : String) (scene : Scene Memory) :
    Memory.source.read path scene = (scene.world.read path, scene) := rfl

theorem fingerprint_source (path : String) (scene : Scene Memory) :
    Memory.source.fingerprint path scene = ((scene.world.read path).map Memory.digest, scene) := rfl

theorem changeToken?_source (path : String) (scene : Scene Memory) :
    Memory.source.changeToken? path scene = Memory.watch path scene := rfl

theorem scanPartials_source (extension : String) (folders : List String) {scene : Scene Memory}
    (h : Sorted.Ascending scene.world.files) :
    scanPartials Memory.source extension folders scene =
      (Plain.scan scene.world.files extension folders, scene) := by
  induction folders with
  | nil => rfl
  | cons folder folders ih =>
    have hlist := scene.world.list_eq_listing h folder
    cases hfolder : scene.world.isFolder folder with
    | true =>
      simp only [scanPartials, bind_apply, isFolder_source, hfolder, if_true, list_source,
        pure_apply, ih, hlist]
      rfl
    | false =>
      have hnil := scene.world.list_of_not_isFolder hfolder
      rw [hlist] at hnil
      simp only [scanPartials, bind_apply, isFolder_source, hfolder, Bool.false_eq_true, if_false,
        pure_apply, ih]
      simp [Plain.scan, hnil]

/-- What was gathered, without its tokens. -/
def Gathering.bare (g : Gathering) : Gathering := { g with tokens := [] }

/-- What a step of gathering does: it gathers as from the files alone, it may take tokens, and does
so exactly where changes are signalled. -/
structure Gathers (before : Scene Memory) (g : Gathering) (after : Gathering × Scene Memory)
    (plain : Gathering → Gathering) : Prop where
  bare : after.1.bare = plain g.bare
  tokens : ∀ t ∈ g.tokens, t ∈ after.1.tokens
  silent : before.world.push = false → after.1.tokens = g.tokens
  undisturbed : Memory.Undisturbed before after.2

theorem gathers_add (extension : String) (g : Gathering) (path : String) (scene : Scene Memory) :
    Gathers scene g (Gathering.add Memory.source extension g path scene)
      (fun g => Plain.add scene.world.files extension g path) := by
  have hread : (Memory.watch path scene).2.world.read path = scene.world.read path := by
    unfold Memory.read
    rw [(Memory.undisturbed_watch path scene).files]
  cases hname : g.library.has (partialName extension path) with
  | true =>
    have hadd : Gathering.add Memory.source extension g path scene =
        ({ g with ignored := g.ignored ++ [path] }, scene) := by
      simp only [Gathering.add, hname, if_true, pure_apply]
    rw [hadd]
    refine ⟨?_, fun _ ht => ht, fun _ => rfl, .refl scene⟩
    simp only [Plain.add, Gathering.bare, hname, if_true]
  | false =>
    simp only [Gathering.add, hname, Bool.false_eq_true, if_false, bind_apply,
      changeToken?_source, read_source, hread, pure_apply]
    refine ⟨?_, fun t ht => List.mem_append_left _ ht, ?_, ?_⟩
    · cases hfile : scene.world.files.lookup path <;>
        simp [Plain.add, Gathering.bare, hname, Gathering.withPartial, Memory.read, hfile]
    · intro hpush
      rw [Memory.watch_of_not_push hpush]
      exact List.append_nil _
    · exact (Memory.undisturbed_watch path scene).trans (.note _ _)

theorem gathers_foldlM_add (extension : String) (paths : List String) (g : Gathering)
    (scene : Scene Memory) :
    Gathers scene g (paths.foldlM (Gathering.add Memory.source extension) g scene)
      (fun g => paths.foldl (Plain.add scene.world.files extension) g) := by
  induction paths generalizing g scene with
  | nil => exact ⟨rfl, fun _ ht => ht, fun _ => rfl, .refl scene⟩
  | cons path paths ih =>
    have hfirst := gathers_add extension g path scene
    rw [List.foldlM_cons, bind_apply]
    generalize Gathering.add Memory.source extension g path scene = first at hfirst ⊢
    have hrest := ih first.1 first.2
    refine ⟨?_, fun t ht => hrest.tokens t (hfirst.tokens t ht), ?_,
      hfirst.undisturbed.trans hrest.undisturbed⟩
    · rw [hrest.bare, hfirst.bare, hfirst.undisturbed.files, List.foldl_cons]
    · intro hpush
      rw [hrest.silent (hfirst.undisturbed.push.trans hpush), hfirst.silent hpush]

/-- The tokens for some folders: one for each, where changes are signalled, and otherwise none. -/
theorem changeTokens_source (folders : List String) (scene : Scene Memory) :
    Memory.Undisturbed scene (folders.filterMapM Memory.source.changeToken? scene).2 ∧
      (scene.world.push = false →
        folders.filterMapM Memory.source.changeToken? scene = ([], scene)) ∧
      (scene.world.push = true → ∀ folder ∈ folders,
        ∃ t ∈ (folders.filterMapM Memory.source.changeToken? scene).1,
          (folder, t) ∈
            (folders.filterMapM Memory.source.changeToken? scene).2.world.attended) := by
  induction folders generalizing scene with
  | nil => exact ⟨.refl scene, fun _ => rfl, fun _ _ h => (by cases h)⟩
  | cons folder folders ih =>
    rw [List.filterMapM_cons, bind_apply, changeToken?_source]
    obtain ⟨hundisturbed, hsilent, htold⟩ := ih (Memory.watch folder scene).2
    have hfirst := Memory.undisturbed_watch folder scene
    cases hpush : scene.world.push with
    | false =>
      rw [Memory.watch_of_not_push hpush] at hsilent ⊢
      have hrest := hsilent hpush
      refine ⟨?_, fun _ => hrest, fun h => (by cases h)⟩
      simp only [hrest]
      exact .refl scene
    | true =>
      obtain ⟨t, ht, hwatched⟩ := Memory.watch_of_push hpush folder
      rw [ht]
      simp only [bind_apply, pure_apply]
      refine ⟨hfirst.trans hundisturbed, fun h => (by cases h), fun _ other hother => ?_⟩
      rcases List.mem_cons.1 hother with rfl | hother
      · exact ⟨t, List.mem_cons_self, hundisturbed.watchers _ hwatched⟩
      · obtain ⟨u, hu, hw⟩ := htold (hfirst.push.trans hpush) other hother
        exact ⟨u, List.mem_cons_of_mem _ hu, hw⟩

/-- **Gathering** answers what the files say. Where changes are signalled it holds a token for each
folder, and otherwise none. -/
theorem gather_source (extension : String) (site : Template.Library) (folders : List String)
    {scene : Scene Memory} (h : Sorted.Ascending scene.world.files) :
    let found := Gathering.gather Memory.source extension site folders scene
    found.1.bare = Plain.gather scene.world.files extension site folders ∧
      Memory.Undisturbed scene found.2 ∧
      (scene.world.push = false → found.1.tokens = []) ∧
      (scene.world.push = true → ∀ folder ∈ folders,
        ∃ t ∈ found.1.tokens, (folder, t) ∈ found.2.world.attended) := by
  intro found
  obtain ⟨hundisturbed, hsilent, htold⟩ := changeTokens_source folders scene
  generalize hfirst : folders.filterMapM Memory.source.changeToken? scene = first at *
  have hascending : Sorted.Ascending first.2.world.files := by rwa [hundisturbed.files]
  have hscan := scanPartials_source extension folders hascending
  have hfold := gathers_foldlM_add extension
    (Plain.scan scene.world.files extension folders) { library := site, tokens := first.1 } first.2
  have hfound : found = (Plain.scan scene.world.files extension folders).foldlM
      (Gathering.add Memory.source extension) { library := site, tokens := first.1 } first.2 := by
    simp only [found, Gathering.gather, bind_apply, hfirst, hscan, hundisturbed.files]
  rw [hfound]
  generalize List.foldlM (m := Act Memory) (Gathering.add Memory.source extension) _ _ _ = last at *
  refine ⟨?_, hundisturbed.trans hfold.undisturbed, ?_, ?_⟩
  · rw [hfold.bare, hundisturbed.files]
    rfl
  · intro hpush
    rw [hfold.silent (hundisturbed.push.trans hpush), hsilent hpush]
  · intro hpush folder hmem
    obtain ⟨t, ht, hw⟩ := htold hpush folder hmem
    exact ⟨t, hfold.tokens t ht, hfold.undisturbed.watchers _ hw⟩

/-- Picking with an action that only looks at the scene is picking with what it sees. -/
theorem filterMapM_of_looks {α β : Type} {action : α → Act Memory (Option β)} {pick : α → Option β}
    {scene : Scene Memory} (h : ∀ a, action a scene = (pick a, scene)) (l : List α) :
    l.filterMapM action scene = (l.filterMap pick, scene) := by
  induction l with
  | nil => rfl
  | cons a l ih =>
    rw [List.filterMapM_cons, bind_apply, h a, List.filterMap_cons]
    cases pick a with
    | none => exact ih
    | some b =>
      simp only
      rw [bind_apply, ih]
      rfl

theorem fingerprints_source (found : Gathering) (scene : Scene Memory) :
    found.fingerprints Memory.source scene =
      (Sorted.ofList (Plain.digests scene.world.files found.attempted), scene) := by
  unfold Gathering.fingerprints Plain.digests
  rw [bind_apply, filterMapM_of_looks fun path => ?_]
  · rfl
  · rw [bind_apply, fingerprint_source, Memory.read]
    cases scene.world.files.lookup path <;> rfl

/-! ## What a group's partials depend on -/

namespace Plain

variable {files files' : List (String × String)} {extension : String}

theorem add_congr {path : String} (h : files'.lookup path = files.lookup path) (g : Gathering) :
    add files' extension g path = add files extension g path := by
  unfold add
  rw [h]

/-- Two stores with the same files in the partial folders make the same of them. -/
theorem gather_congr {folders : List String} (h : Sorted.Ascending files)
    (h' : Sorted.Ascending files') (hslash : ∀ folder ∈ folders, EndsInSlash folder)
    (hsame : ∀ folder ∈ folders, ∀ path, Text.startsWith folder path = true →
      files'.lookup path = files.lookup path) (site : Template.Library) :
    gather files' extension site folders = gather files extension site folders := by
  have hlisting : ∀ folder ∈ folders,
      listing files' (asFolder folder) = listing files (asFolder folder) := by
    intro folder hmem
    rw [asFolder_of_endsInSlash (hslash folder hmem)]
    apply listing_congr h' h
    intro path hstart
    rw [hsame folder hmem path hstart]
  have hscan : scan files' extension folders = scan files extension folders :=
    List.flatMap_congr fun folder hmem => congrArg _ (hlisting folder hmem)
  unfold gather
  rw [hscan]
  refine List.foldl_ext _ _ _ fun g path hpath => add_congr ?_ g
  obtain ⟨folder, hmem, hin⟩ := List.mem_flatMap.1 hpath
  rw [asFolder_of_endsInSlash (hslash folder hmem)] at hin
  have hchild := (mem_listing.1 (List.mem_filter.1 hin).1).2
  exact hsame folder hmem path (startsWith_of_isDirectChild hchild)

end Plain

end Templating
