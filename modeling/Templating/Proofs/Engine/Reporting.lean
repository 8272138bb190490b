import Templating.Proofs.Engine.Plain
import Templating.Proofs.Source.Following
import Templating.Source.Store

/-!
# What a source reports

While nobody writes, a source answers each call the same whenever it is asked. Its answers are then
a `Report`, and what an engine makes of them is known beforehand: the partials of a group
(`Report.config`) and the template at a path (`Report.template`). A source may well change its world
when it is asked, as one does that keeps track of who watches; but no answer changes by that, and no
token fires (`Source.Reports`).

Files in memory and files in a folder are such sources (`Files.reports`).
-/

namespace Templating

open Template (Compiled)

/-- What a source answers. -/
structure Report where
  isFile : String → Bool
  isFolder : String → Bool
  list : String → List String
  read : String → Except StoreError String
  fingerprint : String → Except StoreError String
  /-- Whether there is a token to be had for a path. -/
  watched : String → Bool

namespace Report

variable (r : Report)

/-- The partial files in some folders. -/
def scan (extension : String) (folders : List String) : List String :=
  folders.flatMap fun folder =>
    (if r.isFolder folder then r.list folder else []).filter (hasExtension extension)

def add (extension : String) (g : Gathering) (path : String) : Gathering :=
  if g.library.has (partialName extension path) then { g with ignored := g.ignored ++ [path] }
  else
    g.withPartial (partialName extension path) path none
      (match r.read path with
        | .ok source => (g.library.register (partialName extension path) source).toOption
        | .error _ => none)

/-- A group's partials. -/
def config (extension : String) (site : Template.Library) (folders : List String) : GroupConfig :=
  ((r.scan extension folders).foldl (r.add extension) { library := site, tokens := [] }).config

/-- The template at a path, if a file exists there and compiles. -/
def template (library : Template.Library) (path : String) : Option Compiled :=
  if r.isFile path then
    match r.read path with
    | .ok source =>
      ((library.compile path source).toOption).map fun render =>
        ⟨path, render, if r.watched path then none else (r.fingerprint path).toOption,
          (Template.Declaration.scan source).name?⟩
    | .error _ => none
  else none

variable {r} in
theorem template_eq_some {library : Template.Library} {path : String} {t : Compiled}
    (h : r.template library path = some t) :
    t.path = path ∧ ∃ source, r.read path = .ok source ∧
      t.layout = (Template.Declaration.scan source).name? := by
  unfold template at h
  split at h
  · split at h
    · next source hread =>
      obtain ⟨render, -, rfl⟩ := Option.map_eq_some_iff.1 h
      exact ⟨rfl, source, hread, rfl⟩
    · cases h
  · cases h

end Report

/-- While the world is one with `Q`, the source answers as reported; its calls leave the world one
with `Q`, and no token fires. What can be read are so many texts at most as the source can hold. -/
structure Source.Reports {W : Type} (s : Source W) (Q : W → Prop) (r : Report) : Prop where
  still : s.Follows (Scene.Still Q)
  isFile : ∀ path scene, Q scene.world → (s.isFile path scene).1 = r.isFile path
  isFolder : ∀ path scene, Q scene.world → (s.isFolder path scene).1 = r.isFolder path
  list : ∀ path scene, Q scene.world → (s.list path scene).1 = r.list path
  read : ∀ path scene, Q scene.world → (s.read path scene).1 = r.read path
  fingerprint : ∀ path scene, Q scene.world → (s.fingerprint path scene).1 = r.fingerprint path
  watched : ∀ path scene, Q scene.world →
    (s.watch path scene).1.toOption.join.isSome = r.watched path
  bounded : ∀ w, Q w → ∃ texts : List String, texts.length ≤ s.capacity w ∧
    ∀ path text, r.read path = .ok text → text ∈ texts

/-- While the world is one with `Q`, a call for a fingerprint makes of it what `pay` says, and
changes nothing else in the scene. -/
def Source.Charges {W : Type} (s : Source W) (Q : W → Prop) (pay : W → W) : Prop :=
  ∀ path scene, Q scene.world →
    (s.fingerprint path scene).2 = { scene with world := pay scene.world }

theorem Source.fst_changeToken? {W : Type} (s : Source W) (path : String) (scene : Scene W) :
    (s.changeToken? path scene).1 = (s.watch path scene).1.toOption.join := by
  unfold changeToken?
  rw [bind_apply]
  generalize s.watch path scene = answer
  obtain ⟨_ | _, _⟩ := answer <;> rfl

/-! ## Putting partials together -/

namespace Source.Reports

variable {W : Type} {s : Source W} {Q : W → Prop} {r : Report} (h : s.Reports Q r)
  {extension : String} {scene : Scene W}

include h

theorem changeToken?_still (path : String) : (s.changeToken? path).Follows (Scene.Still Q) :=
  h.still.changeToken? (Scene.course_still Q) path

theorem isSome_changeToken? (hQ : Q scene.world) (path : String) :
    (s.changeToken? path scene).1.isSome = r.watched path := by
  rw [← h.watched path scene hQ, s.fst_changeToken?]

theorem scanPartials (hQ : Q scene.world) (folders : List String) :
    (Templating.scanPartials s extension folders scene).1 = r.scan extension folders := by
  induction folders generalizing scene with
  | nil => rfl
  | cons folder folders ih =>
    have hfolder := h.isFolder folder scene hQ
    have hQ₁ := (h.still.isFolder folder scene hQ).1
    unfold Templating.scanPartials Report.scan
    rw [List.flatMap_cons, bind_apply, hfolder]
    cases r.isFolder folder with
    | false =>
      simp only [Bool.false_eq_true, if_false, bind_apply, pure_apply]
      rw [ih hQ₁]
      rfl
    | true =>
      have hlist := h.list folder _ hQ₁
      simp only [if_true, bind_apply, pure_apply]
      rw [hlist, ih (h.still.list folder _ hQ₁).1]
      rfl

theorem add (hQ : Q scene.world) (g : Gathering) (path : String) :
    (Gathering.add s extension g path scene).1.bare = r.add extension g.bare path := by
  cases hname : g.library.has (partialName extension path) with
  | true =>
    simp only [Gathering.add, Report.add, Gathering.bare, hname, if_true, pure_apply]
  | false =>
    have hread := h.read path _ (h.changeToken?_still path scene hQ).1
    simp only [Gathering.add, Report.add, Gathering.bare, hname, Bool.false_eq_true, if_false,
      bind_apply, pure_apply, hread]
    cases r.read path <;> rfl

/-- What is gathered, but for the tokens, comes of the files that are reported. -/
theorem gather_bare (hQ : Q scene.world) (site : Template.Library) (folders : List String) :
    (Gathering.gather s extension site folders scene).1.bare =
      (r.scan extension folders).foldl (r.add extension) { library := site, tokens := [] } := by
  have hfold : ∀ (paths : List String) (g : Gathering) (scene : Scene W), Q scene.world →
      (paths.foldlM (Gathering.add s extension) g scene).1.bare =
        paths.foldl (r.add extension) g.bare := by
    intro paths
    induction paths with
    | nil => exact fun _ _ _ => rfl
    | cons path paths ih =>
      intro g scene hQ
      rw [List.foldlM_cons, bind_apply, List.foldl_cons, ← h.add hQ]
      exact ih _ _ (h.still.add (Scene.course_still Q) extension g path scene hQ).1
  have htokens := (Act.Follows.filterMapM (Scene.course_still Q) h.changeToken?_still folders
    scene hQ).1
  have hpaths : (Templating.scanPartials s extension folders
      (folders.filterMapM s.changeToken? scene).2).1 = r.scan extension folders :=
    h.scanPartials htokens folders
  have hlisted := (h.still.scanPartials (Scene.course_still Q) extension folders _ htokens).1
  unfold Gathering.gather
  rw [bind_apply, bind_apply, hpaths]
  exact hfold (r.scan extension folders)
    { library := site, tokens := (folders.filterMapM s.changeToken? scene).1 } _ hlisted

/-- **Putting a group's partials together** comes to what is reported. -/
theorem gather (hQ : Q scene.world) (site : Template.Library) (folders : List String) :
    (Gathering.gather s extension site folders scene).1.config =
      r.config extension site folders := by
  have hbare : (Gathering.gather s extension site folders scene).1.bare = _ :=
    h.gather_bare hQ site folders
  have hconfig := congrArg Gathering.config hbare
  exact hconfig

end Source.Reports

/-! ## Files in memory and in a folder -/

namespace Memory

def report (m : Memory) : Report where
  isFile path := (m.files.lookup path).isSome
  isFolder := m.isFolder
  list := m.list
  read := m.read
  fingerprint path := (m.read path).map digest
  watched _ := m.push

/-- The same files, and changes are signalled by both or by none. -/
def Same (m m' : Memory) : Prop := m'.files = m.files ∧ m'.push = m.push

theorem reports (m : Memory) : source.Reports m.Same m.report where
  still := by
    refine ⟨?_, ?_, ?_, ?_, ?_, fun path scene h => ?_⟩
    case refine_6 =>
      change m.Same (watch path scene).2.world ∧
        (watch path scene).2.signals.fired = scene.signals.fired
      unfold watch
      split <;> exact ⟨h, rfl⟩
    all_goals exact fun _ _ h => ⟨h, rfl⟩
  isFile path scene h := congrArg (fun files => (files.lookup path).isSome) h.1
  isFolder path scene h := by
    change scene.world.isFolder path = m.isFolder path
    unfold isFolder below
    rw [h.1]
  list path scene h := by
    change scene.world.list path = m.list path
    unfold list below
    rw [h.1]
  read path scene h := by
    change scene.world.read path = m.read path
    unfold read
    rw [h.1]
  fingerprint path scene h := by
    change (scene.world.read path).map digest = (m.read path).map digest
    unfold read
    rw [h.1]
  watched path scene h := by
    change (watch path scene).1.isSome = m.push
    rw [← h.2]
    unfold watch
    cases scene.world.push <;> rfl
  bounded w h := by
    refine ⟨m.files.map Prod.snd, ?_, fun path text hread => ?_⟩
    · rw [List.length_map, ← h.1]
      exact Nat.le_refl _
    · exact List.mem_map.2 ⟨(path, text), Templating.mem_of_lookup (lookup_of_read hread), rfl⟩

theorem leads_source : source.Follows fun a b => a.signals.Leads b.signals := by
  refine ⟨?_, ?_, ?_, ?_, ?_, fun path scene => ?_⟩
  case refine_6 => exact (undisturbed_watch path scene).leads
  all_goals exact fun _ _ => .refl _

end Memory

namespace Directory

def report (d : Directory) : Report where
  isFile := d.isFile
  isFolder := d.isFolder
  list := d.list
  read := d.read
  fingerprint := d.fingerprint
  watched _ := false

theorem leads_source : source.Follows fun a b => a.signals.Leads b.signals := by
  constructor <;> exact fun _ _ => .refl _

end Directory

/-- The file that a path leads to is that of a node. -/
theorem Tree.node?_of_follow {t : Tree} {links : Nat} {here names place : List String}
    {content : ByteArray} (h : t.follow links here names = .ok (.file place content)) :
    t.node? place = some (.file content) := by
  fun_induction Tree.follow t links here names with
  | case1 | case4 | case5 | case8 | case9 => cases h
  | case2 _ _ _ _ _ ih | case3 _ _ _ _ ih => exact ih h
  | case6 _ _ _ _ _ _ _ _ ih | case10 _ _ _ _ _ _ _ _ _ ih => exact ih h
  | case7 _ _ _ _ _ _ _ hnode =>
    cases h
    exact hnode

theorem Tree.mem_nodes_of_read {t : Tree} {base : List String} {path : String}
    {content : ByteArray} (h : t.read base path = .ok content) :
    ∃ place, (place, Node.file content) ∈ t.nodes := by
  have hfind : ∃ place, t.find base path = .ok (.file place content) := by
    unfold read at h
    split at h
    · next place _ hfind =>
      cases h
      exact ⟨place, hfind⟩
    · cases h
    · cases h
  obtain ⟨place, hfind⟩ := hfind
  have hnode : t.node? place = some (.file content) := by
    unfold find at hfind
    split at hfind
    · cases hfind
    · split at hfind
      · cases hfind
      · split at hfind <;> exact node?_of_follow hfind
  unfold node? at hnode
  split at hnode
  · cases hnode
  · obtain ⟨l₁, l₂, hnodes, -⟩ := List.lookup_eq_some_iff.1 hnode
    exact ⟨place, by simp [hnodes]⟩

namespace Directory

theorem mem_nodes_of_read {d : Directory} {path text : String} (h : d.read path = .ok text) :
    ∃ place content, (place, Node.file content) ∈ d.tree.nodes ∧
      Text.Utf8.decode content = .ok text := by
  unfold read readBytes at h
  cases hinner : resolve path with
  | error err => simp [hinner, bind, Except.bind] at h
  | ok inner =>
    cases hread : d.tree.read d.root inner with
    | error fault => cases fault <;> simp [hinner, hread, bind, Except.bind] at h
    | ok content =>
      obtain ⟨place, hmem⟩ := Tree.mem_nodes_of_read hread
      refine ⟨place, content, hmem, ?_⟩
      simp only [hinner, hread, bind, Except.bind] at h
      cases hdecode : Text.Utf8.decode content with
      | error fault => simp [hdecode, Except.mapError] at h
      | ok text' =>
        rw [hdecode] at h
        cases h
        rfl

/-- The text of each node that holds one. -/
def texts (d : Directory) : List String :=
  d.tree.nodes.filterMap fun node => match node.2 with
    | .file content => (Text.Utf8.decode content).toOption
    | _ => none

theorem reports (d : Directory) : source.Reports (· = d) d.report where
  still := by constructor <;> exact fun _ _ h => ⟨h, rfl⟩
  isFile path _ h := congrArg (·.isFile path) h
  isFolder path _ h := congrArg (·.isFolder path) h
  list path _ h := congrArg (·.list path) h
  read path _ h := congrArg (·.read path) h
  fingerprint path _ h := congrArg (·.fingerprint path) h
  watched _ _ _ := rfl
  bounded w h := by
    refine ⟨d.texts, ?_, fun path text hread => ?_⟩
    · rw [h]
      exact List.length_filterMap_le ..
    · obtain ⟨place, content, hmem, hdecode⟩ := mem_nodes_of_read hread
      exact List.mem_filterMap.2 ⟨_, hmem, by simp only [hdecode, Except.toOption]⟩

end Directory

namespace Files

def report : Files → Report
  | .memory m => m.report
  | .directory d => d.report

/-- The same files, of the same kind. -/
def Same : Files → Files → Prop
  | .memory m, .memory m' => m.Same m'
  | .directory d, .directory d' => d' = d
  | _, _ => False

theorem Same.refl (files : Files) : files.Same files := by
  cases files with
  | memory m => exact ⟨rfl, rfl⟩
  | directory d => rfl

section Act

variable {α : Type} {onMemory : Act Memory α} {onDirectory : Act Directory α}

/-- What an act does to files of each kind, it does to files. -/
theorem follows_act {R : Scene Files → Scene Files → Prop}
    (hmemory : onMemory.Follows fun a b =>
      R { a with world := .memory a.world } { b with world := .memory b.world })
    (hdirectory : onDirectory.Follows fun a b =>
      R { a with world := .directory a.world } { b with world := .directory b.world }) :
    (act onMemory onDirectory).Follows R := by
  rintro ⟨signals, journal, serial, m | d⟩
  · exact hmemory ⟨signals, journal, serial, m⟩
  · exact hdirectory ⟨signals, journal, serial, d⟩

variable (onMemory onDirectory) in
/-- Files of one kind are asked as that kind is. -/
theorem act_cases {files : Files} {scene : Scene Files} (h : files.Same scene.world) :
    (∃ m m', files = .memory m ∧ m.Same m' ∧ act onMemory onDirectory scene =
        ((onMemory { scene with world := m' }).1, { (onMemory { scene with world := m' }).2 with
          world := .memory (onMemory { scene with world := m' }).2.world })) ∨
      ∃ d, files = .directory d ∧ act onMemory onDirectory scene =
        ((onDirectory { scene with world := d }).1, { (onDirectory { scene with world := d }).2 with
          world := .directory (onDirectory { scene with world := d }).2.world }) := by
  cases files with
  | memory m =>
    cases hworld : scene.world with
    | memory m' =>
      rw [hworld] at h
      refine .inl ⟨m, m', rfl, h, ?_⟩
      unfold act
      rw [hworld]
      rfl
    | directory d => rw [hworld] at h; cases h
  | directory d =>
    cases hworld : scene.world with
    | memory m' => rw [hworld] at h; cases h
    | directory d' =>
      rw [hworld] at h
      cases h
      refine .inr ⟨d, rfl, ?_⟩
      unfold act
      rw [hworld]
      rfl

theorem follows_still (files : Files)
    (hmemory : ∀ m : Memory, onMemory.Follows (Scene.Still m.Same))
    (hdirectory : ∀ d : Directory, onDirectory.Follows (Scene.Still (· = d))) :
    (act onMemory onDirectory).Follows (Scene.Still files.Same) := by
  intro scene h
  rcases act_cases onMemory onDirectory h with
    ⟨m, m', rfl, hsame, heq⟩ | ⟨d, rfl, heq⟩
  · rw [heq]
    exact hmemory m { scene with world := m' } hsame
  · rw [heq]
    exact hdirectory d { scene with world := d } rfl

theorem fst_act {β : Type} {files : Files} {scene : Scene Files} (h : files.Same scene.world)
    (f : α → β) (a : Report → β) (hmemory : ∀ (m : Memory) (inner : Scene Memory),
      m.Same inner.world → f (onMemory inner).1 = a m.report)
    (hdirectory : ∀ (d : Directory) (inner : Scene Directory), inner.world = d →
      f (onDirectory inner).1 = a d.report) :
    f (act onMemory onDirectory scene).1 = a files.report := by
  rcases act_cases onMemory onDirectory h with
    ⟨m, m', rfl, hsame, heq⟩ | ⟨d, rfl, heq⟩
  · rw [heq]
    exact hmemory m { scene with world := m' } hsame
  · rw [heq]
    exact hdirectory d { scene with world := d } rfl

end Act

/-- Files lower no flag when they are looked at. -/
theorem leads_store : store.toSource.Follows fun a b => a.signals.Leads b.signals where
  isFile path :=
    follows_act (Memory.leads_source.isFile path) (Directory.leads_source.isFile path)
  isFolder path :=
    follows_act (Memory.leads_source.isFolder path) (Directory.leads_source.isFolder path)
  list path := follows_act (Memory.leads_source.list path) (Directory.leads_source.list path)
  read path := follows_act (Memory.leads_source.read path) (Directory.leads_source.read path)
  fingerprint path :=
    follows_act (Memory.leads_source.fingerprint path) (Directory.leads_source.fingerprint path)
  watch path := follows_act (Memory.leads_source.watch path) (Directory.leads_source.watch path)

/-- **Files report** what they hold, as long as nobody writes. -/
theorem reports (files : Files) : store.toSource.Reports files.Same files.report where
  still :=
    { isFile path := follows_still files (fun m => m.reports.still.isFile path)
        fun d => d.reports.still.isFile path
      isFolder path := follows_still files (fun m => m.reports.still.isFolder path)
        fun d => d.reports.still.isFolder path
      list path := follows_still files (fun m => m.reports.still.list path)
        fun d => d.reports.still.list path
      read path := follows_still files (fun m => m.reports.still.read path)
        fun d => d.reports.still.read path
      fingerprint path := follows_still files (fun m => m.reports.still.fingerprint path)
        fun d => d.reports.still.fingerprint path
      watch path := follows_still files (fun m => m.reports.still.watch path)
        fun d => d.reports.still.watch path }
  isFile path _ h := fst_act h id (fun r => r.isFile path) (fun m => m.reports.isFile path)
    fun d => d.reports.isFile path
  isFolder path _ h := fst_act h id (fun r => r.isFolder path) (fun m => m.reports.isFolder path)
    fun d => d.reports.isFolder path
  list path _ h := fst_act h id (fun r => r.list path) (fun m => m.reports.list path)
    fun d => d.reports.list path
  read path _ h := fst_act h id (fun r => r.read path) (fun m => m.reports.read path)
    fun d => d.reports.read path
  fingerprint path _ h := fst_act h id (fun r => r.fingerprint path)
    (fun m => m.reports.fingerprint path) fun d => d.reports.fingerprint path
  watched path _ h :=
    fst_act h (fun answer : Except StoreError (Option Token) => answer.toOption.join.isSome)
      (fun r => r.watched path) (fun m => m.reports.watched path) fun d => d.reports.watched path
  bounded w h := by
    cases files with
    | memory m =>
      cases w with
      | memory m' => exact m.reports.bounded m' h
      | directory _ => cases h
    | directory d =>
      cases w with
      | memory _ => cases h
      | directory d' => exact d.reports.bounded d' h

end Files

end Templating
