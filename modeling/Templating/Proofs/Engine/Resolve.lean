import Templating.Proofs.Engine.Groups

/-!
# Resolving what the files say

`Plain.resolve` is what the files alone answer to a request for a view. The engine's answer is the
same once the past is settled (`Begun.resolve`), and so are those to requests for a partial view,
for a path and for a group's partials. The engine gives itself more steps the more it has cached, so
the layouts have to be shown not to depend on that: no more of them can follow one another than
there are files (`Plain.follow_fuel`).
-/

namespace Templating

/-! ## Where names are looked for -/

/-- A path from the root of the files. No key of partials or pollers has one. -/
def Rooted (path : String) : Prop := Text.startsWith rootMark path = true

namespace Rooted

theorem append {a : String} (h : Rooted a) (b : String) : Rooted (a ++ b) := by
  unfold Rooted at h ⊢
  rw [Text.startsWith_iff] at h ⊢
  rw [String.toList_append]
  exact h.trans (List.prefix_append ..)

theorem root : Rooted rootMark := Text.startsWith_iff.2 List.prefix_rfl

/-- It starts with the root's mark and not with the word of partials. -/
theorem ne_config_append {path : String} (h : Rooted path) (rest : String) :
    path ≠ "config" ++ rest := by
  rintro rfl
  have hprefix := Text.startsWith_iff.1 h
  rw [String.toList_append] at hprefix
  exact absurd (List.cons_prefix_cons.1 hprefix).1 (by decide)

theorem ne_config {path : String} (h : Rooted path) : path ≠ "config" := by
  have hne := h.ne_config_append ""
  rwa [String.append_empty] at hne

theorem spared {path : String} (h : Rooted path) (H : Ledger) : H.Spared path :=
  fun _ _ => h.ne_config_append _

end Rooted

namespace FolderNames

variable (names : FolderNames) (g : Group)

theorem rooted_roots : ∀ root ∈ names.roots g, Rooted root := by
  intro root hroot
  unfold roots at hroot
  cases harea : g.area? with
  | none =>
    rw [harea] at hroot
    rw [List.mem_singleton.1 hroot]
    exact (Rooted.root.append _).append _
  | some area =>
    rw [harea] at hroot
    rcases List.mem_cons.1 hroot with rfl | hroot
    · exact (((((Rooted.root.append _).append _).append _).append _).append _).append _
    · rw [List.mem_singleton.1 hroot]
      exact (Rooted.root.append _).append _

theorem rooted_special (name : String) : ∀ folder ∈ names.special g name, Rooted folder := by
  intro folder hfolder
  obtain ⟨root, hroot, hmem⟩ := List.mem_flatMap.1 hfolder
  have hrooted := names.rooted_roots g root hroot
  rcases List.mem_cons.1 hmem with rfl | hmem
  · exact (((hrooted.append _).append _).append _).append _
  · rw [List.mem_singleton.1 hmem]
    exact (hrooted.append _).append _

theorem rooted_layoutFolders : ∀ folder ∈ names.layoutFolders g, Rooted folder :=
  names.rooted_special g names.layouts

theorem rooted_viewFolders : ∀ folder ∈ names.viewFolders g, Rooted folder := by
  intro folder hfolder
  obtain ⟨root, hroot, hmem⟩ := List.mem_flatMap.1 hfolder
  have hrooted := names.rooted_roots g root hroot
  rcases List.mem_append.1 hmem with hmem | hmem
  · rcases List.mem_append.1 hmem with hmem | hmem
    · rw [List.mem_singleton.1 hmem]
      exact (hrooted.append _).append _
    · split at hmem
      · cases hmem
      · rw [List.mem_singleton.1 hmem]
        exact (hrooted.append _).append _
  · split at hmem
    · rw [List.mem_singleton.1 hmem]
      exact hrooted
    · cases hmem

end FolderNames

theorem Engine.rooted_candidates {W : Type} (e : Engine W) (name : String) {folders : List String}
    (hfolders : ∀ folder ∈ folders, Rooted folder) :
    ∀ path ∈ e.candidates name folders, Rooted path := by
  intro path hpath
  unfold candidates at hpath
  split at hpath
  · next hname =>
    split at hpath
    · rw [List.mem_singleton.1 hpath]
      exact hname
    · cases hpath
  · obtain ⟨folder, hfolder, rfl⟩ := List.mem_map.1 hpath
    exact ((hfolders folder hfolder).append _).append _

/-! ## Chains of layouts -/

namespace Plain

theorem path_of_template {push : Bool} {files : List (String × String)}
    {library : Template.Library} {path : String} {t : Template.Compiled}
    (h : template push files library path = some t) : t.path ∈ files.map Prod.fst := by
  obtain ⟨source, hfile, hmade⟩ := Option.bind_eq_some_iff.1 h
  obtain ⟨render, -, rfl⟩ := Option.map_eq_some_iff.1 hmade
  exact List.mem_map_of_mem (f := Prod.fst) (mem_of_lookup hfile)

theorem search_eq_some {look : String → Option Template.Compiled} {paths searched : List String}
    {t : Template.Compiled} (h : (search look searched paths).1 = some t) :
    ∃ path ∈ paths, look path = some t := by
  induction paths generalizing searched with
  | nil => cases h
  | cons path paths ih =>
    unfold search at h
    cases hlook : look path with
    | none =>
      rw [hlook] at h
      obtain ⟨other, hmem, hother⟩ := ih h
      exact ⟨other, List.mem_cons_of_mem _ hmem, hother⟩
    | some template =>
      rw [hlook] at h
      cases h
      exact ⟨path, List.mem_cons_self, hlook⟩

/-- Layouts from files, no two of them with one path. -/
structure Chain (files : List (String × String)) (layouts : List Template.Compiled) : Prop where
  nodup : (layouts.map Template.Compiled.path).Nodup
  files : ∀ t ∈ layouts, t.path ∈ files.map Prod.fst

namespace Chain

variable {files : List (String × String)} {layouts : List Template.Compiled}

theorem nil : Chain files [] := ⟨List.nodup_nil, fun _ h => (by cases h)⟩

theorem length_le (h : Chain files layouts) : layouts.length ≤ files.length := by
  have hsub : layouts.map Template.Compiled.path ⊆ files.map Prod.fst := by
    intro path hpath
    obtain ⟨t, ht, rfl⟩ := List.mem_map.1 hpath
    exact h.files t ht
  have hlength := (h.nodup.subperm hsub).length_le
  rwa [List.length_map, List.length_map] at hlength

theorem snoc (h : Chain files layouts) {layout : Template.Compiled}
    (hlayout : layout.path ∈ files.map Prod.fst)
    (hnew : ¬layouts.any (·.path == layout.path) = true) : Chain files (layouts ++ [layout]) := by
  have hfresh : layout.path ∉ layouts.map Template.Compiled.path := by
    intro hmem
    obtain ⟨t, ht, heq⟩ := List.mem_map.1 hmem
    exact hnew (List.any_eq_true.2 ⟨t, ht, beq_iff_eq.2 heq⟩)
  constructor
  · rw [List.map_append]
    exact List.nodup_append'.2 ⟨h.nodup, List.nodup_singleton _, by simpa using hfresh⟩
  · intro t ht
    rcases List.mem_append.1 ht with ht | ht
    · exact h.files t ht
    · rw [List.mem_singleton.1 ht]
      exact hlayout

end Chain

/-- **How many steps are allowed does not matter**, if it is more than there are files. -/
theorem follow_fuel {push : Bool} {files : List (String × String)} {library : Template.Library}
    {paths : String → List String} {fuel fuel' : Nat} {view : Template.Compiled}
    {layouts : List Template.Compiled} {searched : List String} {next : Option String}
    (h : Chain files layouts) (hfuel : files.length < fuel + layouts.length)
    (hfuel' : files.length < fuel' + layouts.length) :
    follow (template push files library) paths fuel view layouts searched next =
      follow (template push files library) paths fuel' view layouts searched next := by
  have hbound := h.length_le
  induction fuel generalizing fuel' layouts searched next with
  | zero => omega
  | succ fuel ih =>
    obtain ⟨fuel', rfl⟩ : ∃ n, fuel' = n + 1 := ⟨fuel' - 1, by omega⟩
    cases next with
    | none => rfl
    | some name =>
      unfold follow
      generalize hsearch : search (template push files library) searched (paths name) = found
      obtain ⟨_ | layout, tried⟩ := found
      · rfl
      · simp only
        split
        · rfl
        · next hnew =>
          -- The next layout was not met before.
          obtain ⟨path, -, htemplate⟩ := search_eq_some (congrArg Prod.fst hsearch)
          have hlonger := h.snoc (path_of_template htemplate) hnew
          have hlength : (layouts ++ [layout]).length = layouts.length + 1 := List.length_append
          exact ih hlonger (by omega) (by omega) hlonger.length_le

/-! ## What the files answer -/

/-- A view with its layouts. -/
def resolve (e : Engine Memory) (push : Bool) (files : List (String × String)) (g : Group)
    (name : String) (layout : Option String) : Except ViewError Resolution :=
  match Engine.requireName "name" name with
  | .error err => .error err
  | .ok () =>
    let look := template push files (config e files g).library
    match search look [] (e.candidates name (e.options.folders.viewFolders g)) with
    | (none, searched) => .ok (.notFound searched)
    | (some view, searched) =>
      follow look (fun next => e.candidates next (e.options.folders.layoutFolders g))
        (files.length + 1) view [] searched ((layout.filter (· != "")).or view.layout)

/-- A view without layouts. -/
def resolvePartial (e : Engine Memory) (push : Bool) (files : List (String × String)) (g : Group)
    (name : String) : Except ViewError Resolution :=
  match Engine.requireName "name" name with
  | .error err => .error err
  | .ok () =>
    match search (template push files (config e files g).library) []
      (e.candidates name (e.options.folders.viewFolders g)) with
    | (none, searched) => .ok (.notFound searched)
    | (some view, _) => .ok (.found ⟨view, []⟩)

/-- The template at one path. -/
def resolvePath (e : Engine Memory) (push : Bool) (files : List (String × String)) (g : Group)
    (path : String) : Except ViewError (Option Template.Compiled) :=
  match Engine.requireName "path" path with
  | .error err => .error err
  | .ok () => .ok (template push files (config e files g).library path)

end Plain

/-! ## What the engine answers -/

namespace Ledger

variable {H : Ledger} {s s' : EngineSession} {g : Group} {c : GroupConfig}

/-- An operation keeps the session sound and the files as they are, and answers as said if the past
is settled. -/
structure Outcome {α : Type} (H : Ledger) (s : EngineSession) (answer : α)
    (r : α × EngineSession) : Prop where
  sound : H.Sound strict r.2 []
  calm : Memory.Calm s.scene r.2.scene
  answer : H.Settled → r.1 = answer

theorem Ready.outcome {α : Type} (h : H.Ready g c s) (answer : α) :
    H.Outcome s answer (answer, s) :=
  ⟨h.sound, .refl _, fun _ => rfl⟩

theorem Ready.search (h : H.Ready g c s) (hg : g.WellNamed) {paths : List String}
    (hpaths : ∀ path ∈ paths, Rooted path) (searched : List String) :
    let r := H.engine.search H.now g c searched paths s
    H.Ready g c r.2 ∧ H.Outcome s
      (Plain.search (Plain.template H.push s.scene.world.files c.library) searched paths) r := by
  induction paths generalizing s searched with
  | nil => exact ⟨h, h.outcome _⟩
  | cons path paths ih =>
    have hrooted := hpaths path List.mem_cons_self
    have hlookup := h.lookup hg (hrooted.spared H)
    have hready := hlookup.ready hrooted.ne_config
    have hanswer := hlookup.answer
    intro r
    have hr : r = (match H.engine.lookup H.now g c path s with
        | (some t, s') => ((some t, searched ++ [path]), s')
        | (none, s') => H.engine.search H.now g c (searched ++ [path]) paths s') := by
      change (H.engine.lookup H.now g c path >>= _) s = _
      rw [bind_apply]
      generalize H.engine.lookup H.now g c path s = found
      rcases found with ⟨_ | _, _⟩ <;> rfl
    rw [hr]
    have hcalm := hlookup.calm
    generalize H.engine.lookup H.now g c path s = found at hlookup hready hanswer hcalm ⊢
    obtain ⟨_ | t, s₁⟩ := found
    · obtain ⟨hlast, houtcome⟩ := ih hready (fun p hp => hpaths p (List.mem_cons_of_mem _ hp))
        (searched ++ [path])
      rw [hcalm.files] at houtcome
      refine ⟨hlast, hlast.sound, hcalm.trans houtcome.calm, ?_⟩
      intro hsettled
      rw [houtcome.answer hsettled, Plain.search, ← hanswer hsettled]
    · refine ⟨hready, hready.sound, hcalm, ?_⟩
      intro hsettled
      rw [Plain.search, ← hanswer hsettled]

/-- A request finds the same as the files, given the same number of steps. -/
theorem Ready.follow (h : H.Ready g c s) (hg : g.WellNamed) (fuel : Nat)
    (view : Template.Compiled) (layouts : List Template.Compiled) (searched : List String)
    (next : Option String) :
    H.Outcome s
      (Plain.follow (Plain.template H.push s.scene.world.files c.library)
        (fun name => H.engine.candidates name (H.engine.options.folders.layoutFolders g)) fuel view
        layouts searched next)
      (H.engine.follow H.now g c fuel view layouts searched next s) := by
  induction fuel generalizing s layouts searched next with
  | zero => cases next <;> exact h.outcome _
  | succ fuel ih =>
    cases next with
    | none => exact h.outcome _
    | some name =>
      have hrooted := H.engine.rooted_candidates name
        (H.engine.options.folders.rooted_layoutFolders g)
      obtain ⟨hready, -, hcalm, hanswer⟩ := h.search hg hrooted searched
      change H.Outcome s _ ((H.engine.search H.now g c searched (H.engine.candidates name
        (H.engine.options.folders.layoutFolders g)) >>= _) s)
      rw [bind_apply]
      unfold Plain.follow
      generalize H.engine.search H.now g c searched (H.engine.candidates name
        (H.engine.options.folders.layoutFolders g)) s = found at hready hcalm hanswer ⊢
      obtain ⟨⟨_ | layout, tried⟩, s₁⟩ := found
      · exact ⟨hready.sound, hcalm, fun hsettled => by rw [← hanswer hsettled]; rfl⟩
      · simp only
        cases hmet : layouts.any (·.path == layout.path) with
        | true =>
          refine ⟨hready.sound, hcalm, ?_⟩
          intro hsettled
          rw [← hanswer hsettled]
          simp only [hmet]
          rfl
        | false =>
          have hrest := ih hready (layouts ++ [layout]) tried layout.layout
          rw [hcalm.files] at hrest
          refine ⟨hrest.sound, hcalm.trans hrest.calm, ?_⟩
          intro hsettled
          rw [← hanswer hsettled]
          simp only [hmet]
          exact hrest.answer hsettled

/-- More steps are allowed than there are files. -/
theorem lt_chainBound (H : Ledger) (g : Group) (s : EngineSession) :
    s.scene.world.files.length < H.engine.chainBound g s := by
  have hfolders : 0 < (H.engine.options.folders.layoutFolders g).length :=
    List.length_pos_iff.2 (H.engine.options.folders.special_ne_nil g _)
  have hle := Nat.le_mul_of_pos_left s.scene.world.files.length hfolders
  have hcapacity : H.engine.source.capacity s.scene.world = s.scene.world.files.length := by
    rw [H.source]
    rfl
  unfold Engine.chainBound
  rw [hcapacity]
  omega

/-- A group's partials and the first of a view's files, as a request takes them. -/
theorem Begun.found (h : H.Begun s) (hg : g.WellNamed) (name : String) :
    let c := (H.engine.config H.now g s).1
    let paths := H.engine.candidates name (H.engine.options.folders.viewFolders g)
    let r := H.engine.search H.now g c [] paths (H.engine.config H.now g s).2
    H.Ready g c r.2 ∧ Memory.Calm s.scene r.2.scene ∧ (H.Settled →
      Plain.config H.engine s.scene.world.files g = c ∧
        Plain.search (Plain.template H.push s.scene.world.files c.library) [] paths = r.1) := by
  intro c paths r
  obtain ⟨hready, hcalm⟩ := h.config hg
  obtain ⟨hsearched, houtcome⟩ := hready.search hg
    (H.engine.rooted_candidates name (H.engine.options.folders.rooted_viewFolders g)) []
  have hright := hready.right
  rw [hcalm.files] at houtcome hright
  exact ⟨hsearched, hcalm.trans houtcome.calm,
    fun hsettled => ⟨(hright hsettled).symm, (houtcome.answer hsettled).symm⟩⟩

/-- **A request for a view.** -/
theorem Begun.resolve (h : H.Begun s) (hg : g.WellNamed) (name : String) (layout : Option String) :
    H.Outcome s (Plain.resolve H.engine H.push s.scene.world.files g name layout)
      (H.engine.resolve H.now g name layout s) := by
  unfold Engine.resolve Plain.resolve
  cases Engine.requireName "name" name with
  | error err => exact ⟨h.sound, .refl _, fun _ => rfl⟩
  | ok _ =>
    obtain ⟨hready, hcalm, hanswer⟩ := h.found hg name
    simp only
    rw [bind_apply]
    generalize H.engine.config H.now g s = configured at hready hcalm hanswer ⊢
    obtain ⟨c, s₁⟩ := configured
    simp only at hready hcalm hanswer ⊢
    rw [bind_apply]
    generalize H.engine.search H.now g c [] (H.engine.candidates name
      (H.engine.options.folders.viewFolders g)) s₁ = searched at hready hcalm hanswer ⊢
    obtain ⟨⟨_ | view, tried⟩, s₂⟩ := searched
    · refine ⟨hready.sound, hcalm, ?_⟩
      intro hsettled
      obtain ⟨hconfig, hsearch⟩ := hanswer hsettled
      rw [hconfig, hsearch]
      rfl
    · have hfollow := hready.follow hg (H.engine.chainBound g s₂) view [] tried
        ((layout.filter (· != "")).or view.layout)
      refine ⟨hfollow.sound, hcalm.trans hfollow.calm, ?_⟩
      intro hsettled
      obtain ⟨hconfig, hsearch⟩ := hanswer hsettled
      have hfuel := lt_chainBound H g s₂
      simp only at hfollow
      rw [hcalm.files] at hfollow hfuel
      rw [hconfig, hsearch]
      exact (hfollow.answer hsettled).trans (Plain.follow_fuel .nil hfuel (Nat.lt_succ_self _))

theorem Begun.resolvePartial (h : H.Begun s) (hg : g.WellNamed) (name : String) :
    H.Outcome s (Plain.resolvePartial H.engine H.push s.scene.world.files g name)
      (H.engine.resolvePartial H.now g name s) := by
  unfold Engine.resolvePartial Plain.resolvePartial
  cases Engine.requireName "name" name with
  | error err => exact ⟨h.sound, .refl _, fun _ => rfl⟩
  | ok _ =>
    obtain ⟨hready, hcalm, hanswer⟩ := h.found hg name
    simp only
    rw [bind_apply]
    generalize H.engine.config H.now g s = configured at hready hcalm hanswer ⊢
    obtain ⟨c, s₁⟩ := configured
    simp only at hready hcalm hanswer ⊢
    rw [bind_apply]
    generalize H.engine.search H.now g c [] (H.engine.candidates name
      (H.engine.options.folders.viewFolders g)) s₁ = searched at hready hcalm hanswer ⊢
    obtain ⟨⟨_ | view, tried⟩, s₂⟩ := searched <;>
    · refine ⟨hready.sound, hcalm, ?_⟩
      intro hsettled
      obtain ⟨hconfig, hsearch⟩ := hanswer hsettled
      rw [hconfig, hsearch]
      rfl

theorem Begun.resolvePath (h : H.Begun s) (hg : g.WellNamed) {path : String}
    (hpath : H.Spared path) :
    H.Outcome s (Plain.resolvePath H.engine H.push s.scene.world.files g path)
      (H.engine.resolvePath H.now g path s) := by
  unfold Engine.resolvePath Plain.resolvePath
  cases Engine.requireName "path" path with
  | error err => exact ⟨h.sound, .refl _, fun _ => rfl⟩
  | ok _ =>
    obtain ⟨hready, hcalm⟩ := h.config hg
    have hlookup := hready.lookup hg hpath
    simp only
    rw [bind_apply, bind_apply]
    refine ⟨hlookup.sound, hcalm.trans hlookup.calm, ?_⟩
    intro hsettled
    have hright := hready.right hsettled
    have hanswer := hlookup.answer hsettled
    rw [hcalm.files] at hright hanswer
    rw [← hright]
    exact congrArg Except.ok hanswer

theorem Begun.outcome_config (h : H.Begun s) (hg : g.WellNamed) :
    H.Outcome s (Plain.config H.engine s.scene.world.files g) (H.engine.config H.now g s) := by
  obtain ⟨hready, hcalm⟩ := h.config hg
  refine ⟨hready.sound, hcalm, ?_⟩
  intro hsettled
  rw [hready.right hsettled, hcalm.files]

end Ledger

/-! ## Registering -/

/-- To register a template is to be refused, or to drop what is cached and to go on with other
templates of the site. -/
theorem Engine.register_cases {W : Type} (e : Engine W) (now : Instant) (name source : String)
    (s : Session Entry (Poller W) W) :
    (∃ err, e.register now name source s = (.error err, s)) ∨
      ∃ site, e.register now name source s = (.ok { e with site }, (e.clear now s).2) := by
  unfold register
  cases requireName "name" name with
  | error err => exact .inl ⟨err, rfl⟩
  | ok _ =>
    cases e.site.register name source with
    | error err => exact .inl ⟨.template err, rfl⟩
    | ok site => exact .inr ⟨site, rfl⟩

end Templating
