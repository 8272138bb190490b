import Templating.Proofs.Engine.Reporting

/-!
# What becomes of partial files

Partial files are walked through in the order in which they are found. One whose name the site has,
or a file that was registered before, is ignored, and any other is read: it is registered if there
is a template in it, and otherwise it has failed (`Report.fates`). All that is gathered can be told
from what became of each file (`Gathering.Has.walk`, `Report.yields`). A file that failed leaves its
name free, so that the walk goes on without it as it goes with it (`Report.fates_filter`).
-/

namespace Templating

open Template (Library)

/-! ## The walk -/

/-- What becomes of a partial file. -/
inductive Fate
  | ignored
  | registered (nodes : List Template.Node)
  | failed

namespace Report

variable (r : Report) (extension : String) (site : Library)

/-- The template in a file, if it can be read and is well formed. -/
def nodes? (path : String) : Option (List Template.Node) :=
  (r.read path).toOption.bind Template.Node.ofSource?

/-- Some files with what becomes of each, if those before them were registered under `names`. -/
def fates : (names : List String) → (paths : List String) → List (String × Fate)
  | _, [] => []
  | names, path :: paths =>
    let name := partialName extension path
    if site.has name = true ∨ name ∈ names then (path, .ignored) :: fates names paths
    else
      match r.nodes? path with
      | some nodes => (path, .registered nodes) :: fates (names ++ [name]) paths
      | none => (path, .failed) :: fates names paths

end Report

namespace Fate

variable (extension : String)

/-- The files that are ignored. -/
def ignoredFiles (walked : List (String × Fate)) : List String :=
  walked.filterMap fun
    | (path, .ignored) => some path
    | _ => none

/-- The files that are read. -/
def readFiles (walked : List (String × Fate)) : List String :=
  walked.filterMap fun
    | (_, .ignored) => none
    | (path, _) => some path

/-- The templates that are registered, with their names. -/
def templates (walked : List (String × Fate)) : List (String × List Template.Node) :=
  walked.filterMap fun
    | (path, .registered nodes) => some (partialName extension path, nodes)
    | _ => none

end Fate

namespace Report

variable {r : Report} {extension : String} {site : Library} {names paths : List String}

theorem map_fst_fates : (r.fates extension site names paths).map Prod.fst = paths := by
  fun_induction fates with
  | case1 => rfl
  | case2 _ _ _ _ _ ih | case3 _ _ _ _ _ _ _ ih | case4 _ _ _ _ _ _ ih =>
    exact congrArg (_ :: ·) ih

/-- No name is registered twice, and none that was registered before or is one of the site's. -/
theorem nodup_templates :
    let rows := Fate.templates extension (r.fates extension site names paths)
    (rows.map Prod.fst).Nodup ∧
      ∀ name ∈ rows.map Prod.fst, site.has name = false ∧ name ∉ names := by
  fun_induction fates with
  | case1 => exact ⟨List.nodup_nil, List.forall_mem_nil _⟩
  | case2 _ _ _ _ _ ih | case4 _ _ _ _ _ _ ih => exact ih
  | case3 names path paths name hfree nodes _ ih =>
    obtain ⟨hnodup, hfresh⟩ := ih
    obtain ⟨hsite, hnames⟩ := not_or.1 hfree
    refine ⟨List.nodup_cons.2 ⟨fun hmem => ?_, hnodup⟩, List.forall_mem_cons.2
      ⟨⟨Bool.not_eq_true _ ▸ hsite, hnames⟩, fun other hmem => ?_⟩⟩
    · exact (hfresh _ hmem).2 (List.mem_append_right _ (List.mem_singleton_self _))
    · obtain ⟨hother, hnew⟩ := hfresh other hmem
      exact ⟨hother, fun h => hnew (List.mem_append_left _ h)⟩

/-- **The first file counts that is well formed**, for a name that is still free. -/
theorem lookup_templates {name : String} (hsite : site.has name = false) (hfree : name ∉ names) :
    (Fate.templates extension (r.fates extension site names paths)).lookup name =
      (paths.filter (partialName extension · = name)).findSome? r.nodes? := by
  fun_induction fates with
  | case1 => rfl
  | case2 names path paths taken htaken ih =>
    have hne : partialName extension path ≠ name := by
      rintro rfl
      rw [hsite] at htaken
      exact htaken.elim (Bool.false_ne_true ·) hfree
    rw [List.filter_cons_of_neg (by simpa using hne), ← ih hfree]
    rfl
  | case3 names path paths other _ nodes hnodes ih =>
    change List.lookup name ((other, nodes) :: Fate.templates _ _) = _
    rw [lookup_cons_key]
    by_cases heq : name = other
    · rw [if_pos heq, List.filter_cons_of_pos (by simpa using heq.symm), List.findSome?_cons,
        hnodes]
    · have hfree' : name ∉ names ++ [other] := by simp [hfree, heq]
      rw [if_neg heq, List.filter_cons_of_neg (by simpa using Ne.symm heq), ← ih hfree']
  | case4 names path paths other _ hnodes ih =>
    change List.lookup name (Fate.templates extension (r.fates extension site names paths)) = _
    rw [ih hfree, List.filter_cons]
    split
    · rw [List.findSome?_cons, hnodes]
    · rfl

/-- A file whose name is free is registered if it is well formed. -/
theorem add_of_not_has {g : Gathering} {path : String}
    (h : ¬g.library.has (partialName extension path) = true) :
    r.add extension g path = g.withPartial (partialName extension path) path none
      ((r.nodes? path).map fun nodes => { g.library with
        templates := g.library.templates.put (partialName extension path) nodes }) := by
  unfold add nodes?
  rw [if_neg h]
  congr 1
  cases r.read path with
  | error _ => rfl
  | ok source =>
    simp only [Library.register, Except.toOption, Option.bind_some]
    cases Template.Node.ofSource? source <;> rfl

end Report

/-! ## What is gathered on it -/

/-- What has been gathered: templates beside those of the site, files that were ignored, and files
that were read. -/
structure Gathering.Has (g : Gathering) (site : Library)
    (rows : List (String × List Template.Node)) (ignored attempted : List String) : Prop where
  partials : g.partials = rows.map Prod.fst
  ignored : g.ignored = ignored
  attempted : g.attempted = attempted
  templates : ∀ name, g.library.templates.get? name =
    if site.has name = true then site.templates.get? name else rows.lookup name
  globals : g.library.globals = site.globals

/-- Nothing has been gathered beside the site. -/
theorem Gathering.Has.start (site : Library) :
    ({ library := site, tokens := [] } : Gathering).Has site [] [] [] := by
  refine ⟨rfl, rfl, rfl, fun name => ?_, rfl⟩
  split
  · rfl
  · next h =>
    unfold Library.has Table.contains at h
    simpa using h

namespace Gathering.Has

variable {r : Report} {extension : String} {site : Library} {g : Gathering} {path : String}
  {rows : List (String × List Template.Node)} {ignored attempted : List String}
  (h : g.Has site rows ignored attempted)

include h

/-- A name is taken by the site or by a file that was registered before. -/
theorem has_iff (name : String) :
    g.library.has name = true ↔ site.has name = true ∨ name ∈ rows.map Prod.fst := by
  have hrows : (rows.lookup name).isSome = true ↔ name ∈ rows.map Prod.fst := by
    rw [← not_iff_not, ← lookup_eq_none, Bool.not_eq_true, Option.isSome_eq_false_iff,
      Option.isNone_iff_eq_none]
  unfold Library.has Table.contains
  rw [h.templates]
  split
  · next hsite => exact iff_of_true hsite (.inl hsite)
  · next hsite =>
    rw [hrows]
    exact (or_iff_right hsite).symm

theorem ignore (htaken : site.has (partialName extension path) = true ∨
      partialName extension path ∈ rows.map Prod.fst) :
    (r.add extension g path).Has site rows (ignored ++ [path]) attempted := by
  unfold Report.add
  rw [if_pos ((h.has_iff _).2 htaken)]
  exact ⟨h.partials, congrArg (· ++ [path]) h.ignored, h.attempted, h.templates, h.globals⟩

variable (hfree : ¬(site.has (partialName extension path) = true ∨
  partialName extension path ∈ rows.map Prod.fst))

include hfree

theorem fail (hnodes : r.nodes? path = none) :
    (r.add extension g path).Has site rows ignored (attempted ++ [path]) := by
  rw [Report.add_of_not_has ((h.has_iff _).not.2 hfree), hnodes]
  exact ⟨h.partials, h.ignored, congrArg (· ++ [path]) h.attempted, h.templates, h.globals⟩

theorem register {nodes : List Template.Node} (hnodes : r.nodes? path = some nodes) :
    (r.add extension g path).Has site (rows ++ [(partialName extension path, nodes)]) ignored
      (attempted ++ [path]) := by
  rw [Report.add_of_not_has ((h.has_iff _).not.2 hfree), hnodes]
  refine ⟨?_, h.ignored, congrArg (· ++ [path]) h.attempted, fun name => ?_, h.globals⟩
  · rw [List.map_append, ← h.partials]
    rfl
  · change (g.library.templates.put _ nodes).get? name = _
    obtain ⟨hsite, hrows⟩ := not_or.1 hfree
    rw [Table.get?_put, h.templates, List.lookup_append]
    by_cases hname : name = partialName extension path
    · rw [if_pos hname, hname, if_neg hsite, lookup_eq_none.2 hrows]
      simp
    · rw [if_neg hname, lookup_cons_key, if_neg hname, List.lookup_nil, Option.or_none]

omit hfree

/-- **The walk** gathers what becomes of each file. -/
theorem walk (paths : List String) :
    let walked := r.fates extension site (rows.map Prod.fst) paths
    (paths.foldl (r.add extension) g).Has site (rows ++ Fate.templates extension walked)
      (ignored ++ Fate.ignoredFiles walked) (attempted ++ Fate.readFiles walked) := by
  induction paths generalizing g rows ignored attempted with
  | nil =>
    simpa [Report.fates, Fate.templates, Fate.ignoredFiles, Fate.readFiles] using h
  | cons path paths ih =>
    by_cases htaken : site.has (partialName extension path) = true ∨
        partialName extension path ∈ rows.map Prod.fst
    · have hstep : (r.add extension g path).Has site rows (ignored ++ [path]) attempted :=
        h.ignore htaken
      have hlast := ih hstep
      simp only [List.append_assoc] at hlast
      rw [Report.fates, if_pos htaken]
      exact hlast
    · cases hnodes : r.nodes? path with
      | none =>
        have hlast := ih (h.fail htaken hnodes)
        simp only [List.append_assoc] at hlast
        simp only [Report.fates, if_neg htaken, hnodes]
        exact hlast
      | some nodes =>
        have hlast := ih (h.register htaken hnodes)
        simp only [List.append_assoc, List.map_append] at hlast
        simp only [Report.fates, if_neg htaken, hnodes]
        exact hlast

end Gathering.Has

/-- What a group's partials are when these files were walked through. -/
structure Report.Yields (r : Report) (extension : String) (site : Library) (paths : List String)
    (c : GroupConfig) : Prop where
  /-- They are called as they were registered, in this order. -/
  partials : c.partials =
    (Fate.templates extension (r.fates extension site [] paths)).map Prod.fst
  nodup : c.partials.Nodup
  ignored : c.ignored = Fate.ignoredFiles (r.fates extension site [] paths)
  /-- Templates of the site stay. -/
  kept : ∀ name, site.has name = true → c.library.templates.get? name = site.templates.get? name
  /-- For any other name the first file counts that is well formed. -/
  first : ∀ name, site.has name = false → c.library.templates.get? name =
    (paths.filter (partialName extension · = name)).findSome? r.nodes?
  globals : c.library.globals = site.globals

/-- **What is gathered** from some files. -/
theorem Report.yields (r : Report) (extension : String) (site : Library) (paths : List String) :
    let found := paths.foldl (r.add extension) { library := site, tokens := [] }
    r.Yields extension site paths found.config ∧
      found.attempted = Fate.readFiles (r.fates extension site [] paths) := by
  intro found
  have hfound : found.Has site _ _ _ := (Gathering.Has.start site).walk paths
  have hfree : ∀ name, name ∉ ([] : List String) := fun _ => List.not_mem_nil
  refine ⟨⟨hfound.partials, ?_, hfound.ignored, fun name hsite => ?_, fun name hsite => ?_,
    hfound.globals⟩, hfound.attempted⟩
  · rw [show found.config.partials = _ from hfound.partials]
    exact Report.nodup_templates.1
  · exact (hfound.templates name).trans (if_pos hsite)
  · rw [← Report.lookup_templates hsite (hfree name)]
    exact (hfound.templates name).trans (if_neg (by rw [hsite]; exact Bool.false_ne_true))

/-! ## Without files that failed -/

namespace Report

variable {r r' : Report} {extension : String} {site : Library} {names paths : List String}

/-- A file that is read is registered if there is a template in it, and fails otherwise. -/
theorem nodes_of_mem_fates {path : String} {fate : Fate}
    (h : (path, fate) ∈ r.fates extension site names paths) :
    (∀ nodes, fate = .registered nodes → r.nodes? path = some nodes) ∧
      (fate = .failed → r.nodes? path = none) := by
  fun_induction fates with
  | case1 => cases h
  | case2 names other paths name htaken ih =>
    rcases List.mem_cons.1 h with heq | h
    · cases heq
      exact ⟨nofun, nofun⟩
    · exact ih h
  | case3 names other paths name hfree nodes hnodes ih =>
    rcases List.mem_cons.1 h with heq | h
    · cases heq
      refine ⟨?_, nofun⟩
      rintro _ ⟨⟩
      exact hnodes
    · exact ih h
  | case4 names other paths name hfree hnodes ih =>
    rcases List.mem_cons.1 h with heq | h
    · cases heq
      exact ⟨nofun, fun _ => hnodes⟩
    · exact ih h

/-- Only files that failed are left out, and others that are read have the same template. -/
def Spares (r r' : Report) (keep : String → Bool) (row : String × Fate) : Prop :=
  (keep row.1 = false → row.2 = .failed) ∧
    (keep row.1 = true → row.2 ≠ .ignored → r'.nodes? row.1 = r.nodes? row.1)

/-- **Files that failed leave no trace**: without some of them the walk goes on as it went. -/
theorem fates_filter {keep : String → Bool}
    (h : ∀ row ∈ r.fates extension site names paths, r.Spares r' keep row) :
    r'.fates extension site names (paths.filter keep) =
      (r.fates extension site names paths).filter (keep ∘ Prod.fst) := by
  fun_induction fates r extension site names paths with
  | case1 => rfl
  | case2 names path paths name htaken ih =>
    obtain ⟨⟨hdropped, -⟩, hrest⟩ := List.forall_mem_cons.1 h
    have hkeep : keep path = true := by
      by_contra hnot
      cases hdropped (Bool.not_eq_true _ ▸ hnot)
    simp only [List.filter_cons, Function.comp, hkeep, if_true]
    rw [fates, if_pos htaken, ih hrest]
  | case3 names path paths name hfree nodes hnodes ih =>
    obtain ⟨⟨hdropped, hkept⟩, hrest⟩ := List.forall_mem_cons.1 h
    have hkeep : keep path = true := by
      by_contra hnot
      cases hdropped (Bool.not_eq_true _ ▸ hnot)
    have hnodes' : r'.nodes? path = some nodes := (hkept hkeep nofun).trans hnodes
    simp only [List.filter_cons, Function.comp, hkeep, if_true, fates, hnodes']
    rw [if_neg hfree, ih hrest]
  | case4 names path paths name hfree hnodes ih =>
    obtain ⟨⟨-, hkept⟩, hrest⟩ := List.forall_mem_cons.1 h
    by_cases hkeep : keep path = true
    · have hnodes' : r'.nodes? path = none := (hkept hkeep nofun).trans hnodes
      simp only [List.filter_cons, Function.comp, hkeep, if_true, fates, hnodes']
      rw [if_neg hfree, ih hrest]
    · simp only [List.filter_cons, Function.comp, hkeep]
      exact ih hrest

end Report

/-- Templates are registered one after the other. -/
def Template.Library.withTemplates (l : Library) (rows : List (String × List Template.Node)) :
    Library :=
  rows.foldl (fun l row => { l with templates := l.templates.put row.1 row.2 }) l

namespace Gathering.Has

variable {r : Report} {extension : String} {site : Library} {g : Gathering}
  {rows : List (String × List Template.Node)} {ignored attempted : List String}

/-- The library is made by registering what the walk finds, in its order. -/
theorem library_walk (h : g.Has site rows ignored attempted) (paths : List String) :
    (paths.foldl (r.add extension) g).library = g.library.withTemplates
      (Fate.templates extension (r.fates extension site (rows.map Prod.fst) paths)) := by
  induction paths generalizing g rows ignored attempted with
  | nil => rfl
  | cons path paths ih =>
    by_cases htaken : site.has (partialName extension path) = true ∨
        partialName extension path ∈ rows.map Prod.fst
    · have hlibrary : (r.add extension g path).library = g.library := by
        rw [Report.add, if_pos ((h.has_iff _).2 htaken)]
      rw [List.foldl_cons, ih (h.ignore htaken), Report.fates, if_pos htaken, hlibrary]
      rfl
    · have hadd : (r.add extension g path).library = _ :=
        congrArg Gathering.library (Report.add_of_not_has ((h.has_iff _).not.2 htaken))
      cases hnodes : r.nodes? path with
      | none =>
        rw [hnodes] at hadd
        rw [List.foldl_cons, ih (h.fail htaken hnodes), hadd]
        simp only [Report.fates, if_neg htaken, hnodes]
        rfl
      | some nodes =>
        rw [hnodes] at hadd
        rw [List.foldl_cons, ih (h.register htaken hnodes), hadd]
        simp only [Report.fates, if_neg htaken, hnodes, List.map_append]
        rfl

end Gathering.Has

end Templating
