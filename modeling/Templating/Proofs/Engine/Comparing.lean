import Mathlib.Data.List.Perm.Subperm
import Mathlib.Data.Set.Function
import Templating.Proofs.Cache.Upkeep
import Templating.Proofs.Engine.Fates

/-!
# What a snapshot tells

A snapshot has the digests of the files that were read and the list of those that were ignored. It
says nothing of the order of files, nor of what became of those that were read, and it is compared
with the folders by counting (`Source.Reports.of_isUnchanged`).

It tells enough all the same. As many files as there were and none that does not fit are the same
files, for no file is found twice (`Report.Tells.nodup_scan`). What is found again is found in the
same order (`Report.Tells.scan_eq_filter`), and it has the same text if it has the same digest. The
files without a digest can be missed by the count, and if none of them was registered they are files
that failed and leave no trace. So the walk is the one that was made, but for some of those
(`Report.walk_of_fits`), and it comes to the same partials (`Report.config_of_fits`).
-/

namespace Templating

open Template (Library)

theorem length_eraseDups {l : List String} (h : l.Nodup) : l.eraseDups.length = l.length :=
  ((List.perm_ext_iff_of_nodup (Cache.nodup_eraseDups l) h).2 fun _ => List.mem_eraseDups).length_eq

theorem perm_of_subset {l l' : List String} (h : l.Nodup) (hsub : l ⊆ l')
    (hlength : l.length = l'.length) : l.Perm l' :=
  (List.subperm_of_subset h hsub).perm_of_length_le (Nat.le_of_eq hlength.symm)

/-! ## Comparing with a report -/

namespace Snapshot

/-- How many of some paths have a digest in the snapshot. -/
def known (snap : Snapshot) (paths : List String) : List String :=
  paths.filter fun path => (snap.fingerprints.lookup path).isSome

def unknown (snap : Snapshot) (paths : List String) : List String :=
  paths.filter fun path => !(snap.fingerprints.lookup path).isSome

theorem known_cons (snap : Snapshot) (path : String) (paths : List String) :
    snap.known (path :: paths) =
      if (snap.fingerprints.lookup path).isSome then path :: snap.known paths
      else snap.known paths :=
  List.filter_cons

theorem unknown_cons (snap : Snapshot) (path : String) (paths : List String) :
    snap.unknown (path :: paths) =
      if !(snap.fingerprints.lookup path).isSome then path :: snap.unknown paths
      else snap.unknown paths :=
  List.filter_cons

/-- Files found later fit a snapshot: those with a fingerprint still have it, and the others were
ignored. -/
def Fits (snap : Snapshot) (r : Report) (paths : List String) : Prop :=
  ∀ path ∈ paths,
    (∀ fingerprint, snap.fingerprints.lookup path = some fingerprint →
      r.fingerprint path = .ok fingerprint) ∧
    (snap.fingerprints.lookup path = none → path ∈ snap.ignored)

theorem Fits.cons {snap : Snapshot} {r : Report} {path : String} {paths : List String}
    (h : snap.Fits r paths)
    (hknown : ∀ fingerprint, snap.fingerprints.lookup path = some fingerprint →
      r.fingerprint path = .ok fingerprint)
    (hunknown : snap.fingerprints.lookup path = none → path ∈ snap.ignored) :
    snap.Fits r (path :: paths) :=
  List.forall_mem_cons.2 ⟨⟨hknown, hunknown⟩, h⟩

end Snapshot

namespace Source.Reports

variable {W : Type} {s : Source W} {Q : W → Prop} {r : Report} (h : s.Reports Q r)
  {extension : String} {scene : Scene W} {snap : Snapshot}

include h

theorem compare_eq_some {paths : List String} {known ignored k i : Nat} (hQ : Q scene.world)
    (hcount : (snap.compare s known ignored paths scene).1 = some (k, i)) :
    k = known + (snap.known paths).length ∧ i = ignored + (snap.unknown paths).length ∧
      snap.Fits r paths := by
  induction paths generalizing known ignored scene with
  | nil =>
    cases hcount
    exact ⟨rfl, rfl, List.forall_mem_nil _⟩
  | cons path paths ih =>
    rw [Snapshot.known_cons, Snapshot.unknown_cons]
    unfold Snapshot.compare at hcount
    cases hlookup : snap.fingerprints.lookup path with
    | some expected =>
      have hanswer := h.fingerprint path scene hQ
      have hstill := (h.still.fingerprint path scene hQ).1
      simp only [hlookup, bind_apply, hanswer] at hcount
      cases hfingerprint : r.fingerprint path with
      | error err =>
        simp only [hfingerprint] at hcount
        cases hcount
      | ok current =>
        simp only [hfingerprint] at hcount
        split at hcount
        · next hsame =>
          obtain ⟨hk, hi, hfits⟩ := ih hstill hcount
          refine ⟨?_, hi, hfits.cons ?_ ?_⟩
          · simp only [Option.isSome_some, if_true, List.length_cons]
            omega
          · intro fingerprint hfingerprint'
            cases hlookup.symm.trans hfingerprint'
            rw [hfingerprint, hsame]
          · intro hnone
            cases hlookup.symm.trans hnone
        · cases hcount
    | none =>
      simp only [hlookup] at hcount
      split at hcount
      · next hmem =>
        obtain ⟨hk, hi, hfits⟩ := ih hQ hcount
        refine ⟨hk, ?_, hfits.cons ?_ fun _ => List.contains_iff_mem.1 hmem⟩
        · simp only [Option.isSome_none, Bool.not_false, if_true, List.length_cons]
          omega
        · intro fingerprint hfingerprint
          cases hlookup.symm.trans hfingerprint
      · cases hcount

/-- **Folders that are found as they were** hold as many files with a fingerprint and as many
others as the snapshot, and these fit it. -/
theorem of_isUnchanged (hQ : Q scene.world)
    (hsame : (snap.isUnchanged s extension scene).1 = true) :
    let paths := r.scan extension snap.folders
    (snap.known paths).length = snap.fingerprints.length ∧
      (snap.unknown paths).length = snap.ignored.length ∧ snap.Fits r paths := by
  intro paths
  unfold Snapshot.isUnchanged at hsame
  rw [bind_apply, bind_apply] at hsame
  have hscan : (Templating.scanPartials s extension snap.folders scene).1 = paths :=
    h.scanPartials hQ snap.folders
  have hstill := (h.still.scanPartials (Scene.course_still Q) extension snap.folders scene hQ).1
  rw [hscan] at hsame
  obtain ⟨hk, hi, hfits⟩ := h.compare_eq_some hstill (beq_iff_eq.1 hsame)
  rw [Nat.zero_add] at hk hi
  exact ⟨hk.symm, hi.symm, hfits⟩

end Source.Reports

/-! ## What a build leaves behind -/

namespace Report

variable (r : Report) (extension : String) (site : Library) (folders : List String)

/-- What becomes of the partial files in some folders. -/
def walk : List (String × Fate) := r.fates extension site [] (r.scan extension folders)

/-- The fingerprints of files, as far as they can be had. -/
def fingerprints (paths : List String) : List (String × String) :=
  paths.filterMap fun path => (r.fingerprint path).toOption.map (path, ·)

/-- The snapshot of a build. -/
def snapshot (key : String) : Snapshot where
  folders
  fingerprints :=
    Sorted.ofList (r.fingerprints (Fate.readFiles (r.walk extension site folders)))
  ignored := (Fate.ignoredFiles (r.walk extension site folders)).eraseDups
  configKey := key

/-- The files that are registered, with the texts that are read. -/
def sources : List (String × String) :=
  (r.walk extension site folders).filterMap fun
    | (path, .registered _) => (r.read path).toOption.map (path, ·)
    | _ => none

variable {r extension site folders}

theorem map_fst_fingerprints (paths : List String) :
    (r.fingerprints paths).map Prod.fst =
      paths.filter fun path => (r.fingerprint path).toOption.isSome := by
  induction paths with
  | nil => rfl
  | cons path paths ih =>
    unfold fingerprints at ih ⊢
    rw [List.filterMap_cons, List.filter_cons]
    cases (r.fingerprint path).toOption with
    | none => exact ih
    | some fingerprint => exact congrArg (path :: ·) ih

theorem lookup_fingerprints (paths : List String) (path : String) :
    (r.fingerprints paths).lookup path =
      if path ∈ paths then (r.fingerprint path).toOption else none := by
  induction paths with
  | nil => rfl
  | cons first paths ih =>
    unfold fingerprints at ih ⊢
    rw [List.filterMap_cons]
    by_cases heq : path = first
    · subst heq
      rw [if_pos List.mem_cons_self]
      cases hfingerprint : (r.fingerprint path).toOption with
      | none =>
        rw [hfingerprint, ite_self] at ih
        exact ih
      | some fingerprint =>
        exact (lookup_cons_key ..).trans (if_pos rfl)
    · simp only [List.mem_cons, heq, false_or]
      rw [← ih]
      cases (r.fingerprint first).toOption with
      | none => rfl
      | some fingerprint => exact (lookup_cons_key ..).trans (if_neg heq)

end Report

/-! ## Files that are told of -/

/-- What a report tells of the files that are kept: those directly in a folder, each once and in an
order that does not depend on them, what they hold, as far as there is a fingerprint to be had, and
what text that is. -/
structure Report.Tells {β : Type} (r : Report) (order : String → String → Prop)
    (digest : β → String) (text? : β → Option String) (content? : String → Option β) : Prop where
  ordered : ∀ folder, (r.list folder).Pairwise order
  direct : ∀ folder, ∀ path ∈ r.list folder, Memory.isDirectChild (asFolder folder) path = true
  fingerprint : ∀ path fingerprint, r.fingerprint path = .ok fingerprint →
    ∃ content, content? path = some content ∧ digest content = fingerprint
  read : ∀ path content, content? path = some content → (r.read path).toOption = text? content

namespace Report

variable {β : Type} {r r' : Report} {order : String → String → Prop} {digest : β → String}
  {text? : β → Option String} {content? content'? : String → Option β} {extension : String}
  {folders : List String} {site : Library} {key : String}

/-- The partial files in one folder. -/
def slice (r : Report) (extension folder : String) : List String :=
  (if r.isFolder folder then r.list folder else []).filter (hasExtension extension)

theorem mem_scan {path : String} :
    path ∈ r.scan extension folders ↔ ∃ folder ∈ folders, path ∈ r.slice extension folder :=
  List.mem_flatMap

namespace Tells

variable (h : r.Tells order digest text? content?)

include h

theorem pairwise_slice (folder : String) : (r.slice extension folder).Pairwise order := by
  refine List.Pairwise.filter _ ?_
  split
  · exact h.ordered folder
  · exact .nil

theorem isDirectChild_of_mem_slice {folder path : String} (hfolder : EndsInSlash folder)
    (hmem : path ∈ r.slice extension folder) : Memory.isDirectChild folder path = true := by
  have hlisted := (List.mem_filter.1 hmem).1
  split at hlisted
  · rw [← asFolder_of_endsInSlash hfolder]
    exact h.direct folder path hlisted
  · cases hlisted

/-- A file is found in the folder in which it lies. -/
theorem mem_slice_iff (hslash : ∀ folder ∈ folders, EndsInSlash folder) {folder path : String}
    (hfolder : folder ∈ folders) :
    path ∈ r.slice extension folder ↔
      path ∈ r.scan extension folders ∧ Memory.isDirectChild folder path = true := by
  constructor
  · exact fun hmem =>
      ⟨mem_scan.2 ⟨folder, hfolder, hmem⟩,
        h.isDirectChild_of_mem_slice (hslash folder hfolder) hmem⟩
  · rintro ⟨hmem, hchild⟩
    obtain ⟨other, hother, hmem⟩ := mem_scan.1 hmem
    rw [folder_unique (hslash folder hfolder) (hslash other hother) hchild
      (h.isDirectChild_of_mem_slice (hslash other hother) hmem)]
    exact hmem

variable (horder : ∀ a b, order a b → ¬order b a)

include horder

theorem nodup_slice (folder : String) : (r.slice extension folder).Nodup :=
  (h.pairwise_slice folder).imp fun {a b} hab heq => by
    subst heq
    exact horder a a hab hab

/-- No file is scanned twice. -/
theorem nodup_scan (hslash : ∀ folder ∈ folders, EndsInSlash folder) (hnodup : folders.Nodup) :
    (r.scan extension folders).Nodup := by
  refine List.nodup_flatMap.2 ⟨fun folder _ => h.nodup_slice horder folder, ?_⟩
  refine hnodup.imp_of_mem fun {folder folder'} hfolder hfolder' hne path hmem hmem' => hne ?_
  exact folder_unique (hslash folder hfolder) (hslash folder' hfolder')
    (h.isDirectChild_of_mem_slice (hslash folder hfolder) hmem)
    (h.isDirectChild_of_mem_slice (hslash folder' hfolder') hmem')

/-- **Files that are found again** are found in the order in which they were. -/
theorem scan_eq_filter (h' : r'.Tells order digest text? content'?)
    (hslash : ∀ folder ∈ folders, EndsInSlash folder)
    (hsubset : r'.scan extension folders ⊆ r.scan extension folders) :
    r'.scan extension folders =
      (r.scan extension folders).filter (· ∈ r'.scan extension folders) := by
  have hslice : ∀ folder ∈ folders, r'.slice extension folder =
      (r.slice extension folder).filter (· ∈ r'.scan extension folders) := by
    intro folder hfolder
    have hperm : (r'.slice extension folder).Perm
        ((r.slice extension folder).filter (· ∈ r'.scan extension folders)) := by
      refine (List.perm_ext_iff_of_nodup (h'.nodup_slice horder folder)
        ((h.nodup_slice horder folder).filter _)).2 fun path => ?_
      rw [List.mem_filter, decide_eq_true_iff, h'.mem_slice_iff hslash hfolder,
        h.mem_slice_iff hslash hfolder]
      exact ⟨fun ⟨hmem, hchild⟩ => ⟨⟨hsubset hmem, hchild⟩, hmem⟩,
        fun ⟨⟨_, hchild⟩, hmem⟩ => ⟨hmem, hchild⟩⟩
    exact hperm.eq_of_pairwise (fun a b _ _ hab hba => absurd hba (horder a b hab))
      (h'.pairwise_slice folder) ((h.pairwise_slice folder).filter _)
  change folders.flatMap (r'.slice extension) = (folders.flatMap (r.slice extension)).filter _
  rw [List.filter_flatMap]
  exact List.flatMap_congr hslice

end Tells

/-! ## What the snapshot tells of the walk -/

theorem filterMap_sublist_map {α β : Type} {f : α → Option β} {k : α → β}
    (h : ∀ a b, f a = some b → b = k a) (l : List α) : (l.filterMap f).Sublist (l.map k) := by
  induction l with
  | nil => exact .slnil
  | cons a l ih =>
    rw [List.filterMap_cons, List.map_cons]
    cases hf : f a with
    | none => exact ih.cons (k a)
    | some b =>
      rw [h a b hf]
      exact ih.cons_cons (k a)

theorem mem_readFiles {walked : List (String × Fate)} {path : String} :
    path ∈ Fate.readFiles walked ↔ ∃ fate, fate ≠ .ignored ∧ (path, fate) ∈ walked := by
  unfold Fate.readFiles
  rw [List.mem_filterMap]
  constructor
  · rintro ⟨⟨other, _ | nodes | _⟩, hmem, hpath⟩
    · cases hpath
    · cases hpath
      exact ⟨.registered nodes, nofun, hmem⟩
    · cases hpath
      exact ⟨.failed, nofun, hmem⟩
  · rintro ⟨_ | nodes | _, hfate, hmem⟩
    · exact absurd rfl hfate
    · exact ⟨_, hmem, rfl⟩
    · exact ⟨_, hmem, rfl⟩

theorem mem_ignoredFiles {walked : List (String × Fate)} {path : String} :
    path ∈ Fate.ignoredFiles walked ↔ (path, .ignored) ∈ walked := by
  unfold Fate.ignoredFiles
  rw [List.mem_filterMap]
  constructor
  · rintro ⟨⟨other, _ | nodes | _⟩, hmem, hpath⟩
    · cases hpath
      exact hmem
    · cases hpath
    · cases hpath
  · exact fun hmem => ⟨_, hmem, rfl⟩

theorem readFiles_sublist (walked : List (String × Fate)) :
    (Fate.readFiles walked).Sublist (walked.map Prod.fst) := by
  refine filterMap_sublist_map ?_ walked
  rintro ⟨path, _ | nodes | _⟩ other hother <;> cases hother <;> rfl

theorem ignoredFiles_sublist (walked : List (String × Fate)) :
    (Fate.ignoredFiles walked).Sublist (walked.map Prod.fst) := by
  refine filterMap_sublist_map ?_ walked
  rintro ⟨path, _ | nodes | _⟩ other hother <;> cases hother
  rfl

/-- What does not say anything of the files that are left out says the same without them. -/
theorem filterMap_filter_eq {α : Type} {f f' : String × Fate → Option α} {keep : String → Bool}
    {walked : List (String × Fate)}
    (hdropped : ∀ row ∈ walked, keep row.1 = false → f row = none)
    (hkept : ∀ row ∈ walked, keep row.1 = true → f' row = f row) :
    (walked.filter (keep ∘ Prod.fst)).filterMap f' = walked.filterMap f := by
  rw [List.filterMap_filter]
  refine List.filterMap_congr fun row hmem => ?_
  split
  · next hkeep => exact hkept row hmem hkeep
  · next hkeep => exact (hdropped row hmem (Bool.not_eq_true _ ▸ hkeep)).symm

/-- A group's partials are what the walk finds. -/
theorem config_eq (r : Report) (extension : String) (site : Library) (folders : List String) :
    let walked := r.walk extension site folders
    r.config extension site folders = ⟨site.withTemplates (Fate.templates extension walked),
      (Fate.templates extension walked).map Prod.fst, Fate.ignoredFiles walked⟩ := by
  intro walked
  obtain ⟨hyields, -⟩ := r.yields extension site (r.scan extension folders)
  have hlibrary : (r.config extension site folders).library =
      site.withTemplates (Fate.templates extension walked) :=
    (Gathering.Has.start site).library_walk (r.scan extension folders)
  have hpartials : (r.config extension site folders).partials =
      (Fate.templates extension walked).map Prod.fst := hyields.partials
  have hignored : (r.config extension site folders).ignored = Fate.ignoredFiles walked :=
    hyields.ignored
  rw [← hlibrary, ← hpartials, ← hignored]

section Snapshot

variable (key : String) (hnodup : (r.scan extension folders).Nodup)

include hnodup

theorem nodup_readFiles : (Fate.readFiles (r.walk extension site folders)).Nodup := by
  have hwalked : (r.walk extension site folders).map Prod.fst = r.scan extension folders :=
    map_fst_fates
  exact (hwalked.symm ▸ hnodup).sublist (readFiles_sublist _)

theorem nodup_ignoredFiles : (Fate.ignoredFiles (r.walk extension site folders)).Nodup := by
  have hwalked : (r.walk extension site folders).map Prod.fst = r.scan extension folders :=
    map_fst_fates
  exact (hwalked.symm ▸ hnodup).sublist (ignoredFiles_sublist _)

theorem lookup_snapshot (path : String) :
    (r.snapshot extension site folders key).fingerprints.lookup path =
      if path ∈ Fate.readFiles (r.walk extension site folders) then
        (r.fingerprint path).toOption
      else none := by
  refine (Sorted.lookup_ofList ?_ path).trans (lookup_fingerprints _ path)
  rw [map_fst_fingerprints]
  exact (nodup_readFiles hnodup).filter _

variable {paths : List String} (hpaths : paths.Nodup)

include hpaths

/-- The files with a fingerprint are those that were read and had one. -/
theorem perm_known (hlength : ((r.snapshot extension site folders key).known paths).length =
      (r.snapshot extension site folders key).fingerprints.length) :
    ((r.snapshot extension site folders key).known paths).Perm
      ((Fate.readFiles (r.walk extension site folders)).filter fun path =>
        (r.fingerprint path).toOption.isSome) := by
  have hkeys := map_fst_fingerprints (r := r) (Fate.readFiles (r.walk extension site folders))
  have hcount : (r.snapshot extension site folders key).fingerprints.length = _ :=
    Sorted.length_ofList (by rw [hkeys]; exact (nodup_readFiles hnodup).filter _)
  have hrows := congrArg List.length hkeys
  rw [List.length_map] at hrows
  refine perm_of_subset (hpaths.filter _) (fun path hpath => ?_)
    (hlength.trans (hcount.trans hrows))
  have hsome := (List.mem_filter.1 hpath).2
  rw [lookup_snapshot key hnodup] at hsome
  split at hsome
  · next hread => exact List.mem_filter.2 ⟨hread, hsome⟩
  · cases hsome

/-- The others are those that were ignored. -/
theorem perm_unknown (hlength : ((r.snapshot extension site folders key).unknown paths).length =
      (r.snapshot extension site folders key).ignored.length)
    (hfits : (r.snapshot extension site folders key).Fits r' paths) :
    ((r.snapshot extension site folders key).unknown paths).Perm
      (Fate.ignoredFiles (r.walk extension site folders)) := by
  refine perm_of_subset (hpaths.filter _) (fun path hpath => ?_)
    (hlength.trans (length_eraseDups (nodup_ignoredFiles hnodup)))
  obtain ⟨hmem, hnone⟩ := List.mem_filter.1 hpath
  exact List.mem_eraseDups.1 ((hfits path hmem).2 (by simpa using hnone))

end Snapshot

/-! ## Putting the same together again -/

/-- Every file that is registered has a fingerprint. -/
def Marked (r : Report) (extension : String) (site : Library) (folders : List String) : Prop :=
  ∀ path nodes, (path, Fate.registered nodes) ∈ r.walk extension site folders →
    (r.fingerprint path).toOption.isSome = true

section Rebuilt

variable (h : r.Tells order digest text? content?) (h' : r'.Tells order digest text? content'?)
  (horder : ∀ a b, order a b → ¬order b a)
  (hdigest : Set.InjOn digest {content | ∃ path, content? path = some content ∨
    content'? path = some content})

include h h' hdigest in
/-- A file with the same fingerprint has the same text. -/
theorem Tells.read_eq {path fingerprint : String} (hbefore : r.fingerprint path = .ok fingerprint)
    (hafter : r'.fingerprint path = .ok fingerprint) :
    (r'.read path).toOption = (r.read path).toOption := by
  obtain ⟨content, hcontent, hsame⟩ := h.fingerprint path fingerprint hbefore
  obtain ⟨content', hcontent', hsame'⟩ := h'.fingerprint path fingerprint hafter
  rw [h.read path content hcontent, h'.read path content' hcontent',
    hdigest ⟨path, .inr hcontent'⟩ ⟨path, .inl hcontent⟩ (hsame'.trans hsame.symm)]

variable (hslash : ∀ folder ∈ folders, EndsInSlash folder) (hfolders : folders.Nodup)
  (hmarked : r.Marked extension site folders) {snap : Snapshot}
  (hsnap : snap = r.snapshot extension site folders key)
  (hknown : (snap.known (r'.scan extension folders)).length = snap.fingerprints.length)
  (hunknown : (snap.unknown (r'.scan extension folders)).length = snap.ignored.length)
  (hfits : snap.Fits r' (r'.scan extension folders))

include h h' horder hdigest hslash hfolders hmarked hsnap hknown hunknown hfits

/-- **A snapshot that is found again** is that of the walk without some of the files that failed. Of
all others that were read there is the same text. -/
theorem walk_of_fits :
    let keep path := decide (path ∈ r'.scan extension folders)
    r'.walk extension site folders =
        (r.walk extension site folders).filter (keep ∘ Prod.fst) ∧
      ∀ row ∈ r.walk extension site folders, (keep row.1 = false → row.2 = .failed) ∧
        (keep row.1 = true → row.2 ≠ .ignored →
          (r'.read row.1).toOption = (r.read row.1).toOption) := by
  intro keep
  subst hsnap
  have hnodup : (r.scan extension folders).Nodup := h.nodup_scan horder hslash hfolders
  have hpaths : (r'.scan extension folders).Nodup := h'.nodup_scan horder hslash hfolders
  have hperm := perm_known key hnodup hpaths hknown
  have hperm' := perm_unknown key hnodup hpaths hunknown hfits
  have hwalked : (r.walk extension site folders).map Prod.fst = r.scan extension folders :=
    map_fst_fates
  have hsubset : r'.scan extension folders ⊆ r.scan extension folders := by
    intro path hmem
    rw [← hwalked]
    cases hlookup : ((r.snapshot extension site folders key).fingerprints.lookup path).isSome with
    | true =>
      have hread := (List.mem_filter.1 (hperm.mem_iff.1 (List.mem_filter.2 ⟨hmem, hlookup⟩))).1
      exact (readFiles_sublist _).subset hread
    | false =>
      have hignored := hperm'.mem_iff.1 (List.mem_filter.2 ⟨hmem, by rw [hlookup]; rfl⟩)
      exact (ignoredFiles_sublist _).subset hignored
  have hrows : ∀ row ∈ r.walk extension site folders, (keep row.1 = false → row.2 = .failed) ∧
      (keep row.1 = true → row.2 ≠ .ignored →
        (r'.read row.1).toOption = (r.read row.1).toOption) := by
    rintro ⟨path, fate⟩ hrow
    refine ⟨fun hdropped => ?_, fun hkept hfate => ?_⟩
    · -- Whatever is no longer there cannot have been counted.
      have hgone : path ∉ r'.scan extension folders := of_decide_eq_false hdropped
      cases fate with
      | failed => rfl
      | ignored =>
        have hmem := hperm'.mem_iff.2 (mem_ignoredFiles.2 hrow)
        exact absurd (List.mem_filter.1 hmem).1 hgone
      | registered nodes =>
        have hread := mem_readFiles.2 ⟨.registered nodes, nofun, hrow⟩
        have hmem := hperm.mem_iff.2 (List.mem_filter.2 ⟨hread, hmarked path nodes hrow⟩)
        exact absurd (List.mem_filter.1 hmem).1 hgone
    · have hmem : path ∈ r'.scan extension folders := of_decide_eq_true hkept
      cases hlookup : (r.snapshot extension site folders key).fingerprints.lookup path with
      | some fingerprint =>
        have hafter := (hfits path hmem).1 fingerprint hlookup
        rw [lookup_snapshot key hnodup, if_pos (mem_readFiles.2 ⟨fate, hfate, hrow⟩)] at hlookup
        refine h.read_eq h' hdigest ?_ hafter
        cases hbefore : r.fingerprint path with
        | ok fingerprint' =>
          rw [hbefore] at hlookup
          cases hlookup
          rfl
        | error err =>
          rw [hbefore] at hlookup
          cases hlookup
      | none =>
        -- It would have been ignored, but no file has two fates.
        have hignored := mem_ignoredFiles.1
          (hperm'.mem_iff.1 (List.mem_filter.2 ⟨hmem, by rw [hlookup]; rfl⟩))
        have hdistinct : ((r.walk extension site folders).map Prod.fst).Nodup := hwalked ▸ hnodup
        cases (List.inj_on_of_nodup_map hdistinct hrow hignored rfl)
        exact absurd rfl hfate
  refine ⟨?_, hrows⟩
  unfold walk
  rw [h.scan_eq_filter horder h' hslash hsubset]
  refine fates_filter fun row hrow => ⟨(hrows row hrow).1, fun hkept hfate => ?_⟩
  unfold nodes?
  rw [(hrows row hrow).2 hkept hfate]

/-- **It is put together as it was**, from the same texts. -/
theorem config_of_fits :
    r'.config extension site folders = r.config extension site folders ∧
      r'.sources extension site folders = r.sources extension site folders := by
  obtain ⟨hwalk, hrows⟩ := walk_of_fits h h' horder hdigest hslash hfolders hmarked hsnap hknown
    hunknown hfits
  have htemplates : Fate.templates extension (r'.walk extension site folders) =
      Fate.templates extension (r.walk extension site folders) := by
    rw [hwalk]
    refine filterMap_filter_eq (fun row hrow hdropped => ?_) fun _ _ _ => rfl
    obtain ⟨path, fate⟩ := row
    cases (hrows _ hrow).1 hdropped
    rfl
  have hignored : Fate.ignoredFiles (r'.walk extension site folders) =
      Fate.ignoredFiles (r.walk extension site folders) := by
    rw [hwalk]
    refine filterMap_filter_eq (fun row hrow hdropped => ?_) fun _ _ _ => rfl
    obtain ⟨path, fate⟩ := row
    cases (hrows _ hrow).1 hdropped
    rfl
  refine ⟨?_, ?_⟩
  · rw [config_eq, config_eq, htemplates, hignored]
  · unfold sources
    rw [hwalk]
    refine filterMap_filter_eq (fun row hrow hdropped => ?_) fun row hrow hkept => ?_
    · obtain ⟨path, fate⟩ := row
      cases (hrows _ hrow).1 hdropped
      rfl
    · obtain ⟨path, _ | nodes | _⟩ := row
      · rfl
      · exact congrArg (Option.map (path, ·)) ((hrows _ hrow).2 hkept nofun)
      · rfl

end Rebuilt

/-- The files that are registered are those that were read and hold a template. -/
theorem sources_eq (r : Report) (extension : String) (site : Library) (folders : List String) :
    r.sources extension site folders =
      (Fate.readFiles (r.walk extension site folders)).filterMap fun path =>
        (r.read path).toOption.bind fun text =>
          if (Template.Node.ofSource? text).isSome then some (path, text) else none := by
  unfold sources Fate.readFiles
  rw [List.filterMap_filterMap]
  refine List.filterMap_congr fun row hrow => ?_
  obtain ⟨path, fate⟩ := row
  obtain ⟨hregistered, hfailed⟩ := nodes_of_mem_fates hrow
  cases fate with
  | ignored => rfl
  | registered nodes =>
    obtain ⟨text, htext, hnodes⟩ := Option.bind_eq_some_iff.1 (hregistered nodes rfl)
    simp [htext, hnodes]
  | failed =>
    have hnodes := Option.bind_eq_none_iff.1 (hfailed rfl)
    simp only [Option.bind_some]
    cases htext : (r.read path).toOption with
    | none => rfl
    | some text => simp [hnodes text htext]

end Report

end Templating
