import Templating.Proofs.Engine.Readings
import Templating.Proofs.Engine.Snapshot

/-!
# Counting is comparing

A poller compares what it finds with a snapshot by counting. Each file that is found has to fit, and
then there have to be as many of them as in the snapshot. `Snapshot.isUnchanged_iff`: where no file
is found twice, this finds no difference exactly if the files found are those of the snapshot and
each that has a digest there is still said to have it, whatever the source answers and whatever
changes between its calls. No file is found twice in a group's partial folders if the source lists
what lies directly in a folder, and each file once (`Source.ListsFiles.nodup_scanPartials`), since
these folders are different ones. `Snapshot.counting_is_exact` puts the two together.
-/

namespace Templating

variable {W : Type} {s : Source W}

/-! ## What is counted -/

namespace Snapshot

/-- The files with a digest. -/
abbrev marked (snap : Snapshot) : List String := snap.fingerprints.map Prod.fst

/-- The snapshot has each file once: with one digest, or as one that was ignored. -/
structure Distinct (snap : Snapshot) : Prop where
  marked : snap.marked.Nodup
  ignored : snap.ignored.Nodup
  apart : snap.marked.Disjoint snap.ignored

/-- The files found are those of the snapshot. -/
def SameFiles (snap : Snapshot) (found : List String) : Prop :=
  ∀ path, path ∈ found ↔ path ∈ snap.marked ∨ path ∈ snap.ignored

/-- Asked for in this order, beginning in this scene, the digests of the files found are those of
the snapshot. -/
def SameDigests (snap : Snapshot) (s : Source W) (found : List String) (scene : Scene W) : Prop :=
  ∀ path digest, (path, digest) ∈ snap.fingerprints →
    ∃ asked, (path, asked) ∈ Gathering.takings s (snap.known found) scene ∧
      (s.fingerprint path asked).1 = .ok digest

/-- A call answers with the digest of the snapshot. -/
def Confirms (snap : Snapshot) (s : Source W) (call : String × Scene W) : Prop :=
  ∃ digest, snap.fingerprints.lookup call.1 = some digest ∧
    (s.fingerprint call.1 call.2).1 = .ok digest

variable {snap : Snapshot} {found : List String}

theorem mem_marked {path : String} :
    path ∈ snap.marked ↔ (snap.fingerprints.lookup path).isSome = true := by
  rw [← not_iff_not, ← lookup_eq_none, Bool.not_eq_true, Option.isSome_eq_false_iff,
    Option.isNone_iff_eq_none]

theorem mem_known {path : String} : path ∈ snap.known found ↔ path ∈ found ∧ path ∈ snap.marked :=
  List.mem_filter.trans (and_congr_right' mem_marked.symm)

theorem mem_unknown {path : String} :
    path ∈ snap.unknown found ↔ path ∈ found ∧ path ∉ snap.marked := by
  rw [unknown, List.mem_filter, mem_marked, Bool.not_eq_true', Bool.not_eq_true]

/-- **As many files as there were** are the same files, if all of them fit and none is there
twice. -/
theorem sameFiles_iff (hsnap : snap.Distinct) (hfound : found.Nodup) :
    snap.SameFiles found ↔
      snap.unknown found ⊆ snap.ignored ∧ (snap.known found).length = snap.fingerprints.length ∧
        (snap.unknown found).length = snap.ignored.length := by
  have hknown : (snap.known found).Nodup := hfound.filter _
  have hunknown : (snap.unknown found).Nodup := hfound.filter _
  rw [← List.length_map Prod.fst]
  constructor
  · intro hsame
    have hmarked : (snap.known found).Perm snap.marked := by
      refine (List.perm_ext_iff_of_nodup hknown hsnap.marked).2 fun path => ?_
      rw [mem_known, and_iff_right_iff_imp]
      exact fun hmem => (hsame path).2 (.inl hmem)
    have hignored : (snap.unknown found).Perm snap.ignored := by
      refine (List.perm_ext_iff_of_nodup hunknown hsnap.ignored).2 fun path => ?_
      rw [mem_unknown, hsame]
      constructor
      · exact fun ⟨hmem, hnot⟩ => hmem.resolve_left hnot
      · exact fun hmem => ⟨.inr hmem, fun hmarked => hsnap.apart hmarked hmem⟩
    exact ⟨hignored.subset, hmarked.length_eq, hignored.length_eq⟩
  · rintro ⟨hfits, hmany, hmany'⟩ path
    have hmarked : (snap.known found).Perm snap.marked :=
      perm_of_subset hknown (fun _ hmem => (mem_known.1 hmem).2) hmany
    have hignored : (snap.unknown found).Perm snap.ignored := perm_of_subset hunknown hfits hmany'
    rw [← hmarked.mem_iff, ← hignored.mem_iff, mem_known, mem_unknown, ← and_or_left]
    exact (and_iff_left (em _)).symm

/-- The digests are the same if all calls confirm the snapshot. -/
theorem sameDigests_iff {scene : Scene W} (hsnap : snap.Distinct) (hfound : found.Nodup)
    (hsame : snap.SameFiles found) :
    snap.SameDigests s found scene ↔
      ∀ call ∈ Gathering.takings s (snap.known found) scene, snap.Confirms s call := by
  have hcalls : (Gathering.takings s (snap.known found) scene).map Prod.fst = snap.known found :=
    Gathering.map_fst_takings _ _
  constructor
  · rintro hdigests ⟨path, asked⟩ hcall
    have hpath : path ∈ snap.known found := hcalls ▸ List.mem_map_of_mem hcall
    obtain ⟨digest, hlookup⟩ := Option.isSome_iff_exists.1 (mem_marked.1 (mem_known.1 hpath).2)
    obtain ⟨asked', hcall', hanswer⟩ := hdigests path digest (mem_of_lookup hlookup)
    -- A file is asked for once.
    have hone : asked' = asked := by
      have hnodup : ((Gathering.takings s (snap.known found) scene).map Prod.fst).Nodup := by
        rw [hcalls]
        exact hfound.filter _
      exact congrArg Prod.snd (List.inj_on_of_nodup_map hnodup hcall' hcall rfl)
    exact ⟨digest, hlookup, hone ▸ hanswer⟩
  · intro hconfirms path digest hmem
    have hmarked : path ∈ snap.marked := List.mem_map_of_mem hmem
    have hpath : path ∈ snap.known found :=
      mem_known.2 ⟨(hsame path).2 (.inl hmarked), hmarked⟩
    rw [← hcalls] at hpath
    obtain ⟨⟨_, asked⟩, hcall, rfl⟩ := List.mem_map.1 hpath
    obtain ⟨digest', hlookup, hanswer⟩ := hconfirms _ hcall
    have heq : digest' = digest := by
      have hpair := List.inj_on_of_nodup_map hsnap.marked (mem_of_lookup hlookup) hmem rfl
      exact congrArg Prod.snd hpair
    exact ⟨asked, hcall, heq ▸ hanswer⟩

/-! ## The comparison -/

/-- **What the comparison counts**: it comes to an end if all files fit, and has then counted those
with a digest and the others. -/
theorem compare_eq_some_iff {known ignored k i : Nat} {scene : Scene W} :
    (snap.compare s known ignored found scene).1 = some (k, i) ↔
      (∀ call ∈ Gathering.takings s (snap.known found) scene, snap.Confirms s call) ∧
        snap.unknown found ⊆ snap.ignored ∧
        k = known + (snap.known found).length ∧ i = ignored + (snap.unknown found).length := by
  induction found generalizing known ignored scene with
  | nil =>
    change some (known, ignored) = some (k, i) ↔ _
    simp only [Option.some.injEq, Prod.mk.injEq]
    constructor
    · rintro ⟨rfl, rfl⟩
      exact ⟨List.forall_mem_nil _, List.nil_subset _, rfl, rfl⟩
    · rintro ⟨-, -, rfl, rfl⟩
      exact ⟨rfl, rfl⟩
  | cons path paths ih =>
    rw [known_cons, unknown_cons]
    unfold compare
    cases hlookup : snap.fingerprints.lookup path with
    | some expected =>
      -- The file has a digest, and its call is the first.
      simp only [bind_apply, Option.isSome_some, if_true, Bool.not_true, Bool.false_eq_true,
        if_false, Gathering.takings, List.forall_mem_cons, List.length_cons]
      have hfirst : snap.Confirms s (path, scene) ↔
          (s.fingerprint path scene).1 = .ok expected := by
        simp only [Confirms, hlookup, Option.some.injEq, exists_eq_left']
      rw [hfirst]
      cases hanswer : (s.fingerprint path scene).1 with
      | error err => simp only [pure_apply, reduceCtorEq, false_and]
      | ok current =>
        simp only [Except.ok.injEq]
        split
        · next heq =>
          rw [ih, and_iff_right heq, Nat.add_assoc, Nat.add_comm 1]
        · next hne => simp only [pure_apply, reduceCtorEq, hne, false_and]
    | none =>
      -- The file has none, and no call is made.
      simp only [Option.isSome_none, Bool.false_eq_true, if_false, Bool.not_false, if_true,
        List.cons_subset, List.length_cons]
      split
      · next hmem =>
        rw [ih, and_iff_right (List.contains_iff_mem.1 hmem), Nat.add_assoc, Nat.add_comm 1]
      · next hnot =>
        have hnot' : path ∉ snap.ignored := fun hmem => hnot (List.contains_iff_mem.2 hmem)
        simp only [pure_apply, reduceCtorEq, hnot', false_and, and_false]

/-- **Where no file is found twice**, there is no difference to be found exactly if there is
none. -/
theorem isUnchanged_iff {extension : String} {scene : Scene W} (hsnap : snap.Distinct)
    (hfound : (scanPartials s extension snap.folders scene).1.Nodup) :
    (snap.isUnchanged s extension scene).1 = true ↔
      let found := scanPartials s extension snap.folders scene
      snap.SameFiles found.1 ∧ snap.SameDigests s found.1 found.2 := by
  let found := scanPartials s extension snap.folders scene
  have hcount : (snap.isUnchanged s extension scene).1 = true ↔
      (snap.compare s 0 0 found.1 found.2).1 =
        some (snap.fingerprints.length, snap.ignored.length) := beq_iff_eq
  rw [hcount, compare_eq_some_iff, Nat.zero_add, Nat.zero_add]
  constructor
  · rintro ⟨hconfirms, hfits, hmany, hmany'⟩
    have hsame := (sameFiles_iff hsnap hfound).2 ⟨hfits, hmany.symm, hmany'.symm⟩
    exact ⟨hsame, (sameDigests_iff hsnap hfound hsame).2 hconfirms⟩
  · rintro ⟨hsame, hdigests⟩
    obtain ⟨hfits, hmany, hmany'⟩ := (sameFiles_iff hsnap hfound).1 hsame
    exact ⟨(sameDigests_iff hsnap hfound hsame).1 hdigests, hfits, hmany.symm, hmany'.symm⟩

end Snapshot

/-! ## What is found -/

/-- The files in a folder, which is listed if it is there. -/
def Source.filesIn (s : Source W) (folder : String) : Act W (List String) := do
  if ← s.isFolder folder then s.list folder else return []

theorem scanPartials_cons (extension folder : String) (folders : List String) (scene : Scene W) :
    (scanPartials s extension (folder :: folders) scene).1 =
      (s.filesIn folder scene).1.filter (hasExtension extension) ++
        (scanPartials s extension folders (s.filesIn folder scene).2).1 := by
  rw [scanPartials, Source.filesIn, bind_apply, bind_apply]
  cases (s.isFolder folder scene).1 <;> rfl

/-- In worlds like these the source lists the files that lie directly in a folder, each once. -/
structure Source.ListsFiles (s : Source W) (Q : W → Prop) : Prop extends s.Keeps Q where
  once : ∀ folder scene, Q scene.world → (s.list folder scene).1.Nodup
  direct : ∀ folder scene, Q scene.world → ∀ path ∈ (s.list folder scene).1,
    Memory.isDirectChild (asFolder folder) path = true

namespace Source.ListsFiles

variable {Q : W → Prop} (h : s.ListsFiles Q)

include h

theorem of_filesIn {folder : String} (hfolder : EndsInSlash folder) {scene : Scene W}
    (hQ : Q scene.world) :
    (s.filesIn folder scene).1.Nodup ∧
      (∀ path ∈ (s.filesIn folder scene).1, Memory.isDirectChild folder path = true) ∧
      Q (s.filesIn folder scene).2.world := by
  have hQ' := h.isFolder folder scene hQ
  rw [filesIn, bind_apply]
  cases (s.isFolder folder scene).1 with
  | false => exact ⟨List.nodup_nil, List.forall_mem_nil _, hQ'⟩
  | true =>
    have hdirect := h.direct folder _ hQ'
    rw [asFolder_of_endsInSlash hfolder] at hdirect
    exact ⟨h.once folder _ hQ', hdirect, h.list folder _ hQ'⟩

/-- **No file is found twice** in different folders. -/
theorem nodup_scanPartials (extension : String) {folders : List String} (hnodup : folders.Nodup)
    (hslash : ∀ folder ∈ folders, EndsInSlash folder) {scene : Scene W} (hQ : Q scene.world) :
    (scanPartials s extension folders scene).1.Nodup ∧
      ∀ path ∈ (scanPartials s extension folders scene).1,
        ∃ folder ∈ folders, Memory.isDirectChild folder path = true := by
  induction folders generalizing scene with
  | nil => exact ⟨List.nodup_nil, List.forall_mem_nil _⟩
  | cons folder folders ih =>
    obtain ⟨hnew, hnodup⟩ := List.nodup_cons.1 hnodup
    obtain ⟨hfolder, hslash⟩ := List.forall_mem_cons.1 hslash
    obtain ⟨honce, hdirect, hQ'⟩ := h.of_filesIn hfolder hQ
    obtain ⟨hrest, hfound⟩ := ih hnodup hslash hQ'
    rw [scanPartials_cons]
    constructor
    · refine List.nodup_append.2 ⟨honce.filter _, hrest, ?_⟩
      -- A file that is found again would lie in two folders.
      rintro path hmem _ hagain rfl
      obtain ⟨other, hother, hchild⟩ := hfound path hagain
      have hmine := hdirect path (List.mem_filter.1 hmem).1
      have heq : folder = other := folder_unique hfolder (hslash other hother) hmine hchild
      exact hnew (heq ▸ hother)
    · intro path hmem
      rcases List.mem_append.1 hmem with hmem | hmem
      · exact ⟨folder, List.mem_cons_self, hdirect path (List.mem_filter.1 hmem).1⟩
      · obtain ⟨other, hother, hchild⟩ := hfound path hmem
        exact ⟨other, List.mem_cons_of_mem _ hother, hchild⟩

end Source.ListsFiles

/-- Files in memory are listed so. -/
theorem Memory.listsFiles : source.ListsFiles fun m => Sorted.Ascending m.files where
  isFile _ _ h := h
  isFolder _ _ h := h
  list _ _ h := h
  read _ _ h := h
  fingerprint _ _ h := h
  watch path scene h := by
    change Sorted.Ascending (watch path scene).2.world.files
    unfold watch
    split <;> exact h
  once folder scene h := by
    change (scene.world.list folder).Nodup
    rw [scene.world.list_eq_listing h]
    exact (pairwise_listing h _).imp fun hlt => hlt.ne
  direct folder scene h path hmem := by
    change path ∈ scene.world.list folder at hmem
    rw [scene.world.list_eq_listing h] at hmem
    exact (mem_listing.1 hmem).2

/-! ## What is in a snapshot -/

namespace Gathering

variable {extension : String}

/-- Each file is read or ignored. -/
theorem perm_add (g : Gathering) (path : String) (scene : Scene W) :
    let next := (add s extension g path scene).1
    (next.attempted ++ next.ignored).Perm (g.attempted ++ g.ignored ++ [path]) := by
  intro next
  by_cases h : g.library.has (partialName extension path) = true
  · have hnext : next = { g with ignored := g.ignored ++ [path] } :=
      congrArg Prod.fst (add_of_taken scene h)
    rw [hnext, List.append_assoc]
  · have hread : next.attempted = g.attempted ++ [path] := (add_of_free scene h).2
    have hignored : next.ignored = g.ignored := by
      unfold next add
      simp only [h]
      rfl
    rw [hread, hignored, List.append_assoc, List.append_assoc]
    exact List.perm_append_comm.append_left _

theorem perm_foldlM_add (g : Gathering) (paths : List String) (scene : Scene W) :
    let found := (paths.foldlM (add s extension) g scene).1
    (found.attempted ++ found.ignored).Perm (g.attempted ++ g.ignored ++ paths) := by
  induction paths generalizing g scene with
  | nil =>
    rw [List.append_nil]
    exact .refl _
  | cons path paths ih =>
    rw [List.foldlM_cons, bind_apply, List.append_cons]
    exact (ih _ _).trans ((perm_add g path scene).append_right paths)

end Gathering

/-- **A snapshot has each file once** if it is the snapshot of a build that found none twice. -/
theorem Engine.Builds.distinct {e : Engine W} {Q : W → Prop} (h : e.source.ListsFiles Q)
    {g : Group.Made} {before : Scene W} (hQ : Q before.world) {v : GroupConfig} {snap : Snapshot}
    (hbuilds : e.Builds g.1 before v snap) : snap.Distinct := by
  obtain ⟨after, -, -, -, rfl⟩ := hbuilds
  let folders := e.options.folders.partialFolders g.1
  let watched := folders.filterMapM e.source.changeToken? before
  let paths := scanPartials e.source e.options.extension folders watched.2
  have hQ' : Q watched.2.world := by
    have hkeeps := h.toKeeps.follows
    have hcourse := Scene.course_world Q
    exact Act.Follows.filterMapM hcourse (hkeeps.changeToken? hcourse) folders before hQ
  have hnodup : paths.1.Nodup :=
    (h.nodup_scanPartials _ (e.options.folders.nodup_partialFolders g.2)
      (e.options.folders.endsInSlash_partialFolders g.1) hQ').1
  let gathered := (e.gathering g.1 before).1
  have hperm : (gathered.attempted ++ gathered.ignored).Perm paths.1 :=
    Gathering.perm_foldlM_add { library := e.site, tokens := watched.1 } paths.1 paths.2
  have happart := (List.nodup_append'.1 (hperm.nodup_iff.2 hnodup)).2.2
  refine ⟨?_, Cache.nodup_eraseDups _, ?_⟩
  · have hascending : Sorted.Ascending (gathered.fingerprints e.source after).1 := by
      rw [Gathering.fingerprints_eq]
      exact Sorted.ascending_ofList _
    exact hascending.pairwise_keys.imp fun hlt => hlt.ne
  · intro path hmarked hignored
    obtain ⟨digest, hlookup⟩ := Option.isSome_iff_exists.1 (Snapshot.mem_marked.1 hmarked)
    obtain ⟨taken, hcall, -⟩ := Gathering.taken_of_lookup hlookup
    have hattempted : path ∈ gathered.attempted := by
      rw [← Gathering.map_fst_takings (s := e.source) gathered.attempted after]
      exact List.mem_map_of_mem hcall
    exact happart hattempted (List.mem_eraseDups.1 hignored)

namespace Snapshot

/-- **To count is to compare.** For any source and any snapshot that has each file once, if no file
is found twice, a poller that counts finds no difference exactly if the files found are those of the
snapshot and the digests are still the same. And no file is found twice in the partial folders of a
group, whatever the folders are called: these are different folders, and no file lies in two of
them, so that it is enough if the source lists the files directly in a folder, each once. -/
theorem counting_is_exact :
    (∀ (W : Type) (s : Source W) (extension : String) (snap : Snapshot) (scene : Scene W),
      snap.Distinct →
      let found := scanPartials s extension snap.folders scene
      found.1.Nodup →
        ((snap.isUnchanged s extension scene).1 = true ↔
          snap.SameFiles found.1 ∧ snap.SameDigests s found.1 found.2)) ∧
    ∀ (names : FolderNames) (g : Group.Made),
      (names.partialFolders g.1).Nodup ∧
      ∀ (W : Type) (s : Source W) (Q : W → Prop), s.ListsFiles Q →
        ∀ (extension : String) (scene : Scene W), Q scene.world →
          (scanPartials s extension (names.partialFolders g.1) scene).1.Nodup := by
  refine ⟨fun W s extension snap scene hsnap => isUnchanged_iff hsnap, fun names g => ?_⟩
  have hnodup := names.nodup_partialFolders g.2
  refine ⟨hnodup, fun W s Q h extension scene hQ => ?_⟩
  exact (h.nodup_scanPartials extension hnodup (names.endsInSlash_partialFolders g.1) hQ).1

/-! Two partials of one name: the first is read, the second ignored. -/

def bars : Memory where
  files := [("~/Views/_Partials/menu-bar.hbs", "<nav>"), ("~/Views/_Partials/menu_bar.hbs", "<ul>")]
  push := false

def barred : Snapshot where
  folders := ({} : FolderNames).partialFolders Workshop.home.1
  fingerprints := [("~/Views/_Partials/menu-bar.hbs", Memory.digest "<nav>")]
  ignored := ["~/Views/_Partials/menu_bar.hbs"]
  configKey := "p::Home:config"

theorem counting_bars :
    barred.Distinct ∧ Memory.source.ListsFiles (fun m => Sorted.Ascending m.files) ∧
      Sorted.Ascending bars.files ∧
      (scanPartials Memory.source ".hbs" barred.folders { world := bars }).1.Nodup ∧
      (barred.isUnchanged Memory.source ".hbs" { world := bars }).1 = true := by
  have hdistinct : barred.Distinct := by
    refine ⟨List.nodup_singleton _, List.nodup_singleton _, ?_⟩
    exact List.disjoint_singleton.2 (by decide)
  have hascending : Sorted.Ascending bars.files := List.pairwise_pair.2 (by decide)
  obtain ⟨hexact, hfolders⟩ := counting_is_exact
  have hnodup := (hfolders {} Workshop.home).2 Memory Memory.source _ Memory.listsFiles ".hbs"
    { world := bars } hascending
  refine ⟨hdistinct, Memory.listsFiles, hascending, hnodup, ?_⟩
  refine (hexact Memory Memory.source ".hbs" barred { world := bars } hdistinct hnodup).2 ?_
  have hfound : scanPartials Memory.source ".hbs" barred.folders { world := bars } =
      (pathsOf bars.files, { world := bars }) := rfl
  rw [hfound]
  constructor
  · intro path
    change path ∈ barred.marked ++ barred.ignored ↔ _
    exact List.mem_append
  · intro path digest hmem
    obtain ⟨rfl, rfl⟩ := Prod.mk.inj (List.mem_singleton.1 hmem)
    exact ⟨{ world := bars }, List.mem_singleton_self _, rfl⟩

end Snapshot

end Templating
