import Templating.Proofs.Engine.Comparing
import Templating.Proofs.Engine.Keys
import Templating.Proofs.Engine.Plain

/-!
# What a poller can tell

A poller compares a snapshot with the files found later: the digests of the files that were read,
and the names of those that were not. `gather_of_isUnchanged`: when it finds no difference, a
group's partials are put together as they were, provided that different contents have different
digests. This rests on two facts about the partial folders: they are different folders, and no file
lies in two of them, so that no file is counted twice.
-/

namespace Templating

open Template (Library)

/-! ## The partial folders -/

namespace FolderNames

variable (names : FolderNames)

theorem endsInSlash_special (g : Group) (name : String) :
    ∀ folder ∈ names.special g name, EndsInSlash folder := by
  intro folder hmem
  obtain ⟨root, -, hmem⟩ := List.mem_flatMap.1 hmem
  rcases List.mem_pair.1 hmem with rfl | rfl
  · exact endsInSlash_append _
  · exact endsInSlash_append _

theorem ne_of_length_ne {a b : String} (h : a.toList.length ≠ b.toList.length) : a ≠ b :=
  fun heq => h (by rw [heq])

theorem ne_of_slashes_ne {a b : String} (h : a.toList.count '/' ≠ b.toList.count '/') : a ≠ b :=
  fun heq => h (by rw [heq])

theorem nodup_special {g : Group} (h : g.WellNamed) (name : String) :
    (names.special g name).Nodup := by
  have hnamed : 0 < g.controller.toList.length := by
    refine List.length_pos_iff.2 fun hnil => h.named ?_
    exact String.toList_inj.1 hnil
  have hslash : g.controller.toList.count '/' = 0 :=
    List.count_eq_zero.2 h.slash_not_mem_controller
  -- Two folders of one root differ in length, since one has the controller's name in it.
  have hroot : ∀ root : String,
      root ++ g.controller ++ "/" ++ name ++ "/" ≠ root ++ name ++ "/" := by
    intro root
    apply ne_of_length_ne
    simp only [String.toList_append, List.length_append]
    omega
  have hone : "/".toList.length = 1 := rfl
  have hcount : "/".toList.count '/' = 1 := rfl
  unfold special roots
  cases harea : g.area? with
  | none =>
    simp only [List.flatMap_cons, List.flatMap_nil, List.append_nil, List.nodup_cons,
      List.mem_singleton, List.not_mem_nil, not_false_eq_true, List.nodup_nil, and_self, and_true]
    exact hroot _
  | some area =>
    have hslash' : area.toList.count '/' = 0 := by
      have : area = g.area := by
        unfold Group.area? at harea
        split at harea
        · cases harea
        · exact (Option.some.inj harea).symm
      rw [this]
      exact List.count_eq_zero.2 h.slash_not_mem_area
    simp only [List.flatMap_cons, List.flatMap_nil, List.append_nil, List.cons_append,
      List.nil_append, List.nodup_cons, List.mem_cons, List.not_mem_nil, or_false, not_or,
      not_false_eq_true, List.nodup_nil, and_true]
    -- Folders of different roots differ in length, except perhaps the area's shared folder and the
    -- controller's folder of the site; these differ in the number of slashes.
    refine ⟨⟨hroot _, ?_, ?_⟩, ⟨?_, ?_⟩, hroot _⟩
    · apply ne_of_length_ne
      simp only [toString, String.toList_append, List.length_append, hone]
      omega
    · apply ne_of_length_ne
      simp only [toString, String.toList_append, List.length_append, hone]
      omega
    · apply ne_of_slashes_ne
      simp only [toString, String.toList_append, List.count_append, hslash, hslash', hcount]
      omega
    · apply ne_of_length_ne
      simp only [toString, String.toList_append, List.length_append, hone]
      omega

theorem special_ne_nil (g : Group) (name : String) : names.special g name ≠ [] := by
  unfold special roots
  cases g.area? <;> simp

theorem endsInSlash_partialFolders (g : Group) :
    ∀ folder ∈ names.partialFolders g, EndsInSlash folder :=
  names.endsInSlash_special g names.partials

theorem nodup_partialFolders {g : Group} (h : g.WellNamed) : (names.partialFolders g).Nodup :=
  names.nodup_special h names.partials

theorem partialFolders_ne_nil (g : Group) : names.partialFolders g ≠ [] :=
  names.special_ne_nil g names.partials

end FolderNames

/-! ## Files in memory -/

/-- What can be read has a fingerprint. -/
theorem Report.marked_of_read {r : Report} (h : ∀ path text, r.read path = .ok text →
      (r.fingerprint path).toOption.isSome = true) (extension : String) (site : Library)
    (folders : List String) : r.Marked extension site folders := by
  intro path nodes hrow
  obtain ⟨text, htext, -⟩ := Option.bind_eq_some_iff.1 ((nodes_of_mem_fates hrow).1 nodes rfl)
  cases hread : r.read path with
  | error err =>
    rw [hread] at htext
    cases htext
  | ok text' => exact h path text' hread

theorem Memory.marked (m : Memory) (extension : String) (site : Library) (folders : List String) :
    m.report.Marked extension site folders := by
  refine Report.marked_of_read (fun path text hread => ?_) extension site folders
  change ((m.read path).map digest).toOption.isSome = true
  rw [show m.read path = .ok text from hread]
  rfl

/-- **Files in memory are told of.** -/
theorem Memory.tells {m : Memory} (h : Sorted.Ascending m.files) :
    m.report.Tells (· < ·) digest some fun path => m.files.lookup path where
  ordered folder := by
    change (m.list folder).Pairwise (· < ·)
    rw [m.list_eq_listing h]
    exact pairwise_listing h _
  direct folder path hmem := by
    change path ∈ m.list folder at hmem
    rw [m.list_eq_listing h] at hmem
    exact (mem_listing.1 hmem).2
  fingerprint path fingerprint hfingerprint := by
    have hread : (m.read path).map digest = .ok fingerprint := hfingerprint
    unfold read at hread
    cases hfile : m.files.lookup path with
    | none => simp [hfile, Except.map] at hread
    | some content =>
      simp only [hfile, Except.map, Except.ok.injEq] at hread
      exact ⟨content, rfl, hread⟩
  read path content hfile := by
    change (m.read path).toOption = some content
    unfold read
    simp only [hfile]
    rfl

namespace Memory

variable (m : Memory) (extension : String) (site : Template.Library) (folders : List String)

theorem add_report : m.report.add extension = Plain.add m.files extension := by
  funext g path
  have hread : m.report.read path = m.read path := rfl
  unfold Report.add Plain.add
  rw [hread, read]
  cases m.files.lookup path <;> rfl

variable {m} (h : Sorted.Ascending m.files)

include h

theorem scan_report : m.report.scan extension folders = Plain.scan m.files extension folders := by
  refine List.flatMap_congr fun folder _ => congrArg _ ?_
  change (if m.isFolder folder then m.list folder else []) = _
  rw [← m.list_eq_listing h]
  split
  · rfl
  · next hfolder => exact (m.list_of_not_isFolder (Bool.not_eq_true _ ▸ hfolder)).symm

theorem gather_report :
    (m.report.scan extension folders).foldl (m.report.add extension)
        { library := site, tokens := [] } =
      Plain.gather m.files extension site folders := by
  rw [scan_report extension folders h, add_report]
  rfl

theorem config_report : m.report.config extension site folders =
    (Plain.gather m.files extension site folders).config :=
  congrArg Gathering.config (gather_report extension site folders h)

theorem snapshot_report (key : String) : m.report.snapshot extension site folders key =
    Plain.snapshot m.files extension site folders key := by
  obtain ⟨hyields, hattempted⟩ := m.report.yields extension site (m.report.scan extension folders)
  rw [gather_report extension site folders h] at hyields hattempted
  have hdigests : ∀ paths, m.report.fingerprints paths = Plain.digests m.files paths := by
    refine fun paths => List.filterMap_congr fun path _ => ?_
    change ((m.read path).map digest).toOption.map _ = _
    unfold read
    generalize digest = print
    cases m.files.lookup path <;> rfl
  unfold Report.snapshot Plain.snapshot Report.walk
  rw [← hattempted, hdigests, ← hyields.ignored]
  rfl

end Memory

/-! ## What a poller that finds no difference knows -/

/-- All contents of some files are among these. -/
def ContentsIn (contents : Set String) (files : List (String × String)) : Prop :=
  ∀ path source, files.lookup path = some source → source ∈ contents

theorem Snapshot.compare_source (snap : Snapshot) (known ignored : Nat) (paths : List String)
    (scene : Scene Memory) : (snap.compare Memory.source known ignored paths scene).2 = scene := by
  induction paths generalizing known ignored with
  | nil => rfl
  | cons path paths ih =>
    unfold compare
    cases snap.fingerprints.lookup path with
    | none =>
      simp only
      split
      · exact ih _ _
      · rfl
    | some expected =>
      simp only [bind_apply, fingerprint_source]
      cases (scene.world.read path).map Memory.digest with
      | error _ => rfl
      | ok current =>
        simp only
        split
        · exact ih _ _
        · rfl

/-- Looking whether the folders are as they were leaves the scene alone. -/
theorem Snapshot.isUnchanged_source (snap : Snapshot) (extension : String) {scene : Scene Memory}
    (h : Sorted.Ascending scene.world.files) :
    (snap.isUnchanged Memory.source extension scene).2 = scene := by
  simp only [isUnchanged, bind_apply, scanPartials_source extension snap.folders h, pure_apply]
  exact snap.compare_source 0 0 _ scene

/-- **A poller that finds no difference is right**: the group's partials would be put together as
they were for the snapshot. -/
theorem Plain.gather_of_isUnchanged {files₀ : List (String × String)} {scene : Scene Memory}
    {folders : List String} {contents : Set String} (h₀ : Sorted.Ascending files₀)
    (h : Sorted.Ascending scene.world.files) (hslash : ∀ folder ∈ folders, EndsInSlash folder)
    (hnodup : folders.Nodup) (hin₀ : ContentsIn contents files₀)
    (hin : ContentsIn contents scene.world.files)
    (hdigest : Set.InjOn Memory.digest contents)
    (extension : String) (site : Template.Library) (key : String)
    (hsame : ((snapshot files₀ extension site folders key).isUnchanged Memory.source extension
      scene).1 = true) :
    (gather scene.world.files extension site folders).config =
      (gather files₀ extension site folders).config := by
  let m₀ : Memory := { files := files₀, push := false }
  have hbefore : m₀.report.Tells (· < ·) Memory.digest some fun path => m₀.files.lookup path :=
    Memory.tells h₀
  have hsnap : snapshot files₀ extension site folders key =
      m₀.report.snapshot extension site folders key :=
    (Memory.snapshot_report (m := m₀) extension site folders h₀ key).symm
  have hmarked : m₀.report.Marked extension site folders := Memory.marked m₀ extension site folders
  obtain ⟨hknown, hunknown, hfits⟩ :=
    (Memory.reports scene.world).of_isUnchanged ⟨rfl, rfl⟩ hsame
  have hdistinct : Set.InjOn Memory.digest {content | ∃ path,
      m₀.files.lookup path = some content ∨ scene.world.files.lookup path = some content} := by
    refine hdigest.mono ?_
    rintro content ⟨path, hfile | hfile⟩
    · exact hin₀ path content hfile
    · exact hin path content hfile
  obtain ⟨hconfig, -⟩ := Report.config_of_fits hbefore (Memory.tells h) (fun _ _ => lt_asymm)
    hdistinct hslash hnodup hmarked hsnap hknown hunknown hfits
  rwa [Memory.config_report extension site folders h,
    Memory.config_report (m := m₀) extension site folders h₀] at hconfig

end Templating
