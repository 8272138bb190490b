import Templating.Proofs.Engine.Mirror
import Templating.Proofs.Engine.Precedence
import Templating.Proofs.Engine.Snapshot
import Templating.Proofs.Source.Observing

/-!
# What a poller lets stand

A poller puts its snapshot back when it finds the folders as they were, and then the partials stand
on. This is right if every file that was registered has its digest in the snapshot: to put the
partials together again would come to the same (`Engine.rebuilt_alike`). A file whose fingerprint
could not be had is registered without one, and when it goes the poller does not miss it
(`Guild.rearmed_without_partial`).
-/

namespace Templating

open Template (Library)

theorem Source.Reports.fst_fingerprints {W : Type} {s : Source W} {Q : W → Prop} {r : Report}
    (h : s.Reports Q r) {scene : Scene W} (hQ : Q scene.world) (g : Gathering) :
    (g.fingerprints s scene).1 = Sorted.ofList (r.fingerprints g.attempted) := by
  rw [Gathering.fingerprints_eq]
  congr 1
  generalize g.attempted = paths
  induction paths generalizing scene with
  | nil => rfl
  | cons path paths ih =>
    have hanswer := h.fingerprint path scene hQ
    unfold Report.fingerprints
    rw [Gathering.takings, List.filterMap_cons, List.filterMap_cons,
      ih (h.still.fingerprint path scene hQ).1]
    unfold Gathering.answered?
    simp only [hanswer]
    cases r.fingerprint path <;> rfl

namespace Engine

variable {W : Type} {e : Engine W} {g : Group} {Q : W → Prop} {r : Report} {before : Scene W}
  (h : e.source.Reports Q r) (hQ : Q before.world)

include h hQ

theorem gathering_config :
    (e.gathering g before).1.config =
      r.config e.options.extension e.site (e.options.folders.partialFolders g) :=
  h.gather hQ _ _

/-- **A build** comes to partials and to a snapshot that the report tells. -/
theorem Builds.of_reports {v : GroupConfig} {snap : Snapshot} (hbuilds : e.Builds g before v snap) :
    v = r.config e.options.extension e.site (e.options.folders.partialFolders g) ∧
      snap = r.snapshot e.options.extension e.site (e.options.folders.partialFolders g)
        (e.keys.config g) := by
  obtain ⟨after, hworld, -, rfl, rfl⟩ := hbuilds
  refine ⟨gathering_config h hQ, ?_⟩
  have hafter : Q after.world := by
    rw [← hworld]
    exact (h.still.gather (Scene.course_still Q) _ _ _ _ hQ).1
  obtain ⟨hyields, hattempted⟩ := r.yields e.options.extension e.site
    (r.scan e.options.extension (e.options.folders.partialFolders g))
  have hbare : (e.gathering g before).1.bare = _ :=
    h.gather_bare hQ e.site (e.options.folders.partialFolders g)
  rw [← hbare] at hyields hattempted
  unfold Report.snapshot
  rw [h.fst_fingerprints hafter]
  congr 1
  · exact congrArg (fun paths => Sorted.ofList (r.fingerprints paths)) hattempted
  · exact congrArg List.eraseDups hyields.ignored

end Engine

/-! ## Builds -/

theorem Source.Reports.world_readings {W : Type} {s : Source W} {Q : W → Prop} {r : Report}
    (h : s.Reports Q r) {extension : String} {g : Gathering} {paths : List String}
    {scene : Scene W} (hQ : Q scene.world) :
    ∀ call ∈ Gathering.readings s extension g paths scene, Q call.2.world := by
  induction paths generalizing g scene with
  | nil => exact List.forall_mem_nil _
  | cons path paths ih =>
    have hrest := ih (g := (Gathering.add s extension g path scene).1)
      (h.still.add (Scene.course_still Q) extension g path scene hQ).1
    unfold Gathering.readings
    split
    · exact hrest
    · exact List.forall_mem_cons.2 ⟨(h.changeToken?_still path scene hQ).1, hrest⟩

namespace Engine

open Session.Steady (Rests)

variable {W : Type} {e : Engine W} {g : Group} {Q : W → Prop} {r : Report} {before : Scene W}

/-- The files that are registered when a group's partials are gathered, with the texts that are
read. -/
def registered (e : Engine W) (g : Group) (before : Scene W) : List (String × String) :=
  (e.readings g before).filterMap fun call =>
    (e.source.read call.1 call.2).1.toOption.bind fun text =>
      if (Template.Node.ofSource? text).isSome then some (call.1, text) else none

theorem registered_eq (h : e.source.Reports Q r) (hQ : Q before.world) :
    e.registered g before =
      r.sources e.options.extension e.site (e.options.folders.partialFolders g) := by
  let folders := e.options.folders.partialFolders g
  have hworld : ∀ call ∈ e.readings g before, Q call.2.world := by
    refine h.world_readings ?_
    refine (h.still.scanPartials (Scene.course_still Q) e.options.extension folders _ ?_).1
    exact (Act.Follows.filterMapM (Scene.course_still Q) h.changeToken?_still folders before hQ).1
  have hattempted : (e.readings g before).map Prod.fst =
      Fate.readFiles (r.walk e.options.extension e.site folders) := by
    rw [← (e.gathering_eq g before).2]
    have hbare : (e.gathering g before).1.bare = _ := h.gather_bare hQ e.site folders
    obtain ⟨-, hattempted⟩ := r.yields e.options.extension e.site
      (r.scan e.options.extension folders)
    rw [← hbare] at hattempted
    exact hattempted
  rw [Report.sources_eq, ← hattempted, List.filterMap_map]
  refine List.filterMap_congr fun call hcall => ?_
  simp only [Function.comp, h.read call.1 call.2 (hworld call hcall)]

theorem fst_build (e : Engine W) (now : Instant) (g : Group) (s : Session Entry (Poller W) W) :
    (e.build now g s).1 = (e.gathering g (e.ensureGlobal now s).2.scene).1.config := by
  unfold build
  simp only [bind_apply]
  split <;> rfl

/-- Snapshots stand where `P` allows. -/
def Allows (P : String → Snapshot → Prop) (key : String) (value : Entry)
    (_ : Options (Poller W)) : Prop :=
  ∀ snap, value = .poll snap → P key snap

section Allows

variable {P : String → Snapshot → Prop} {now : Instant} {s : Session Entry (Poller W) W}

theorem Allows.plain {key : String} {value : Entry} {options : Options (Poller W)}
    (h : ∀ snap, value ≠ .poll snap) : Allows P key value options :=
  fun snap hsnap => absurd hsnap (h snap)

variable (P now) in
theorem steady_allows : Session.Steady (Poller.moment now) (fun _ _ => Allows P)
    (Cache.Holds (Allows P)) fun _ : W => True := by
  refine Session.steady_holds (fun _ _ _ _ _ _ => trivial) fun _ _ _ _ _ hheld _ hrenewed => ?_
  obtain ⟨snap, hvalue, -, rfl, -⟩ := Poller.of_reinsert hrenewed
  rintro _ ⟨⟩
  exact hheld snap hvalue

/-- A build stores no snapshot but its own. -/
theorem allows_build (h : Rests (Cache.Holds (Allows P)) (fun _ => True) s)
    (hmade : ∀ key snap, e.Builds g (e.ensureGlobal now s).2.scene (e.build now g s).1 snap →
      P key snap) : Rests (Cache.Holds (Allows P)) (fun _ => True) (e.build now g s).2 := by
  have k := steady_allows (W := W) P now
  let before := (e.ensureGlobal now s).2.scene
  let After (found : Gathering) (s : Session Entry (Poller W) W) : Prop :=
    (e.gathering g before).1 = found ∧ (e.gathering g before).2.world = s.scene.world
  rw [fst_build] at hmade
  refine answers_build (P := (· = s))
    (A := fun s => Rests (Cache.Holds (Allows P)) (fun _ => True) s ∧ s.scene = before)
    (B := fun found s => Rests (Cache.Holds (Allows P)) (fun _ => True) s ∧ After found s)
    (C := fun found _ s => Rests (Cache.Holds (Allows P)) (fun _ => True) s ∧ After found s)
    (D := fun found fingerprints s => Rests (Cache.Holds (Allows P)) (fun _ => True) s ∧
      ∀ key, P key ⟨e.options.folders.partialFolders g, fingerprints, found.ignored.eraseDups,
        e.keys.config g⟩)
    (R := fun _ => Rests (Cache.Holds (Allows P)) fun _ => True)
    ?global ?gather ?insert ?fingerprints ?arm (fun _ _ _ _ hs => hs.1) (fun _ _ hs => hs) s rfl
  case global =>
    rintro _ rfl
    have hensure : Work.Takes (Rests (Cache.Holds (Allows P)) fun _ => True)
        (Rests (Cache.Holds (Allows P)) fun _ => True) (e.ensureGlobal now) :=
      .bind (k.insertIfAbsent fun _ _ => .plain nofun) fun _ => .pure _
    exact ⟨hensure _ h, rfl⟩
  case gather =>
    rintro s ⟨hs, hscene⟩
    refine ⟨⟨hs.1, trivial⟩, ?_, ?_⟩ <;> rw [← hscene] <;> rfl
  case insert =>
    rintro found s ⟨hs, hfound, hworld⟩
    exact ⟨k.insert (fun _ _ => .plain fun _ => Entry.noConfusion) s hs, hfound,
      hworld.trans (Session.world_insert hs.1.linked _ _ _).symm⟩
  case fingerprints =>
    rintro _ htokens s ⟨hs, rfl, hworld⟩
    exact ⟨⟨hs.1, trivial⟩, fun key => hmade key _ ⟨s.scene, hworld, htokens, rfl, rfl⟩⟩
  case arm =>
    rintro found fingerprints s ⟨hs, hown⟩
    have harm : Work.Takes (Rests (Cache.Holds (Allows P)) fun _ => True)
        (Rests (Cache.Holds (Allows P)) fun _ => True)
        (e.arm now ⟨e.options.folders.partialFolders g, fingerprints, found.ignored.eraseDups,
          e.keys.config g⟩) := by
      refine .bind (takes_onScene .takeSerial) fun serial => .bind (k.insert fun _ _ => ?_)
        fun _ => .pure _
      intro snap hsnap
      cases hsnap
      exact hown _
    exact harm s hs

/-- **A snapshot that a build stores** is what the build comes to. -/
theorem builds_of_polls (h : s.cache.Linked) {guard : String} {snap : Snapshot}
    (hpolls : (e.build now g s).2.cache.Polls guard snap) (hnew : ¬s.cache.Polls guard snap) :
    e.Builds g (e.ensureGlobal now s).2.scene (e.build now g s).1 snap := by
  have hbefore : Rests (Cache.Holds (Allows fun key snap => s.cache.Polls key snap ∨
      e.Builds g (e.ensureGlobal now s).2.scene (e.build now g s).1 snap)) (fun _ => True) s :=
    ⟨⟨h, fun key slot hget snap hsnap => .inl ⟨slot, hget, hsnap⟩, nofun⟩, trivial⟩
  obtain ⟨slot, hget, hvalue⟩ := hpolls
  have hafter := (allows_build hbefore fun key snap => .inr).1.stored guard slot hget snap hvalue
  exact hafter.resolve_left hnew

end Allows

/-- **A poller that lets partials stand is right.** A build has stored the snapshot while the source
reported `r`. Later it reports `r'`. Both tell of the files the way that a store does, and the
texts that they tell of have digests of their own. Every file that was registered had a fingerprint.
If the snapshot is found unchanged now, then to build again registers the same partials, from the
same texts in the same order, and ignores the same files. -/
theorem rebuilt_alike {β : Type} {g : Group.Made} {now later : Instant}
    {s s' : Session Entry (Poller W) W} {checked : Scene W} {Q' : W → Prop} {r' : Report}
    {order : String → String → Prop} {digest : β → String} {text? : β → Option String}
    {content? content'? : String → Option β} {guard : String} {snap : Snapshot}
    (hlinked : s.cache.Linked) (hpolls : (e.build now g.1 s).2.cache.Polls guard snap)
    (hnew : ¬s.cache.Polls guard snap)
    (hbuild : e.source.Reports Q r) (hbefore : Q (e.ensureGlobal now s).2.scene.world)
    (hlater : e.source.Reports Q' r') (hchecked : Q' checked.world)
    (hafter : Q' (e.ensureGlobal later s').2.scene.world)
    (htells : r.Tells order digest text? content?)
    (htells' : r'.Tells order digest text? content'?) (horder : ∀ a b, order a b → ¬order b a)
    (hdigest : Set.InjOn digest {content | ∃ path, content? path = some content ∨
      content'? path = some content})
    (hmarked : r.Marked e.options.extension e.site (e.options.folders.partialFolders g.1))
    (hsame : (snap.isUnchanged e.source e.options.extension checked).1 = true) :
    (e.build later g.1 s').1 = (e.build now g.1 s).1 ∧
      e.registered g.1 (e.ensureGlobal later s').2.scene =
        e.registered g.1 (e.ensureGlobal now s).2.scene := by
  obtain ⟨hconfig, hsnap⟩ := (builds_of_polls hlinked hpolls hnew).of_reports hbuild hbefore
  have hfolders : snap.folders = e.options.folders.partialFolders g.1 := by rw [hsnap]; rfl
  obtain ⟨hknown, hunknown, hfits⟩ := hlater.of_isUnchanged hchecked hsame
  rw [hfolders] at hknown hunknown hfits
  obtain ⟨hsameConfig, hsources⟩ := Report.config_of_fits htells htells' horder hdigest
    (e.options.folders.endsInSlash_partialFolders g.1)
    (e.options.folders.nodup_partialFolders g.2) hmarked hsnap hknown hunknown hfits
  refine ⟨?_, ?_⟩
  · rw [fst_build, gathering_config hlater hafter, hsameConfig, ← hconfig]
  · rw [registered_eq hlater hafter, registered_eq hbuild hbefore, hsources]

end Engine

/-! ## Files in memory and in a folder -/

/-- **Files in a folder are told of**, if there is one node at a place and no slash in a name. -/
theorem Directory.tells {d : Directory} (hdistinct : (d.tree.nodes.map Prod.fst).Nodup)
    (hnames : ∀ node ∈ d.tree.nodes, ∀ name ∈ node.1, '/' ∉ name.toList) :
    d.report.Tells (· < ·) (fun content => Digest.Sha256.hexDigest content.toList)
      (fun content => (Text.Utf8.decode content).toOption)
      fun path => (d.readBytes path).toOption where
  ordered folder := pairwise_list hdistinct folder
  direct folder path hmem := by
    obtain ⟨inner, name, place, content, -, -, hnode, rfl⟩ := (mem_list_iff hdistinct).1 hmem
    rw [Tree.node?_of_ne_nil _ (Tree.append_singleton_ne_nil _ _)] at hnode
    refine isDirectChild_iff.2 ⟨name.toList, String.toList_append, ?_⟩
    exact hnames _ (mem_of_lookup hnode) name
      (List.mem_append_right _ (List.mem_singleton_self _))
  fingerprint path fingerprint hfingerprint := by
    have hread : (d.readBytes path).map (fun bytes => Digest.Sha256.hexDigest bytes.toList) =
        .ok fingerprint := hfingerprint
    cases hbytes : d.readBytes path with
    | error err => simp [hbytes, Except.map] at hread
    | ok bytes =>
      simp only [hbytes, Except.map, Except.ok.injEq] at hread
      exact ⟨bytes, rfl, hread⟩
  read path content hbytes := by
    change (d.read path).toOption = _
    unfold read
    cases hread : d.readBytes path with
    | error err =>
      rw [hread] at hbytes
      cases hbytes
    | ok bytes =>
      rw [hread] at hbytes
      cases hbytes
      change ((Text.Utf8.decode content).mapError _).toOption = _
      cases Text.Utf8.decode content <;> rfl

/-! ## A partial that is gone -/

namespace Guild

open Workshop

/-- Files in memory with a partial for every group. Some calls fail. -/
def crate (faults : List (Call × String)) : Observed Memory where
  inner := { files := [(clip, older)], push := false }
  faults

/-- The files when the partial was read, and fingerprints were asked for. -/
def unpacked (faults : List (Call × String)) (fingerprints : Nat) : Observed Memory :=
  { crate faults with usage := { list := 1, read := 1, fingerprint := fingerprints } }

/-- The session before partials are put together. -/
def packed (faults : List (Call × String)) : Studio :=
  ⟨grounded.cache, { journal := missed, world := crate faults }⟩

/-- The partials are kept, with a snapshot of these fingerprints. -/
def stowed (faults : List (Call × String)) (fingerprints : List (String × String)) : Studio :=
  guarding (heap older) fingerprints (.compiled .partialView true :: missed) (unpacked faults 1)

theorem build_packed {faults : List (Call × String)} {fingerprints : List (String × String)}
    (h : faults = [] ∧ fingerprints = [(clip, Memory.digest older)] ∨
      faults = [(.fingerprint, clip)] ∧ fingerprints = []) :
    shelver.build 0 home.1 (packed faults) = ((heap older).config, stowed faults fingerprints) := by
  have hgather : shelver.gathering home.1 { journal := missed, world := crate faults } =
      (heap older,
        { journal := .compiled .partialView true :: missed, world := unpacked faults 0 }) := by
    rcases h with ⟨rfl, -⟩ | ⟨rfl, -⟩ <;> exact gather_clip nodes_older rfl rfl rfl rfl
  refine build_grounded hgather rfl ?_
  rcases h with ⟨rfl, rfl⟩ | ⟨rfl, rfl⟩ <;> rfl

/-- The files when a page has been added. -/
def added : Observed Memory where
  inner := { files := [(clip, older), ("~/page.hbs", older)], push := false }

theorem linked_grounded : grounded.cache.Linked :=
  (Cache.Linked.dropAll bare.cache).place "p:global" 0 {} .global {}

/-- The snapshot of the partial. -/
def label : Snapshot :=
  ⟨snapshot.folders, [(clip, Memory.digest older)], [], snapshot.configKey⟩

theorem polls_packed : (shelver.build 0 home.1 (packed [])).2.cache.Polls
    (KeySpace.poller "p::Home:config" 0) label := by
  rw [build_packed (.inl ⟨rfl, rfl⟩)]
  exact ⟨_, rfl, rfl⟩

theorem eq_older {path content : String} (h : (crate []).inner.files.lookup path = some content ∨
    added.inner.files.lookup path = some content) : content = older := by
  simp only [crate, added, List.lookup_cons, List.lookup_nil] at h
  grind

theorem isUnchanged_label :
    (label.isUnchanged shelver.source ".hbs" { world := added }).1 = true := by
  let scanned : Scene (Observed Memory) := { world := { added with usage := { list := 1 } } }
  have hscan : scanPartials shelver.source ".hbs" label.folders { world := added } =
      ([clip], scanned) := rfl
  have hfingerprint : (shelver.source.fingerprint clip scanned).1 = .ok (Memory.digest older) := rfl
  have hlookup : label.fingerprints.lookup clip = some (Memory.digest older) := rfl
  have hcompare : (label.compare shelver.source 0 0 [clip] scanned).1 = some (1, 0) := by
    unfold Snapshot.compare
    simp only [hlookup]
    rw [bind_apply, hfingerprint]
    simp only [if_true]
    rfl
  unfold Snapshot.isUnchanged
  rw [bind_apply, hscan, bind_apply, hcompare]
  rfl

theorem ensureGlobal_grounded (now : Instant) (scene : Scene (Observed Memory)) :
    (shelver.ensureGlobal now ⟨grounded.cache, scene⟩).2.scene = scene := rfl

/-- A page that is added is no partial: the poller finds the folders as they were, and the partials
are put together as they were. -/
theorem rebuilt_alike_added :
    (shelver.build 5 home.1 ⟨grounded.cache, { world := added }⟩).1 =
        (shelver.build 0 home.1 (packed [])).1 ∧
      shelver.registered home.1
          (shelver.ensureGlobal 5 ⟨grounded.cache, { world := added }⟩).2.scene =
        shelver.registered home.1 (shelver.ensureGlobal 0 (packed [])).2.scene := by
  have hsource : (crate []).inner.report.Tells (· < ·) Memory.digest some
      fun path => (crate []).inner.files.lookup path :=
    Memory.tells (List.pairwise_singleton _ _)
  have hsource' : added.inner.report.Tells (· < ·) Memory.digest some
      fun path => added.inner.files.lookup path :=
    Memory.tells (List.pairwise_pair.2 (by decide))
  have hnew : ¬(packed []).cache.Polls (KeySpace.poller "p::Home:config" 0) label := by
    rintro ⟨slot, hget, -⟩
    cases hget
  have hdigest : Set.InjOn Memory.digest {content | ∃ path,
      (crate []).inner.files.lookup path = some content ∨
        added.inner.files.lookup path = some content} := by
    rintro a ⟨path, ha⟩ b ⟨path', hb⟩ -
    rw [eq_older ha, eq_older hb]
  have hquiet : ∀ world : Observed Memory, world.faults = [] → world.races = [] →
      world.inner.Same world.inner ∧ world.Quiet := fun _ hfaults hraces =>
    ⟨⟨rfl, rfl⟩, hfaults, hraces⟩
  refine Engine.rebuilt_alike (g := home) linked_grounded polls_packed hnew
    (Observed.reports (Memory.reports (crate []).inner)) ?_
    (Observed.reports (Memory.reports added.inner)) (hquiet added rfl rfl) ?_ hsource hsource'
    (fun a b => lt_asymm) hdigest (Report.marked_of_read (fun path text h => ?_) _ _ _)
    isUnchanged_label
  · rw [packed, ensureGlobal_grounded]
    exact hquiet _ rfl rfl
  · rw [ensureGlobal_grounded]
    exact hquiet _ rfl rfl
  · change ((crate []).inner.read path).map Memory.digest |>.toOption.isSome
    rw [show (crate []).inner.read path = .ok text from h]
    rfl

/-- The session in which no fingerprint could be had for the partial. -/
def bared : Studio := stowed [(.fingerprint, clip)] []

theorem run_crate : (start ⟨1⟩ 0 0 { world := crate [(.fingerprint, clip)] }).run opening =
    ⟨[shelver], 0, bared⟩ := by
  have hconfig : shelver.config 0 home.1 (opened (crate [(.fingerprint, clip)])) =
      ((heap older).config, bared) :=
    (config_grounded _ _).trans (build_packed (.inr ⟨rfl, rfl⟩))
  rw [run_opening, hconfig]

/-- The scene when the partial is removed. -/
def gone : Scene (Observed Memory) := ((Observed.store Memory.store).remove clip bared.scene).2

theorem build_gone : (shelver.build 5 home.1 ⟨bared.cache, gone⟩).1.partials = [] := by
  have hscene : (shelver.ensureGlobal 5 ⟨bared.cache, gone⟩).2.scene = gone := rfl
  rw [Engine.fst_build, hscene]
  rfl

/-- The snapshot of the partial without its fingerprint. -/
def blank : Snapshot := ⟨snapshot.folders, [], [], snapshot.configKey⟩

theorem isUnchanged_blank : (blank.isUnchanged shelver.source ".hbs" gone).1 = true := rfl

/-- **A snapshot without the partial.** No fingerprint could be had for the partial when it was
read. When its file is removed, a poller finds the folders as they were, and lets the partials
stand; put together anew, they are none. -/
theorem rearmed_without_partial :
    let s := ((start ⟨1⟩ 0 0 { world := crate [(.fingerprint, clip)] }).run opening).session
    let later := ((Observed.store Memory.store).remove clip s.scene).2
    s.scene.world.inner.files = [(clip, older)] ∧ s.scene.world.races.isEmpty = true ∧
      ∃ guard snap slot v, s.cache.Polls guard snap ∧
        s.cache.entries.get? snap.configKey = some slot ∧ slot.value = .config v ∧
          v.partials = ["a"] ∧ (snap.isUnchanged shelver.source ".hbs" later).1 = true ∧
            (shelver.build 5 home.1 ⟨s.cache, later⟩).1.partials = [] := by
  intro s later
  have hs : s = bared := congrArg (·.session) run_crate
  have hlater : later = gone :=
    congrArg (fun s : Studio => ((Observed.store Memory.store).remove clip s.scene).2) hs
  have hpolls : bared.cache.Polls (KeySpace.poller "p::Home:config" 0) blank := ⟨_, rfl, rfl⟩
  have hget : bared.cache.entries.get? blank.configKey =
      some ⟨.config (heap older).config, { keys := ["p:global"] }, 0⟩ := rfl
  rw [hlater, hs]
  exact ⟨rfl, rfl, _, blank, _, _, hpolls, hget, rfl, rfl, isUnchanged_blank, build_gone⟩

end Guild

end Templating
