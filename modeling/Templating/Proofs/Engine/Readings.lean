import Templating.Proofs.Engine.Guild

/-!
# What a snapshot describes

A group's partial files are read one after the other, and when all of them have been read and the
partials are stored, their fingerprints are taken in a second round. A file may change between the
two rounds. `Gathering.readings` and `Gathering.takings` are the calls of a build, each with the
scene in which it is made.

For every snapshot that is stored (`Guild.snapshot_describes`): a file that was, when its
fingerprint was taken, as it had been when it was read, has the fingerprint of the very text that
the stored partials were made from. For a file that has changed in between this need not be so
(`Guild.snapshot_of_other_text`).
-/

namespace Templating

/-! ## Calls of a build -/

/-- The library when a partial file was read: with its template, if there is one to be had. -/
def Template.Library.withAnswer (l : Template.Library) (extension path : String) :
    Except StoreError String → Template.Library
  | .ok source => (l.register (partialName extension path) source).toOption.getD l
  | .error _ => l

namespace Gathering

variable {W : Type} (s : Source W) (extension : String)

/-- The calls that read files while partials are put together. -/
def readings : Gathering → List String → Scene W → List (String × Scene W)
  | _, [], _ => []
  | g, path :: paths, scene =>
    let next := add s extension g path scene
    let rest := readings next.1 paths next.2
    if g.library.has (partialName extension path) = true then rest
    else (path, (s.changeToken? path scene).2) :: rest

/-- The calls that take the fingerprints of files. -/
def takings : List String → Scene W → List (String × Scene W)
  | [], _ => []
  | path :: paths, scene => (path, scene) :: takings paths (s.fingerprint path scene).2

variable {s extension}

/-- A file whose name is taken is not read. -/
theorem add_of_taken {g : Gathering} {path : String} (scene : Scene W)
    (h : g.library.has (partialName extension path) = true) :
    add s extension g path scene = ({ g with ignored := g.ignored ++ [path] }, scene) := by
  unfold add
  simp only [h, if_true]
  rfl

/-- Any other file is read. -/
theorem add_of_free {g : Gathering} {path : String} (scene : Scene W)
    (h : ¬g.library.has (partialName extension path) = true) :
    let next := (add s extension g path scene).1
    next.library = g.library.withAnswer extension path
        (s.read path (s.changeToken? path scene).2).1 ∧
      next.attempted = g.attempted ++ [path] := by
  intro next
  let registered : Option Template.Library :=
    match (s.read path (s.changeToken? path scene).2).1 with
    | .ok source => (g.library.register (partialName extension path) source).toOption
    | .error _ => none
  have hnext : next = g.withPartial (partialName extension path) path
      (s.changeToken? path scene).1 registered := by
    unfold next add
    simp only [h]
    rfl
  rw [hnext]
  refine ⟨?_, rfl⟩
  change registered.getD g.library = _
  unfold registered
  cases (s.read path (s.changeToken? path scene).2).1 <;> rfl

/-- **The partials are made from what was read**, and these are the files whose fingerprints are
taken. -/
theorem foldlM_add (g : Gathering) (paths : List String) (scene : Scene W) :
    let found := (paths.foldlM (add s extension) g scene).1
    let calls := readings s extension g paths scene
    found.library = calls.foldl (fun l call =>
        l.withAnswer extension call.1 (s.read call.1 call.2).1) g.library ∧
      found.attempted = g.attempted ++ calls.map Prod.fst := by
  induction paths generalizing g scene with
  | nil => exact ⟨rfl, (List.append_nil _).symm⟩
  | cons path paths ih =>
    obtain ⟨hlibrary, hattempted⟩ := ih (add s extension g path scene).1
      (add s extension g path scene).2
    simp only [List.foldlM_cons, bind_apply, readings]
    rw [hlibrary, hattempted]
    by_cases h : g.library.has (partialName extension path) = true
    · rw [if_pos h, add_of_taken scene h]
      exact ⟨rfl, rfl⟩
    · obtain ⟨hnext, hread⟩ := add_of_free (s := s) scene h
      rw [if_neg h, hnext, hread, List.append_assoc]
      exact ⟨rfl, rfl⟩

theorem map_fst_takings (paths : List String) (scene : Scene W) :
    (takings s paths scene).map Prod.fst = paths := by
  induction paths generalizing scene with
  | nil => rfl
  | cons path paths ih => exact congrArg (path :: ·) (ih _)

/-- The fingerprint that a call answers, with the path. -/
def answered? (s : Source W) (call : String × Scene W) : Option (String × String) :=
  match (s.fingerprint call.1 call.2).1 with
  | .ok digest => some (call.1, digest)
  | .error _ => none

/-- **The fingerprints are what the calls answer**, of two for one path the later. -/
theorem fingerprints_eq (g : Gathering) (scene : Scene W) :
    (g.fingerprints s scene).1 =
      Sorted.ofList ((takings s g.attempted scene).filterMap (answered? s)) := by
  unfold fingerprints
  rw [bind_apply]
  refine congrArg Sorted.ofList ?_
  generalize g.attempted = paths
  induction paths generalizing scene with
  | nil => rfl
  | cons path paths ih =>
    rw [List.filterMapM_cons, bind_apply, bind_apply, takings, List.filterMap_cons, ← ih]
    unfold answered?
    cases (s.fingerprint path scene).1 <;> rfl

theorem taken_of_lookup {g : Gathering} {path digest : String} {scene : Scene W}
    (h : (g.fingerprints s scene).1.lookup path = some digest) :
    ∃ taken, (path, taken) ∈ takings s g.attempted scene ∧
      (s.fingerprint path taken).1 = .ok digest := by
  rw [fingerprints_eq] at h
  obtain ⟨⟨path', taken⟩, hcall, hanswered⟩ :=
    List.mem_filterMap.1 (Sorted.mem_of_lookup_ofList h)
  unfold answered? at hanswered
  split at hanswered
  · next digest' hanswer =>
    cases hanswered
    exact ⟨taken, hcall, hanswer⟩
  · cases hanswered

end Gathering

namespace Engine

variable {W : Type}

/-- The calls that read the partial files of a group when its partials are put together. -/
def readings (e : Engine W) (g : Group) (before : Scene W) : List (String × Scene W) :=
  let folders := e.options.folders.partialFolders g
  let tokens := folders.filterMapM e.source.changeToken? before
  let paths := scanPartials e.source e.options.extension folders tokens.2
  Gathering.readings e.source e.options.extension { library := e.site, tokens := tokens.1 } paths.1
    paths.2

/-- The calls that take the fingerprints of these files in a scene. -/
def takings (e : Engine W) (g : Group) (before after : Scene W) : List (String × Scene W) :=
  Gathering.takings e.source ((e.readings g before).map Prod.fst) after

/-- The partials are made from what was read, and right behind that the fingerprints of the snapshot
were taken. Where a file was then as it had been when it was read, it has the fingerprint of the
text that was read. -/
structure Depicts (e : Engine W) (g : Group) (files : W → String → Option String)
    (digest : String → String) (before after : Scene W) (v : GroupConfig) (snap : Snapshot) :
    Prop where
  behind : (e.gathering g before).2.world = after.world
  library : v.library = (e.readings g before).foldl (fun l call =>
    l.withAnswer e.options.extension call.1 (e.source.read call.1 call.2).1) e.site
  fingerprints : ∀ path fingerprint, snap.fingerprints.lookup path = some fingerprint →
    path ∈ (e.readings g before).map Prod.fst ∧
      ∃ taken, (path, taken) ∈ e.takings g before after ∧
        ∀ read, (path, read) ∈ e.readings g before →
          files read.world path = files taken.world path →
            ∃ text, files read.world path = some text ∧ digest text = fingerprint ∧
              ((e.source.read path read).1 = .ok text ∨
                ∃ err, (e.source.read path read).1 = .error err)

theorem gathering_eq (e : Engine W) (g : Group) (before : Scene W) :
    (e.gathering g before).1.library = (e.readings g before).foldl (fun l call =>
        l.withAnswer e.options.extension call.1 (e.source.read call.1 call.2).1) e.site ∧
      (e.gathering g before).1.attempted = (e.readings g before).map Prod.fst :=
  Gathering.foldlM_add { library := e.site, tokens := _ } _ _

/-- **A build depicts its files**, if the source tells what they hold. -/
theorem Builds.depicts {e : Engine W} {g : Group} {before : Scene W} {v : GroupConfig}
    {snap : Snapshot} {files : W → String → Option String} {digest : String → String}
    (h : e.Builds g before v snap) (hsource : e.source.Candid files digest) :
    ∃ after, e.Depicts g files digest before after v snap := by
  obtain ⟨after, hbehind, -, rfl, rfl⟩ := h
  obtain ⟨hlibrary, hattempted⟩ := e.gathering_eq g before
  refine ⟨after, hbehind, hlibrary, fun path fingerprint hlookup => ?_⟩
  obtain ⟨taken, hcall, htaken⟩ := Gathering.taken_of_lookup hlookup
  rw [hattempted] at hcall
  refine ⟨?_, taken, hcall, fun read _ hsame => ?_⟩
  · rw [← Gathering.map_fst_takings (s := e.source) ((e.readings g before).map Prod.fst) after]
    exact List.mem_map_of_mem hcall
  · obtain ⟨text, hfile, hdigest⟩ := hsource.fingerprint_ok path taken fingerprint htaken
    refine ⟨text, hsame.trans hfile, hdigest, ?_⟩
    cases hread : (e.source.read path read).1 with
    | error err => exact .inr ⟨err, rfl⟩
    | ok text' =>
      have hheld := hsource.read_ok path read text' hread
      rw [hsame, hfile] at hheld
      cases hheld
      exact .inl rfl

end Engine

/-! ## Stored snapshots -/

namespace Guild

variable {W : Type}

/-- **A snapshot describes the partials that it guards**, as far as files stay as they are between
the two rounds. Between any two operations of engines that share a cache, whatever changes behind
the calls: under the key that a stored snapshot names stand partials which one of the engines has
made from the texts that it read in the course of the run, and the snapshot has for a path the
fingerprint of the very text that was read there, if the file was, when the fingerprint was taken,
as it had been when it was read. -/
theorem snapshot_describes (flag : Flag) (epoch now : Instant) (scene : Scene W)
    {files : Source W → W → String → Option String} {digest : String → String}
    {moves : List (Move W)}
    (hmoves : ∀ move ∈ moves, move.Orderly fun source => source.Candid (files source) digest) :
    let σ := start flag epoch now scene
    let cache := (σ.run moves).session.cache
    ∀ guard snap, cache.Polls guard snap →
      ∃ slot v, cache.entries.get? snap.configKey = some slot ∧ slot.value = .config v ∧
        ∃ e g before after, σ.Began moves e g before ∧ snap.configKey = e.keys.config g.1 ∧
          e.Depicts g.1 (files e.source) digest before after v snap := by
  intro σ cache guard snap hpoll
  have horderly := (Orderly.start _ (fun e g before => e.source.Candid (files e.source) digest ∧
    σ.Began moves e g before) flag epoch now scene).run hmoves
      fun _ _ _ hsource hbegan => ⟨hsource, hbegan⟩
  obtain ⟨-, slot, v, hget, hvalue, -, e, g, before, ⟨hsource, hbegan⟩, hkey, hbuilds⟩ :=
    horderly.guards hpoll
  obtain ⟨after, hdepicts⟩ := hbuilds.depicts hsource
  exact ⟨slot, v, hget, hvalue, e, g, before, after, hbegan, hkey, hdepicts⟩

/-! ## A snapshot of another text -/

open Workshop

def clip : String := "~/Views/_Partials/a.hbs"

/-- Files in memory with a partial for every group. A change of it is set up behind a call. -/
def tray (call : Call) (path : String) : Observed Memory where
  inner := { files := [(clip, older)], push := false }
  races := [⟨call, path, clip, some newer⟩]

/-- The files when the partial was read and the change is made. -/
def turned : Observed Memory where
  inner := { files := [(clip, newer)], push := false }
  usage := { list := 1, read := 1 }

/-- The group's templates with a partial made from a text. -/
def heap (text : String) : Gathering where
  library := (({} : Template.Library).register "a" text).toOption.getD {}
  tokens := []
  partials := ["a"]
  attempted := [clip]

/-- Behind the call that lists the folder, the change is made before the partial is read; behind the
one that reads it, the old text was read. -/
def Reads (call : Call) (path text : String) : Prop :=
  call = .list ∧ path = "~/Views/_Partials/" ∧ text = newer ∨
    call = .read ∧ path = clip ∧ text = older

theorem scan_tray {call : Call} {path text : String} (h : Reads call path text)
    (journal : List Event) :
    ∃ listed : Observed Memory,
      snapshot.folders.filterMapM shelver.source.changeToken?
          { journal, world := tray call path } = ([], { journal, world := tray call path }) ∧
      scanPartials shelver.source ".hbs" snapshot.folders { journal, world := tray call path } =
        ([clip], { journal, world := listed }) ∧
      shelver.source.changeToken? clip { journal, world := listed } =
        (none, { journal, world := listed }) ∧
      shelver.source.read clip { journal, world := listed } =
        (.ok text, { journal, world := turned }) := by
  rcases h with ⟨rfl, rfl, rfl⟩ | ⟨rfl, rfl, rfl⟩
  · exact ⟨{ turned with usage.read := 0 }, rfl, rfl, rfl, rfl⟩
  · exact ⟨{ tray .read clip with usage.list := 1 }, rfl, rfl, rfl, rfl⟩

/-- The partial is the one file that is found and read. -/
theorem gather_clip {text : String} {world listed turned : Observed Memory} {journal : List Event}
    (hnodes : (Template.Node.ofSource? text).isSome = true)
    (htokens : snapshot.folders.filterMapM shelver.source.changeToken? { journal, world } =
      ([], { journal, world }))
    (hlisted : scanPartials shelver.source ".hbs" snapshot.folders { journal, world } =
      ([clip], { journal, world := listed }))
    (htoken : shelver.source.changeToken? clip { journal, world := listed } =
      (none, { journal, world := listed }))
    (hread : shelver.source.read clip { journal, world := listed } =
      (.ok text, { journal, world := turned })) :
    shelver.gathering home.1 { journal, world } =
      (heap text, { journal := .compiled .partialView true :: journal, world := turned }) := by
  let empty : Gathering := { library := {}, tokens := [] }
  obtain ⟨nodes, hnodes⟩ := Option.isSome_iff_exists.1 hnodes
  have hregister : ({} : Template.Library).register "a" text = .ok (heap text).library := by
    simp only [heap, Template.Library.register, hnodes, Except.toOption, Option.getD_some]
  have hadd : Gathering.add shelver.source ".hbs" empty clip { journal, world := listed } =
      (heap text, { journal := .compiled .partialView true :: journal, world := turned }) := by
    have hname : partialName ".hbs" clip = "a" := rfl
    have hfree : empty.library.has "a" = false := rfl
    unfold Gathering.add
    simp only [hname, hfree]
    rw [if_neg Bool.false_ne_true, bind_apply, htoken, bind_apply, hread]
    simp only [empty, hregister]
    rfl
  have hextension : shelver.options.extension = ".hbs" := rfl
  change Gathering.gather shelver.source shelver.options.extension {} snapshot.folders _ = _
  unfold Gathering.gather
  rw [hextension, bind_apply, htokens, bind_apply, hlisted, List.foldlM_cons, bind_apply]
  exact hadd

theorem gather_tray {call : Call} {path text : String} (h : Reads call path text)
    (hnodes : (Template.Node.ofSource? text).isSome = true) (journal : List Event) :
    shelver.gathering home.1 { journal, world := tray call path } =
      (heap text, { journal := .compiled .partialView true :: journal, world := turned }) := by
  obtain ⟨listed, htokens, hlisted, htoken, hread⟩ := scan_tray h journal
  exact gather_clip hnodes htokens hlisted htoken hread

/-- The journal when the partials are gathered. -/
def missed : List Event :=
  [.miss "p::Home:config", .miss "p::Home:config", .stored "p:global"]

/-- The session in the end: the fingerprint is that of the changed file. -/
def filed (text : String) : Studio :=
  guarding (heap text) [(clip, Memory.digest newer)] (.compiled .partialView true :: missed)
    { turned with usage.fingerprint := 1 }

theorem run_tray {call : Call} {path text : String} (h : Reads call path text)
    (hnodes : (Template.Node.ofSource? text).isSome = true) :
    (start ⟨1⟩ 0 0 { world := tray call path }).run opening = ⟨[shelver], 0, filed text⟩ := by
  have hconfig : shelver.config 0 home.1 (opened (tray call path)) =
      ((heap text).config, filed text) :=
    (config_grounded _ _).trans (build_grounded (gather_tray h hnodes missed) rfl rfl)
  rw [run_opening, hconfig]

theorem readings_tray {call : Call} {path text : String} (h : Reads call path text)
    (journal : List Event) :
    ∃ read, shelver.readings home.1 { journal, world := tray call path } = [(clip, read)] ∧
      (shelver.source.read clip read).1 = .ok text := by
  obtain ⟨listed, htokens, hlisted, htoken, hread⟩ := scan_tray h journal
  refine ⟨{ journal, world := listed }, ?_, congrArg Prod.fst hread⟩
  have hfolders : shelver.options.folders.partialFolders home.1 = snapshot.folders := rfl
  have hextension : shelver.options.extension = ".hbs" := rfl
  have hfree : shelver.site.has (partialName ".hbs" clip) = false := rfl
  unfold Engine.readings
  simp only [hfolders, hextension, htokens, hlisted, Gathering.readings, htoken]
  rw [if_neg (by rw [hfree]; exact Bool.false_ne_true)]

/-- A partial that is changed right behind the call that lists its folder is described by its
snapshot. -/
theorem snapshot_describes_tray :
    let σ := start ⟨1⟩ 0 0 { world := tray .list "~/Views/_Partials/" }
    let cache := (σ.run opening).session.cache
    ∃ guard snap, cache.Polls guard snap ∧
      snap.fingerprints.lookup clip = some (Memory.digest newer) ∧
        ∃ slot v, cache.entries.get? snap.configKey = some slot ∧ slot.value = .config v ∧
          ∃ e g before after, σ.Began opening e g before ∧ snap.configKey = e.keys.config g.1 ∧
            e.Depicts g.1 (fun o path => o.inner.files.lookup path) Memory.digest before after v
              snap := by
  intro σ cache
  have hcache : cache = (filed newer).cache :=
    congrArg (·.session.cache) (run_tray (.inl ⟨rfl, rfl, rfl⟩) nodes_newer)
  have hmoves : ∀ move ∈ opening, move.Orderly fun source =>
      source.Candid (fun o path => o.inner.files.lookup path) Memory.digest :=
    orderly_opening Observed.candid
  have hpoll : cache.Polls (KeySpace.poller "p::Home:config" 0)
      ⟨snapshot.folders, [(clip, Memory.digest newer)], [], snapshot.configKey⟩ :=
    ⟨_, by rw [hcache]; rfl, rfl⟩
  exact ⟨_, _, hpoll, rfl, snapshot_describes ⟨1⟩ 0 0 _ hmoves _ _ hpoll⟩

/-- In the end a poller finds nothing changed. -/
theorem isUnchanged_filed (text : String) {snap : Snapshot}
    (hsnap : snap = ⟨snapshot.folders, [(clip, Memory.digest newer)], [], snapshot.configKey⟩) :
    (snap.isUnchanged shelver.source ".hbs" (filed text).scene).1 = true := by
  subst hsnap
  let scanned : Scene (Observed Memory) := { (filed text).scene with world :=
    { turned with usage := { list := 2, read := 1, fingerprint := 1 } } }
  have hscan : scanPartials shelver.source ".hbs" snapshot.folders (filed text).scene =
      ([clip], scanned) := rfl
  have hfingerprint : (shelver.source.fingerprint clip scanned).1 = .ok (Memory.digest newer) := rfl
  have hcompare : ∀ snap : Snapshot, snap.fingerprints = [(clip, Memory.digest newer)] →
      (snap.compare shelver.source 0 0 [clip] scanned).1 = some (1, 0) := by
    intro snap hsnap
    have hlookup : snap.fingerprints.lookup clip = some (Memory.digest newer) := by
      rw [hsnap]
      rfl
    unfold Snapshot.compare
    simp only [hlookup]
    rw [bind_apply, hfingerprint]
    simp only [if_true]
    rfl
  unfold Snapshot.isUnchanged
  rw [bind_apply, hscan, bind_apply, hcompare _ rfl]
  rfl

/-- **A snapshot of another text.** The partial is changed right behind the call that reads it. The
partials that are kept were made from the old text, and their snapshot has the fingerprint of the
new one, so that a poller finds nothing changed. -/
theorem snapshot_of_other_text :
    let σ := start ⟨1⟩ 0 0 { world := tray .read clip }
    let s := (σ.run opening).session
    ∃ guard snap slot before read,
      s.cache.Polls guard snap ∧ s.cache.entries.get? snap.configKey = some slot ∧
        slot.value = .config (heap older).config ∧ σ.Began opening shelver home before ∧
          (clip, read) ∈ shelver.readings home.1 before ∧
            (shelver.source.read clip read).1 = .ok older ∧
              snap.fingerprints.lookup clip = some (Memory.digest newer) ∧
                Memory.digest older ≠ Memory.digest newer ∧
                  (snap.isUnchanged shelver.source ".hbs" s.scene).1 = true := by
  intro σ s
  have hs : s = filed older := congrArg (·.session) (run_tray (.inr ⟨rfl, rfl, rfl⟩) nodes_older)
  obtain ⟨read, hreadings, hread⟩ :=
    readings_tray (.inr ⟨rfl, rfl, rfl⟩ : Reads .read clip older) missed
  refine ⟨KeySpace.poller "p::Home:config" 0, _, _, { journal := missed, world := tray .read clip },
    read, ⟨_, by rw [hs]; rfl, rfl⟩, by rw [hs]; rfl, rfl, ?_, ?_, hread, rfl, digest_ne, ?_⟩
  · refine ⟨[.join shelver.source {} { keyPrefix := some "p" }], 0, .config home, [], rfl, rfl, ?_⟩
    rw [run, List.foldl_cons, join_shelver, List.foldl_nil]
    exact ⟨rfl, rfl⟩
  · rw [hreadings]
    exact List.mem_singleton_self _
  · rw [hs]
    exact isUnchanged_filed older rfl

end Guild

end Templating
