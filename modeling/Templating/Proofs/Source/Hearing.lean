import Templating.Proofs.Engine.Plain
import Templating.Proofs.Source.Change
import Templating.Proofs.Source.Following

/-!
# Who hears of a change

Where changes are signalled, a token is handed out for each path that the store is asked to watch.
Who holds it hears of that path (`Memory.Hears`), and no token is handed out for two paths
(`Memory.Unshared`). So a change fires the tokens of those who hear of a path that it concerns, and
no others (`Memory.Altered.hasFired_iff`). The tokens that partials are gathered with hear of the
partial folders, and of nothing outside of them (`Memory.posted_gather`).
-/

namespace Templating

namespace Memory

/-! ## Tokens and paths -/

/-- Who holds the token will hear of a change at the path, or has heard of one. -/
def Hears (scene : Scene Memory) (path : String) (t : Token) : Prop :=
  scene.signals.hasFired t = true ∨ (path, t) ∈ scene.world.attended

/-- The tokens of those who watch were issued, each for one path. -/
structure Unshared (scene : Scene Memory) : Prop where
  issued : ∀ w ∈ scene.world.watchers, w.2.id < scene.signals.issued
  path : ∀ w ∈ scene.world.watchers, ∀ w' ∈ scene.world.watchers, w.2 = w'.2 → w.1 = w'.1

/-- Who has heard of a path still hears of it, and still no token is for two paths. -/
structure Onward (before after : Scene Memory) : Prop where
  push : after.world.push = before.world.push
  hears : ∀ path t, Hears before path t → Hears after path t
  unshared : Unshared before → Unshared after

/-- Nobody else watches, and no token fires. -/
theorem Onward.of_same {before after : Scene Memory} (hworld : after.world = before.world)
    (hfired : after.signals.fired = before.signals.fired)
    (hissued : after.signals.issued = before.signals.issued) : Onward before after where
  push := by rw [hworld]
  hears path t h := by
    unfold Hears Signals.hasFired at h ⊢
    rwa [hworld, hfired]
  unshared h := by
    refine ⟨?_, ?_⟩ <;> rw [hworld]
    · rw [hissued]
      exact h.issued
    · exact h.path

theorem course_onward : Scene.Course Onward where
  refl _ := .of_same rfl rfl rfl
  trans _ _ _ h h' :=
    ⟨h'.push.trans h.push, fun path t ht => h'.hears path t (h.hears path t ht),
      fun hu => h'.unshared (h.unshared hu)⟩
  note _ _ := .of_same rfl rfl rfl
  takeSerial _ := .of_same rfl rfl rfl

/-- A token that is handed out was not handed out before. -/
theorem onward_watch (path : String) (scene : Scene Memory) :
    Onward scene (watch path scene).2 := by
  have hcalm := undisturbed_watch path scene
  refine ⟨hcalm.push, fun other t h => ?_, fun h => ?_⟩
  · exact h.imp (fun hfired => (hcalm.fired t).trans hfired) (hcalm.watchers _)
  · unfold watch
    split
    · refine ⟨fun w hw => ?_, fun w hw w' hw' heq => ?_⟩
      · rcases List.mem_cons.1 hw with rfl | hw
        · exact Nat.lt_succ_self _
        · exact Nat.lt_succ_of_lt (h.issued w (List.mem_of_mem_filter hw))
      · have hfresh : ∀ v ∈ scene.world.watchers, v.2 ≠ ⟨scene.signals.issued⟩ := fun v hv heq =>
          Nat.lt_irrefl _ (congrArg Token.id heq ▸ h.issued v hv)
        rcases List.mem_cons.1 hw with rfl | hw <;> rcases List.mem_cons.1 hw' with rfl | hw'
        · rfl
        · exact absurd heq.symm (hfresh w' (List.mem_of_mem_filter hw'))
        · exact absurd heq (hfresh w (List.mem_of_mem_filter hw))
        · exact h.path w (List.mem_of_mem_filter hw) w' (List.mem_of_mem_filter hw') heq
    · exact h

/-- Who asks to watch a path hears of it. -/
theorem hears_watch {scene : Scene Memory} (hpush : scene.world.push = true) (path : String) :
    ∃ t, (watch path scene).1 = some t ∧ Hears (watch path scene).2 path t := by
  obtain ⟨t, ht, hwatched⟩ := watch_of_push hpush path
  exact ⟨t, ht, .inr hwatched⟩

theorem follows_onward : source.Follows Onward := by
  refine ⟨?_, ?_, ?_, ?_, ?_, onward_watch⟩
  all_goals exact fun _ scene => course_onward.refl scene

/-! ## Changes -/

/-- The files were changed at a path, and those who watch it were told. -/
def Altered (path : String) (before after : Scene Memory) : Prop :=
  ∃ files, after = (notify path { before with world.files := files }).2

theorem altered_write (path content : String) (scene : Scene Memory) :
    Altered path scene (write path content scene).2 := ⟨_, rfl⟩

theorem altered_remove {path : String} {scene : Scene Memory}
    (h : (scene.world.files.lookup path).isSome = true) :
    Altered path scene (remove path scene).2 := by
  rw [remove_present h]
  exact ⟨_, rfl⟩

namespace Altered

variable {path : String} {before after : Scene Memory} (h : Altered path before after)

include h

/-- **A change fires the tokens of those who watch what it concerns**, and no others. -/
theorem hasFired_iff {t : Token} : after.signals.hasFired t = true ↔
    before.signals.hasFired t = true ∨
      ∃ watched, (watched, t) ∈ before.world.watchers ∧ covers watched path = true := by
  obtain ⟨files, rfl⟩ := h
  rw [notify_eq]
  refine (Signals.hasFired_foldl_fire ..).trans (or_comm.trans (or_congr_right ?_))
  simp only [List.mem_map, List.mem_filter]
  constructor
  · rintro ⟨⟨watched, _⟩, ⟨hw, hcovers⟩, rfl⟩
    exact ⟨watched, hw, hcovers⟩
  · rintro ⟨watched, hw, hcovers⟩
    exact ⟨(watched, t), ⟨hw, hcovers⟩, rfl⟩

theorem onward : Onward before after where
  push := by
    obtain ⟨files, rfl⟩ := h
    rw [notify_eq]
  hears watched t ht := by
    rcases ht with hfired | hw
    · exact .inl (h.hasFired_iff.2 (.inl hfired))
    · cases hcovers : covers watched path with
      | true =>
        exact .inl (h.hasFired_iff.2 (.inr ⟨watched, List.mem_of_mem_filter hw, hcovers⟩))
      | false =>
        obtain ⟨files, rfl⟩ := h
        refine .inr ?_
        rw [attended_notify]
        exact List.mem_filter.2 ⟨hw, by rw [hcovers]; rfl⟩
  unshared hu := by
    obtain ⟨files, rfl⟩ := h
    rw [notify_eq]
    refine ⟨fun w hw => ?_, fun w hw w' hw' => ?_⟩
    · rw [Signals.issued_foldl_fire]
      exact hu.issued w (List.mem_of_mem_filter hw)
    · exact hu.path w (List.mem_of_mem_filter hw) w' (List.mem_of_mem_filter hw')

/-- A token that has not fired tells of the path it hears of, and of no other. -/
theorem hasFired_iff_covers (hu : Unshared before) {t : Token} {watched : String}
    (hunfired : before.signals.hasFired t = false) (hears : Hears before watched t) :
    after.signals.hasFired t = true ↔ covers watched path = true := by
  have hw := hears.resolve_left (by rw [hunfired]; exact Bool.false_ne_true)
  rw [h.hasFired_iff, hunfired, or_iff_right Bool.false_ne_true]
  constructor
  · rintro ⟨other, hother, hcovers⟩
    have heq : other = watched := hu.path _ hother _ (List.mem_of_mem_filter hw) rfl
    rwa [heq] at hcovers
  · exact fun hcovers => ⟨watched, List.mem_of_mem_filter hw, hcovers⟩

end Altered

/-! ## Folders -/

/-- Tokens for folders: they hear of every folder, and of nothing outside of them. -/
structure Posted (scene : Scene Memory) (folders : List String) (tokens : List Token) : Prop where
  reaches : ∀ folder ∈ folders, ∃ t ∈ tokens, Hears scene folder t
  within : ∀ t ∈ tokens, ∃ path, Hears scene path t ∧
    ∃ folder ∈ folders, Text.startsWith folder path = true

namespace Posted

variable {scene scene' : Scene Memory} {folders : List String} {tokens : List Token}

theorem onward (h : Posted scene folders tokens) (honward : Onward scene scene') :
    Posted scene' folders tokens where
  reaches folder hfolder :=
    let ⟨t, ht, hears⟩ := h.reaches folder hfolder
    ⟨t, ht, honward.hears folder t hears⟩
  within t ht :=
    let ⟨path, hears, hwithin⟩ := h.within t ht
    ⟨path, honward.hears path t hears, hwithin⟩

/-- **A change is told to those who are posted** if it is in one of their folders, and else not. -/
theorem hasFired_iff (h : Posted scene folders tokens) (hu : Unshared scene)
    (hslash : ∀ folder ∈ folders, EndsInSlash folder)
    (hunfired : ∀ t ∈ tokens, scene.signals.hasFired t = false) {path : String}
    (haltered : Altered path scene scene') :
    (∃ t ∈ tokens, scene'.signals.hasFired t = true) ↔
      ∃ folder ∈ folders, Text.startsWith folder path = true := by
  constructor
  · rintro ⟨t, ht, hfired⟩
    obtain ⟨watched, hears, folder, hfolder, hstarts⟩ := h.within t ht
    have hcovers := (haltered.hasFired_iff_covers hu (hunfired t ht) hears).1 hfired
    exact ⟨folder, hfolder, Text.startsWith_trans hstarts (startsWith_of_covers hcovers)⟩
  · rintro ⟨folder, hfolder, hstarts⟩
    obtain ⟨t, ht, hears⟩ := h.reaches folder hfolder
    refine ⟨t, ht, (haltered.hasFired_iff_covers hu (hunfired t ht) hears).2 ?_⟩
    exact (covers_iff_startsWith (hslash folder hfolder)).2 hstarts

end Posted

/-! ## Gathering -/

/-- The tokens for some folders hear of these folders. -/
theorem hears_changeTokens (folders : List String) {scene : Scene Memory}
    (hpush : scene.world.push = true) :
    let found := folders.filterMapM source.changeToken? scene
    Onward scene found.2 ∧ (∀ folder ∈ folders, ∃ t ∈ found.1, Hears found.2 folder t) ∧
      ∀ t ∈ found.1, ∃ folder ∈ folders, Hears found.2 folder t := by
  induction folders generalizing scene with
  | nil => exact ⟨course_onward.refl scene, nofun, nofun⟩
  | cons folder folders ih =>
    have hfirst := onward_watch folder scene
    obtain ⟨t, ht, hears⟩ := hears_watch hpush folder
    obtain ⟨honward, hfolders, htokens⟩ := ih (hfirst.push.trans hpush)
    simp only [List.filterMapM_cons, bind_apply, changeToken?_source, ht, pure_apply]
    have hears' := honward.hears folder t hears
    refine ⟨course_onward.trans _ _ _ hfirst honward, fun other hother => ?_, fun u hu => ?_⟩
    · rcases List.mem_cons.1 hother with rfl | hother
      · exact ⟨t, List.mem_cons_self, hears'⟩
      · obtain ⟨u, hu, hears⟩ := hfolders other hother
        exact ⟨u, List.mem_cons_of_mem t hu, hears⟩
    · rcases List.mem_cons.1 hu with rfl | hu
      · exact ⟨folder, List.mem_cons_self, hears'⟩
      · obtain ⟨other, hother, hears⟩ := htokens u hu
        exact ⟨other, List.mem_cons_of_mem folder hother, hears⟩

/-- The partial files that are found are in the folders. -/
theorem startsWith_of_mem_scanPartials {extension : String} {folders : List String}
    (hslash : ∀ folder ∈ folders, EndsInSlash folder) {scene : Scene Memory} {path : String}
    (h : path ∈ (scanPartials source extension folders scene).1) :
    ∃ folder ∈ folders, Text.startsWith folder path = true := by
  induction folders with
  | nil => cases h
  | cons folder folders ih =>
    obtain ⟨hfolder, hrest⟩ := List.forall_mem_cons.1 hslash
    have hlisted : ∀ {other}, other ∈ scene.world.list folder →
        Text.startsWith folder other = true := by
      intro other hother
      unfold list at hother
      rw [asFolder_of_endsInSlash hfolder] at hother
      exact startsWith_of_isDirectChild (List.mem_filter.1 hother).2
    have hscan : (scanPartials source extension (folder :: folders) scene).1 =
        (if scene.world.isFolder folder then scene.world.list folder else []).filter
          (hasExtension extension) ++ (scanPartials source extension folders scene).1 := by
      rw [scanPartials, bind_apply, isFolder_source]
      cases scene.world.isFolder folder <;> rfl
    rw [hscan, List.mem_append] at h
    rcases h with hhere | hmore
    · have hmem := List.mem_of_mem_filter hhere
      split at hmem
      · exact ⟨folder, List.mem_cons_self, hlisted hmem⟩
      · cases hmem
    · obtain ⟨other, hother, hstarts⟩ := ih hrest hmore
      exact ⟨other, List.mem_cons_of_mem folder hother, hstarts⟩

/-- The tokens that are taken while files are added hear of these files. -/
theorem hears_foldlM_add (extension : String) (paths : List String) (g : Gathering)
    {scene : Scene Memory} (hpush : scene.world.push = true) :
    let found := paths.foldlM (Gathering.add source extension) g scene
    Onward scene found.2 ∧ (∀ t ∈ g.tokens, t ∈ found.1.tokens) ∧
      ∀ t ∈ found.1.tokens, t ∈ g.tokens ∨ ∃ path ∈ paths, Hears found.2 path t := by
  induction paths generalizing g scene with
  | nil => exact ⟨course_onward.refl scene, fun _ ht => ht, fun _ ht => .inl ht⟩
  | cons path paths ih =>
    obtain ⟨hfirst, htokens⟩ : Onward scene (Gathering.add source extension g path scene).2 ∧
        (∀ t ∈ g.tokens, t ∈ (Gathering.add source extension g path scene).1.tokens) ∧
        ∀ t ∈ (Gathering.add source extension g path scene).1.tokens, t ∈ g.tokens ∨
          Hears (Gathering.add source extension g path scene).2 path t := by
      refine ⟨follows_onward.add course_onward extension g path scene, ?_⟩
      unfold Gathering.add
      simp only
      split
      · exact ⟨fun _ ht => ht, fun _ ht => .inl ht⟩
      · obtain ⟨t, ht, hears⟩ := hears_watch hpush path
        simp only [bind_apply, changeToken?_source, read_source, ht]
        refine ⟨fun u hu => List.mem_append_left _ hu, fun u hu => ?_⟩
        rcases List.mem_append.1 hu with hu | hu
        · exact .inl hu
        · rw [List.mem_singleton.1 hu]
          exact .inr hears
    obtain ⟨hkept, hnew⟩ := htokens
    obtain ⟨hrest, hkept', hnew'⟩ :=
      ih (Gathering.add source extension g path scene).1 (hfirst.push.trans hpush)
    rw [List.foldlM_cons, bind_apply]
    refine ⟨course_onward.trans _ _ _ hfirst hrest, fun t ht => hkept' t (hkept t ht),
      fun t ht => ?_⟩
    rcases hnew' t ht with ht | ⟨other, hother, hears⟩
    · exact (hnew t ht).imp_right fun hears =>
        ⟨path, List.mem_cons_self, hrest.hears path t hears⟩
    · exact .inr ⟨other, List.mem_cons_of_mem path hother, hears⟩

/-- **Who gathers partials is posted** for their folders. -/
theorem posted_gather (extension : String) (site : Template.Library) {folders : List String}
    (hslash : ∀ folder ∈ folders, EndsInSlash folder) {scene : Scene Memory}
    (hpush : scene.world.push = true) :
    let found := Gathering.gather source extension site folders scene
    Posted found.2 folders found.1.tokens := by
  obtain ⟨hfirst, hfolders, htokens⟩ := hears_changeTokens folders hpush
  have hlisted := follows_onward.scanPartials course_onward extension folders
    (folders.filterMapM source.changeToken? scene).2
  obtain ⟨hlast, hkept, hnew⟩ := hears_foldlM_add extension
    (scanPartials source extension folders (folders.filterMapM source.changeToken? scene).2).1
    { library := site, tokens := (folders.filterMapM source.changeToken? scene).1 }
    (hlisted.push.trans (hfirst.push.trans hpush))
  have honward := course_onward.trans _ _ _ hlisted hlast
  refine ⟨fun folder hfolder => ?_, fun t ht => ?_⟩
  · obtain ⟨t, ht, hears⟩ := hfolders folder hfolder
    exact ⟨t, hkept t ht, honward.hears folder t hears⟩
  · rcases hnew t ht with ht | ⟨path, hpath, hears⟩
    · obtain ⟨folder, hfolder, hears⟩ := htokens t ht
      exact ⟨folder, honward.hears folder t hears, folder, hfolder,
        Text.startsWith_iff.2 List.prefix_rfl⟩
    · exact ⟨path, hears, startsWith_of_mem_scanPartials hslash hpath⟩

end Memory

end Templating
