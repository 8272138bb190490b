import Templating.Proofs.Engine.Chains
import Templating.Proofs.Engine.Twins

/-!
# An engine does the same in sessions that are alike

What an engine of a house does on a request, done in two sessions that it cannot tell apart, gives
the same answer, makes the same calls, and leaves two sessions that it cannot tell apart
(`House.same_serve`). So does an errand (`House.same_perform`). The operations are gone through in
the order in which they are built on one another.
-/

namespace Templating.House

open Work (Twins)

variable {ι : Type} [DecidableEq ι] {spaces : ι ↪ { k : KeySpace // k.ColonFree }} {i : ι}
  {now : Instant} {before : Common ι} {held : List (Token × Token)} {e : Engine (Rooms ι)}

/-! ## Partials -/

section Gathering

variable {extension path : String} {folders : List String}

theorem same_isFile : Same spaces i now before held held
    (Session.onScene ((source i).isFile path)) (Session.onScene ((source i).isFile path)) :=
  same_call (fun files => (files.lookup path).isSome) fun _ => rfl

theorem same_isFolder : Same spaces i now before held held
    (Session.onScene ((source i).isFolder path)) (Session.onScene ((source i).isFolder path)) :=
  same_call (fun files => ({ files, push := true } : Memory).isFolder path) fun _ => rfl

theorem same_list : Same spaces i now before held held
    (Session.onScene ((source i).list path)) (Session.onScene ((source i).list path)) :=
  same_call (fun files => ({ files, push := true } : Memory).list path) fun _ => rfl

theorem same_read : Same spaces i now before held held
    (Session.onScene ((source i).read path)) (Session.onScene ((source i).read path)) :=
  same_call (fun files => ({ files, push := true } : Memory).read path) fun _ => rfl

theorem same_fingerprint : Same spaces i now before held held
    (Session.onScene ((source i).fingerprint path))
    (Session.onScene ((source i).fingerprint path)) :=
  same_call (fun files => (({ files, push := true } : Memory).read path).map Memory.digest)
    fun _ => rfl

theorem same_scanPartials : Same spaces i now before held held
    (Session.onScene (scanPartials (source i) extension folders))
    (Session.onScene (scanPartials (source i) extension folders)) := by
  induction folders with
  | nil => exact fun _ _ h => ⟨rfl, h⟩
  | cons folder folders ih =>
    simp only [scanPartials, Session.onScene_bind]
    refine Same.bind same_isFolder fun isFolder => ?_
    cases isFolder with
    | false =>
      simp only [Bool.false_eq_true, if_false, pure_bind, Session.onScene_bind]
      exact Same.bind ih fun _ _ _ h => ⟨rfl, h⟩
    | true =>
      simp only [if_true, Session.onScene_bind]
      exact Same.bind same_list fun _ => Same.bind ih fun _ _ _ h => ⟨rfl, h⟩

/-- A token is asked for each folder, and all are in hand in what follows. -/
theorem twins_watchFolders_bind {α : Type} {next next' : List Token → Resolving (Rooms ι) α}
    {R : α → α → Common ι → Common ι → Prop}
    (hnext : ∀ more, more.length = folders.length →
      Twins (Alike spaces i now before (held ++ more)) (next (more.map Prod.fst))
        (next' (more.map Prod.snd)) R) :
    Twins (Alike spaces i now before held)
      (Session.onScene (folders.filterMapM (source i).changeToken?) >>= next)
      (Session.onScene (folders.filterMapM (source i).changeToken?) >>= next') R := by
  induction folders generalizing held next next' with
  | nil => simpa [Session.onScene_pure] using hnext [] rfl
  | cons folder folders ih =>
    simp only [List.filterMapM_cons, Session.onScene_bind, bind_assoc]
    refine twins_watch_bind fun t t' => ?_
    simp only [Session.onScene_bind, bind_assoc, Session.onScene_pure, pure_bind]
    refine ih fun more hlength => ?_
    rw [List.append_assoc]
    exact hnext ((t, t') :: more) (congrArg (· + 1) hlength)

variable (spaces) in
/-- The same templates were put together, with tokens in hand. -/
def Gathered (i : ι) (now : Instant) (before : Common ι) (g g' : Gathering) (s s' : Common ι) :
    Prop :=
  ∃ held, held ≠ [] ∧ g.tokens = held.map Prod.fst ∧ g' = { g with tokens := held.map Prod.snd } ∧
    Alike spaces i now before held s s'

theorem twins_add (g g' : Gathering) (path : String) : Twins (Gathered spaces i now before g g')
    (Session.onScene (g.add (source i) extension path))
    (Session.onScene (g'.add (source i) extension path)) (Gathered spaces i now before) := by
  rintro s s' ⟨held, hheld, htokens, rfl, h⟩
  revert s s'
  change Twins (Alike spaces i now before held) _ _ _
  unfold Gathering.add
  simp only
  split
  · exact fun _ _ h => ⟨held, hheld, htokens, rfl, h⟩
  · simp only [Session.onScene_bind]
    refine twins_watch_bind fun t t' => Same.bind same_read fun answer => ?_
    refine Same.bind (same_note _) fun _ s s' h => ⟨held ++ [(t, t')], by simp, ?_, ?_, h⟩
    · change g.tokens ++ [t] = _
      rw [htokens, List.map_append]
      rfl
    · rw [List.map_append]
      rfl

/-- **The partials of a group** are put together the same, and at least one token is in hand. -/
theorem twins_gather (site : Template.Library) (hfolders : folders ≠ []) :
    Twins (Alike spaces i now before [])
      (Session.onScene (Gathering.gather (source i) extension site folders))
      (Session.onScene (Gathering.gather (source i) extension site folders))
      (Gathered spaces i now before) := by
  simp only [Gathering.gather, Session.onScene_bind, Session.onScene_foldlM]
  refine twins_watchFolders_bind fun held hlength => Same.bind same_scanPartials fun paths => ?_
  intro s s' h
  have hheld : held ≠ [] := by
    rintro rfl
    exact hfolders (List.length_eq_zero_iff.1 hlength.symm)
  have hstart : Gathered spaces i now before { library := site, tokens := held.map Prod.fst }
      { library := site, tokens := held.map Prod.snd } s s' := ⟨held, hheld, rfl, rfl, h⟩
  exact Twins.foldlM twins_add paths _ _ s s' hstart

end Gathering

/-- The calls from a room leave its files as they are. -/
theorem surveys_source (i : ι) (files : List (String × String)) :
    Engine.Surveys (source i) (fun rooms => (rooms i).memory.files = files)
      (files.map Prod.fst) := by
  have hnoted : ∀ kind path (scene : Scene (Rooms ι)), (scene.world i).memory.files = files →
      ((noted i kind path scene).world i).memory.files = files := by
    intro kind path scene hfiles
    simpa [noted] using hfiles
  refine ⟨⟨hnoted .isFile, hnoted .isFolder, hnoted .list, hnoted .read, hnoted .fingerprint,
    fun path scene hfiles => ?_⟩, fun path scene text hfiles hread => ?_⟩
  · change (Function.update scene.world i _ i).memory.files = files
    rw [Function.update_self]
    exact (Memory.files_call path { scene with world := (scene.world i).memory }).2.2.2.2.2.trans
      hfiles
  · rw [source_read, Memory.read, hfiles] at hread
    split at hread
    · next hfound => exact List.mem_map_of_mem (f := Prod.fst) (mem_of_lookup hfound)
    · cases hread

/-! ## Engines -/

/-- An engine that lives in its room, with its own keys. -/
structure Resident (spaces : ι ↪ { k : KeySpace // k.ColonFree }) (i : ι) (e : Engine (Rooms ι)) :
    Prop where
  source : e.source = House.source i
  keys : e.keys = (spaces i).1

namespace Resident

variable (h : Resident spaces i e) (g : Group.Made) {c : GroupConfig} {path : String}

include h

theorem zone_path (path : String) : zone spaces i (e.keys.path g.1 path) := by
  rw [h.keys]
  exact (spaces i).1.owns_path g path

theorem path_ne_global (path : String) : e.keys.path g.1 path ≠ (spaces i).1.global := by
  rw [h.keys]
  exact ((spaces i).1.global_ne_path g.1 path).symm

theorem twins_ensureGlobal_bind {α : Type} {next next' : String → Resolving (Rooms ι) α}
    {R : α → α → Common ι → Common ι → Prop}
    (hnext : Twins (Alike spaces i now before []) (next e.keys.global) (next' e.keys.global) R) :
    Twins (Alike spaces i now before []) (e.ensureGlobal now >>= next)
      (e.ensureGlobal now >>= next') R := by
  unfold Engine.ensureGlobal
  rw [h.keys] at hnext ⊢
  simp only [bind_assoc, pure_bind]
  exact .bind (twins_insertIfAbsent .global) fun _ _ => hnext

/-- **The partials are put together.** Since there are tokens, no poller is armed. -/
theorem same_build : Same spaces i now before [] [] (e.build now g.1) (e.build now g.1) := by
  unfold Engine.build
  rw [h.source]
  refine h.twins_ensureGlobal_bind (.bind
    (twins_gather e.site (e.options.folders.partialFolders_ne_nil g.1)) fun found _ => ?_)
  rintro s s' ⟨held, hheld, htokens, rfl, hs⟩
  revert s s'
  change Same spaces i now before held [] _ _
  have hnone : ∀ {tokens : List Token} {stored : Bool}, tokens ≠ [] →
      ¬(tokens.isEmpty && stored) = true := by
    rintro (_ | ⟨t, tokens⟩) stored hne
    · exact absurd rfl hne
    · exact Bool.false_ne_true
  refine Twins.bind (R := fun _ _ => Alike spaces i now before []) ?_ fun stored stored' => ?_
  · rw [htokens]
    refine twins_insert (h.zone_path g "config") _ ?_ fun heq =>
      absurd heq (h.path_ne_global g "config")
    rw [h.keys]
    exact fun parent hparent => List.mem_singleton.1 hparent ▸ (spaces i).1.owns_global
  · rw [if_neg (hnone (htokens ▸ by simpa using hheld)), if_neg (hnone (by simpa using hheld))]
    exact Same.bind (same_note _) fun _ => Same.pure _

theorem same_cachedConfig? :
    Same spaces i now before [] [] (e.cachedConfig? now g.1) (e.cachedConfig? now g.1) := by
  unfold Engine.cachedConfig?
  refine Same.bind (same_get (h.zone_path g "config")) fun found => ?_
  split
  · exact Same.pure _
  · exact Same.pure _

theorem same_config : Same spaces i now before [] [] (e.config now g.1) (e.config now g.1) := by
  unfold Engine.config
  refine Same.bind (h.same_cachedConfig? g) fun found => ?_
  cases found with
  | some c => exact Same.pure c
  | none =>
    refine Same.bind (h.same_cachedConfig? g) fun found => ?_
    cases found with
    | some c => exact Same.pure c
    | none => exact h.same_build g

/-! ## Look-ups -/

section Lookup

variable {t t' : Token}

theorem twins_insert_guarded (path : String) (value : Entry) (sliding recheck : Duration) :
    Twins (Alike spaces i now before [(t, t')])
      (Session.insert (Poller.moment now) (e.keys.path g.1 path) value
        (e.guarded now g.1 (some t) sliding recheck))
      (Session.insert (Poller.moment now) (e.keys.path g.1 path) value
        (e.guarded now g.1 (some t') sliding recheck))
      fun _ _ => Alike spaces i now before [] :=
  twins_insert (h.zone_path g path) value
    (fun _ hparent => List.mem_singleton.1 hparent ▸ h.zone_path g "config")
    fun heq => absurd heq (h.path_ne_global g path)

theorem same_rememberMissing : Same spaces i now before [(t, t')] []
    (e.rememberMissing now g.1 path (some t)) (e.rememberMissing now g.1 path (some t')) :=
  Twins.bind (h.twins_insert_guarded g path .missing _ _) fun _ _ => Same.pure ()

theorem same_rememberBroken : Same spaces i now before held []
    (e.rememberBroken now g.1 path) (e.rememberBroken now g.1 path) := by
  refine Twins.bind (R := fun _ _ => Alike spaces i now before []) ?_ fun _ _ => Same.pure ()
  exact fun s s' hs => twins_insert (h.zone_path g path) .missing (List.forall_mem_nil _)
    (fun heq => absurd heq (h.path_ne_global g path)) s s' hs.forget

theorem same_rememberCompiled (template : Template.Compiled) : Same spaces i now before [(t, t')] []
    (e.rememberCompiled now g.1 (some t) template)
    (e.rememberCompiled now g.1 (some t') template) := by
  unfold Engine.rememberCompiled
  split
  · exact Same.pure ()
  · exact Twins.bind (h.twins_insert_guarded g template.path _ _ _) fun _ _ => Same.pure ()

theorem same_compile : Same spaces i now before [(t, t')] []
    (e.compile now g.1 c path (some t)) (e.compile now g.1 c path (some t')) := by
  unfold Engine.compile
  rw [h.source]
  refine Same.bind same_read fun answer => Same.bind (same_note _) fun _ => ?_
  split
  · exact Same.bind (h.same_rememberBroken g) fun _ => Same.pure none
  · exact Same.bind (h.same_rememberCompiled g _) fun _ => Same.pure _

theorem same_ask :
    Same spaces i now before [] [] (e.ask now g.1 c path) (e.ask now g.1 c path) := by
  unfold Engine.ask
  rw [h.source]
  refine twins_watch_bind fun t t' => Same.bind same_isFile fun isFile => ?_
  cases isFile with
  | false => exact Same.bind (h.same_rememberMissing g) fun _ => Same.pure none
  | true => exact h.same_compile g

theorem same_hasFingerprint (expected : String) : Same spaces i now before [] []
    (e.hasFingerprint path expected) (e.hasFingerprint path expected) := by
  unfold Engine.hasFingerprint
  rw [h.source]
  refine Same.bind same_fingerprint fun answer => ?_
  cases answer <;> exact Same.pure _

/-- **A look-up.** -/
theorem same_lookup :
    Same spaces i now before [] [] (e.lookup now g.1 c path) (e.lookup now g.1 c path) := by
  unfold Engine.lookup
  refine Same.bind (same_get (h.zone_path g path)) fun found => ?_
  split
  · exact Same.pure none
  · next template =>
    split
    · exact Same.pure _
    · refine Same.bind (h.same_hasFingerprint _) fun same => ?_
      cases same with
      | true => exact Same.pure _
      | false => exact Twins.bind (twins_remove (h.zone_path g path)) fun _ _ => h.same_ask g
  · exact h.same_ask g

theorem same_search {candidates : List String} (searched : List String) :
    Same spaces i now before [] [] (e.search now g.1 c searched candidates)
      (e.search now g.1 c searched candidates) := by
  induction candidates generalizing searched with
  | nil => exact Same.pure _
  | cons path candidates ih =>
    refine Same.bind (h.same_lookup g) fun found => ?_
    cases found with
    | some template => exact Same.pure _
    | none => exact ih _

theorem same_follow (fuel : Nat) (view : Template.Compiled) (layouts : List Template.Compiled)
    (searched : List String) (next : Option String) :
    Same spaces i now before [] [] (e.follow now g.1 c fuel view layouts searched next)
      (e.follow now g.1 c fuel view layouts searched next) := by
  induction fuel generalizing layouts searched next with
  | zero => cases next <;> exact Same.pure _
  | succ fuel ih =>
    cases next with
    | none => exact Same.pure _
    | some name =>
      unfold Engine.follow
      refine Same.bind (h.same_search g searched) fun found => ?_
      obtain ⟨_ | layout, tried⟩ := found
      · exact Same.pure _
      · simp only
        split
        · exact Same.pure _
        · exact ih _ _ _

end Lookup

/-! ## Requests -/

/-- **The chain of layouts** ends the same, whatever else is cached. -/
theorem same_follow_chainBound (view : Template.Compiled) (searched : List String)
    (next : Option String) :
    Same spaces i now before [] []
      (do e.follow now g.1 c (e.chainBound g.1 (← get)) view [] searched next)
      (do e.follow now g.1 c (e.chainBound g.1 (← get)) view [] searched next) := by
  have hend : ∀ {s : Common ι} {fuel : Nat}, Sound spaces now s → e.chainBound g.1 s ≤ fuel →
      e.follow now g.1 c (e.chainBound g.1 s) view [] searched next s =
        e.follow now g.1 c fuel view [] searched next s := by
    intro s fuel hsound hfuel
    have hsurveys : Engine.Surveys e.source
        (fun rooms => (rooms i).memory.files = (s.scene.world i).memory.files)
        ((s.scene.world i).memory.files.map Prod.fst) := by
      rw [h.source]
      exact surveys_source i _
    refine Engine.follow_chainBound hsurveys hsound.linked hsound.silent rfl ?_ hfuel view searched
      next
    rw [h.source, List.length_map]
    exact Nat.le_refl _
  intro s s' hs
  have hsame := h.same_follow g (c := c) (max (e.chainBound g.1 s) (e.chainBound g.1 s')) view []
    searched next s s' hs
  rw [← hend hs.beside.sound (Nat.le_max_left ..), ← hend hs.sound (Nat.le_max_right ..)] at hsame
  exact hsame

theorem same_resolve (name : String) (layout : Option String) : Same spaces i now before [] []
    (e.resolve now g.1 name layout) (e.resolve now g.1 name layout) := by
  unfold Engine.resolve
  split
  · exact Same.pure _
  · refine Same.bind (h.same_config g) fun c => Same.bind (h.same_search g []) fun found => ?_
    obtain ⟨_ | view, searched⟩ := found
    · exact Same.pure _
    · exact h.same_follow_chainBound g view searched _

theorem same_resolvePartial (name : String) : Same spaces i now before [] []
    (e.resolvePartial now g.1 name) (e.resolvePartial now g.1 name) := by
  unfold Engine.resolvePartial
  split
  · exact Same.pure _
  · refine Same.bind (h.same_config g) fun c => Same.bind (h.same_search g []) fun found => ?_
    obtain ⟨_ | view, searched⟩ := found
    · exact Same.pure _
    · exact Same.pure _

theorem same_resolvePath (path : String) : Same spaces i now before [] []
    (e.resolvePath now g.1 path) (e.resolvePath now g.1 path) := by
  unfold Engine.resolvePath
  split
  · exact Same.pure _
  · exact Same.bind (h.same_config g) fun c => Same.bind (h.same_lookup g) fun _ => Same.pure _

omit g in
theorem same_clear : Same spaces i now before [] [] (e.clear now) (e.clear now) := by
  have hglobal : zone spaces i e.keys.global := by
    rw [h.keys]
    exact (spaces i).1.owns_global
  unfold Engine.clear
  refine Twins.bind (twins_remove hglobal) fun _ _ =>
    Twins.bind (R := fun _ _ => Alike spaces i now before []) ?_ fun _ _ => Same.pure ()
  exact twins_insert hglobal .global (List.forall_mem_nil _) fun _ => ⟨rfl, rfl, rfl⟩

omit g in
theorem same_register (name source : String) : Same spaces i now before [] []
    (e.register now name source) (e.register now name source) := by
  unfold Engine.register
  split
  · exact Same.pure _
  · split
    · exact Same.pure _
    · exact Same.bind h.same_clear fun _ => Same.pure _

omit g in
/-- **A request.** -/
theorem same_serve (r : Request) :
    Same spaces i now before [] [] (serve e now r) (serve e now r) := by
  cases r with
  | resolve g name layout => exact Same.bind (h.same_resolve g name layout) fun _ => Same.pure _
  | resolvePartial g name => exact Same.bind (h.same_resolvePartial g name) fun _ => Same.pure _
  | resolvePath g path => exact Same.bind (h.same_resolvePath g path) fun _ => Same.pure _
  | config g => exact Same.bind (h.same_config g) fun _ => Same.pure _
  | register name source =>
    refine Same.bind (h.same_register name source) fun answer => ?_
    cases answer <;> exact Same.pure _
  | clear => exact Same.bind h.same_clear fun _ => Same.pure _

omit g in
/-- The engine lives on in its room. -/
theorem serve (r : Request) (s : Common ι) : Resident spaces i (House.serve e now r s).1.2 := by
  cases r with
  | register name source =>
    rcases e.register_cases now name source s with ⟨err, hrefused⟩ | ⟨site, hdone⟩
    · simp only [House.serve, bind_apply, hrefused]
      exact h
    · simp only [House.serve, bind_apply, hdone]
      exact ⟨h.source, h.keys⟩
  | resolve | resolvePartial | resolvePath | config | clear => exact h

end Resident

/-! ## Errands -/

theorem same_create (site : Template.Library) {options : EngineOptions}
    (hown : options.keyPrefix = some (spaces i).1.keyPrefix) :
    Same spaces i now before [] [] (Engine.create (source i) site options now)
      (Engine.create (source i) site options now) := by
  unfold Engine.create
  split
  · exact Same.pure _
  · have hresident : Resident spaces i ⟨source i, site, options, (spaces i).1⟩ := ⟨rfl, rfl⟩
    simp only [hown, pure_bind]
    exact hresident.twins_ensureGlobal_bind (Same.pure _)

theorem same_write (path content : String) : Same spaces i now before [] []
    (Session.onScene (inRoom i (Room.store.write path content)))
    (Session.onScene (inRoom i (Room.store.write path content))) := by
  intro s s' h
  refine ⟨rfl, ?_⟩
  simp only [Session.onScene, inRoom_write, h.files]
  exact h.changed path _

theorem same_remove (path : String) : Same spaces i now before [] []
    (Session.onScene (inRoom i (Room.store.remove path)))
    (Session.onScene (inRoom i (Room.store.remove path))) := by
  intro s s' h
  simp only [Session.onScene, inRoom_remove, h.files]
  split
  · exact ⟨rfl, h.changed path _⟩
  · exact ⟨rfl, h⟩

section Perform

variable {e? : Option (Engine (Rooms ι))} (h : ∀ e, e? = some e → Resident spaces i e)

include h

/-- **An errand.** -/
theorem same_perform (errand : Errand) : Same spaces i now before [] []
    (perform i (spaces i).1 now e? errand) (perform i (spaces i).1 now e? errand) := by
  cases errand with
  | join site options =>
    refine Same.bind (same_create site rfl) fun answer => ?_
    cases answer <;> exact Same.pure _
  | ask r =>
    cases e? with
    | none => exact Same.pure _
    | some e => exact Same.bind ((h e rfl).same_serve r) fun _ => Same.pure _
  | write path content => exact Same.bind (same_write path content) fun _ => Same.pure _
  | remove path => exact Same.bind (same_remove path) fun _ => Same.pure _

theorem resident_perform (errand : Errand) (s : Common ι) :
    ∀ e, (perform i (spaces i).1 now e? errand s).1.2 = some e → Resident spaces i e := by
  cases errand with
  | join site options =>
    rcases Engine.create_cases (source i) site
        { options with keyPrefix := some (spaces i).1.keyPrefix } now s with
      ⟨err, hrefused⟩ | ⟨keys, scene, -, hkeys, hmade⟩
    · simp only [perform, bind_apply, hrefused]
      exact h
    · simp only [perform, bind_apply, hmade]
      rintro e ⟨⟩
      rcases hkeys with hown | ⟨hnone, -⟩
      · exact ⟨rfl, congrArg KeySpace.mk (Option.some.inj hown).symm⟩
      · cases hnone
  | ask r =>
    cases e? with
    | none => exact h
    | some e =>
      rintro e' ⟨⟩
      exact (h e rfl).serve r s
  | write | remove => exact h

end Perform

end Templating.House
