import Templating.Proofs.Engine.Readings

/-!
# What partials are watched by

While a group's partials are put together the source is asked for a token of each partial folder and
of each partial file that is read. `Engine.watches` are these calls with their answers. The source
may answer each of them as it likes: with a token, with none, or with a failure, which counts as
none.

The partials hold every token that was answered, and a poller is armed for them when none was
(`Guild.notices_iff`). So where the source hands out tokens for some of the paths only, nobody looks
at the others (`Guild.folder_unwatched`).
-/

namespace Templating

open Session.Steady (Rests)
open Work (Answers Takes)

/-! ## Calls that ask for tokens -/

namespace Gathering

variable {W : Type} (s : Source W) (extension : String)

/-- The calls that ask for tokens of folders, with what they answer. -/
def folderWatches : List String → Scene W → List (String × Option Token)
  | [], _ => []
  | folder :: folders, scene =>
    let answer := s.changeToken? folder scene
    (folder, answer.1) :: folderWatches folders answer.2

/-- The calls that ask for tokens of the files that are read. -/
def fileWatches : Gathering → List String → Scene W → List (String × Option Token)
  | _, [], _ => []
  | g, path :: paths, scene =>
    let next := add s extension g path scene
    let rest := fileWatches next.1 paths next.2
    if g.library.has (partialName extension path) = true then rest
    else (path, (s.changeToken? path scene).1) :: rest

variable {s extension}

theorem map_fst_folderWatches (folders : List String) (scene : Scene W) :
    (folderWatches s folders scene).map Prod.fst = folders := by
  induction folders generalizing scene with
  | nil => rfl
  | cons folder folders ih => simp [folderWatches, ih]

theorem filterMapM_changeToken (folders : List String) (scene : Scene W) :
    (folders.filterMapM s.changeToken? scene).1 =
      (folderWatches s folders scene).filterMap Prod.snd := by
  induction folders generalizing scene with
  | nil => rfl
  | cons folder folders ih =>
    rw [List.filterMapM_cons, bind_apply, folderWatches, List.filterMap_cons]
    cases (s.changeToken? folder scene).1 <;> simp [bind_apply, pure_apply, ih]

theorem tokens_add {g : Gathering} {path : String} (scene : Scene W)
    (h : ¬g.library.has (partialName extension path) = true) :
    (add s extension g path scene).1.tokens = g.tokens ++ (s.changeToken? path scene).1.toList := by
  unfold add
  simp only [h]
  rfl

/-- **The tokens are what the calls answer**, and these are made for the files that are read. -/
theorem tokens_foldlM_add (g : Gathering) (paths : List String) (scene : Scene W) :
    let found := (paths.foldlM (add s extension) g scene).1
    let calls := fileWatches s extension g paths scene
    found.tokens = g.tokens ++ calls.filterMap Prod.snd ∧
      found.attempted = g.attempted ++ calls.map Prod.fst := by
  induction paths generalizing g scene with
  | nil => exact ⟨(List.append_nil _).symm, (List.append_nil _).symm⟩
  | cons path paths ih =>
    obtain ⟨htokens, hattempted⟩ := ih (add s extension g path scene).1
      (add s extension g path scene).2
    simp only [List.foldlM_cons, bind_apply, fileWatches]
    rw [htokens, hattempted]
    by_cases h : g.library.has (partialName extension path) = true
    · rw [if_pos h, add_of_taken scene h]
      exact ⟨rfl, rfl⟩
    · obtain ⟨-, hread⟩ := add_of_free (s := s) scene h
      rw [if_neg h, tokens_add scene h, hread]
      cases (s.changeToken? path scene).1 <;> simp

end Gathering

namespace Engine

variable {W : Type}

/-- The calls that ask for tokens when the partials of a group are put together: for its folders,
and then for the files that are read. -/
def watches (e : Engine W) (g : Group) (before : Scene W) : List (String × Option Token) :=
  let folders := e.options.folders.partialFolders g
  let tokens := folders.filterMapM e.source.changeToken? before
  let paths := scanPartials e.source e.options.extension folders tokens.2
  Gathering.folderWatches e.source folders before ++
    Gathering.fileWatches e.source e.options.extension { library := e.site, tokens := tokens.1 }
      paths.1 paths.2

/-- **A build watches** its folders and the files that it reads, and it gathers every token that it
is handed. -/
theorem watches_spec (e : Engine W) (g : Group) (before : Scene W) :
    let found := (e.gathering g before).1
    (e.watches g before).map Prod.fst =
        e.options.folders.partialFolders g ++ found.attempted ∧
      found.tokens = (e.watches g before).filterMap Prod.snd := by
  intro found
  let folders := e.options.folders.partialFolders g
  let tokens := folders.filterMapM e.source.changeToken? before
  let paths := scanPartials e.source e.options.extension folders tokens.2
  let files := Gathering.fileWatches e.source e.options.extension
    { library := e.site, tokens := tokens.1 } paths.1 paths.2
  have hfiles : found.tokens = tokens.1 ++ files.filterMap Prod.snd ∧
      found.attempted = [] ++ files.map Prod.fst :=
    Gathering.tokens_foldlM_add { library := e.site, tokens := tokens.1 } paths.1 paths.2
  have hwatches : e.watches g before =
      Gathering.folderWatches e.source folders before ++ files := rfl
  rw [hwatches, List.map_append, List.filterMap_append, Gathering.map_fst_folderWatches,
    ← Gathering.filterMapM_changeToken]
  exact ⟨congrArg _ hfiles.2.symm, hfiles.1⟩

end Engine

/-! ## Where stored partials come from -/

section Stems

variable {W : Type} (began : Engine W → Group.Made → Scene W → Prop)

/-- Partials were gathered by an engine, from an outset as `began` says, and they hold the tokens
that it gathered. -/
def Stems (key : String) (value : Entry) (options : Options (Poller W)) : Prop :=
  ∀ v, value = .config v → ∃ e g before, began e g before ∧ key = e.keys.config g.1 ∧
    v = (e.gathering g.1 before).1.config ∧ options.tokens = (e.gathering g.1 before).1.tokens

variable {began}

theorem Stems.plain {key : String} {value : Entry} {options : Options (Poller W)}
    (h : ∀ v, value ≠ .config v) : Stems began key value options :=
  fun v hv => absurd hv (h v)

theorem steady_stems (began : Engine W → Group.Made → Scene W → Prop) (now : Instant) :
    Session.Steady (Poller.moment now) (fun _ _ => Stems began) (Cache.Holds (Stems began))
      fun _ => True := by
  refine Session.steady_holds (fun _ _ _ _ _ _ => trivial) fun _ _ _ _ _ _ _ h => ?_
  obtain ⟨snap, -, -, rfl, -⟩ := Poller.of_reinsert h
  exact .plain nofun

namespace Engine

variable {e : Engine W} {now : Instant} {g : Group.Made}

theorem takes_ensureGlobal_stems : Takes (Rests (Cache.Holds (Stems began)) fun _ => True)
    (Rests (Cache.Holds (Stems began)) fun _ => True) (e.ensureGlobal now) :=
  .bind ((steady_stems began now).insertIfAbsent fun _ _ => .plain nofun) fun _ => .pure _

/-- A build keeps the origin of partials, if it counts as one. -/
theorem stems_build {s : Session Entry (Poller W) W}
    (h : Rests (Cache.Holds (Stems began)) (fun _ => True) s)
    (hbegan : began e g (e.ensureGlobal now s).2.scene) :
    Rests (Cache.Holds (Stems began)) (fun _ => True) (e.build now g.1 s).2 := by
  have k := steady_stems began now
  have hsource := Source.Keeps.trivial e.source
  let before := (e.ensureGlobal now s).2.scene
  refine answers_build (P := (· = s))
    (A := fun s => Rests (Cache.Holds (Stems began)) (fun _ => True) s ∧ s.scene = before)
    (B := fun found s => Rests (Cache.Holds (Stems began)) (fun _ => True) s ∧
      (e.gathering g.1 before).1 = found)
    (C := fun _ _ => Rests (Cache.Holds (Stems began)) fun _ => True)
    (D := fun _ _ => Rests (Cache.Holds (Stems began)) fun _ => True)
    (R := fun _ => Rests (Cache.Holds (Stems began)) fun _ => True)
    ?global ?gather ?insert ?fingerprints ?arm (fun _ _ _ _ hs => hs) (fun _ _ hs => hs) s rfl
  case global =>
    rintro _ rfl
    exact ⟨takes_ensureGlobal_stems _ h, rfl⟩
  case gather =>
    rintro s ⟨hs, hscene⟩
    refine ⟨⟨hs.1, trivial⟩, ?_⟩
    rw [← hscene]
    rfl
  case insert =>
    rintro found s ⟨hs, rfl⟩
    refine k.insert (fun _ _ v hv => ?_) s hs
    cases hv
    exact ⟨e, g, before, hbegan, rfl, rfl, rfl⟩
  case fingerprints => exact fun _ _ => takes_onScene (hsource.fingerprints _)
  case arm =>
    exact fun _ _ => .bind (takes_onScene .takeSerial) fun _ =>
      .bind (k.insert fun _ _ => .plain nofun) fun _ => .pure _

/-- **Every operation** keeps the origin of partials, if a build from the outset of each request
counts as one. -/
theorem leads_stems {s : Session Entry (Poller W) W} {G : Group.Made → Prop}
    (hbegan : ∀ g, G g → began e g (e.outset now g.1 s)) :
    Workshop.Leads e now G (fun _ => True)
      (fun s' => s' = s ∧ Rests (Cache.Holds (Stems began)) (fun _ => True) s')
      (Rests (Cache.Holds (Stems began)) fun _ => True) := by
  have k := steady_stems (W := W) began now
  have hconfig : ∀ g, G g →
      Takes (fun s' => s' = s ∧ Rests (Cache.Holds (Stems began)) (fun _ => True) s')
        (Rests (Cache.Holds (Stems began)) fun _ => True) (e.config now g.1) := by
    rintro g hg _ ⟨rfl, hs⟩
    exact config_from_outset hs (k.get _) fun s' hs' hscene =>
      stems_build hs' (hscene ▸ hbegan g hg)
  have hlookup : ∀ (g : Group.Made) c path, Takes (Rests (Cache.Holds (Stems began)) fun _ => True)
      (Rests (Cache.Holds (Stems began)) fun _ => True) (e.lookup now g.1 c path) := by
    refine fun g c path => takes_lookup_steady (Source.Keeps.trivial e.source) k ?_
      fun _ _ => .plain nofun
    rintro cache value token sliding recheck - (rfl | ⟨template, -, -, rfl⟩) <;>
      exact .plain nofun
  refine ⟨hconfig, fun g hg name layout => ?_, fun g hg path _ => ?_, ?_⟩
  · exact takes_views (R := fun _ => Rests (Cache.Holds (Stems began)) fun _ => True)
      (fun _ hs => hs.2) (hconfig g hg).answers (fun c path _ => hlookup g c path)
      (fun _ _ hs => hs) name layout
  · exact takes_resolvePath (fun _ hs => hs.2) (hconfig g hg).answers fun c => hlookup g c path
  · exact .bind (fun s' hs => k.remove e.keys.global s' hs.2) fun _ =>
      .bind (k.insert fun _ _ => .plain nofun) fun _ => .pure _

end Engine

namespace Guild

variable {σ : Guild W}

theorem stems_join (h : Rests (Cache.Holds (Stems began)) (fun _ => True) σ.session)
    (source : Source W) (site : Template.Library) (options : EngineOptions) :
    Rests (Cache.Holds (Stems began)) (fun _ => True)
      (σ.step (.join source site options)).session := by
  rcases Engine.create_cases source site options σ.now σ.session with
    ⟨err, hrefused⟩ | ⟨keys, scene, -, -, hcreated⟩
  · simp only [step, hrefused]
    exact h
  · simp only [step, hcreated]
    exact Engine.takes_ensureGlobal_stems _ ⟨h.1, trivial⟩

theorem stems_work (h : Rests (Cache.Holds (Stems began)) (fun _ => True) σ.session) {n : Nat}
    {move : Workshop.Move W} (hmove : Discreet move)
    (hbegan : ∀ e g, σ.engines[n]? = some e → Workshop.Move.Asks g move →
      began e g (e.outset σ.now g.1 σ.session)) :
    Rests (Cache.Holds (Stems began)) (fun _ => True) (σ.step (.work n move)).session := by
  cases hmember : σ.engines[n]? with
  | none =>
    simp only [step, hmember]
    exact h
  | some e =>
    have k := steady_stems (W := W) began σ.now
    have hcache : ∀ r, move = .cache r → Rests (Cache.Holds (Stems began)) (fun _ => True)
        (r.perform (Poller.moment σ.now) σ.session) := by
      rintro r rfl
      refine k.perform h r fun key value options hr => ?_
      rcases hr with rfl | rfl <;> exact hmove.elim
    obtain ⟨-, hafter⟩ := Workshop.step_leads (σ := σ.workshop e)
      (R := fun _ => Rests (Cache.Holds (Stems began)) fun _ => True) ⟨rfl, h⟩
      (Engine.leads_stems fun g hasks => hbegan e g hmember hasks) h (fun _ _ _ => trivial) hcache
      (fun _ _ => ⟨h.1, trivial⟩) fun _ => h
    simp only [step, hmember]
    exact hafter

/-- **A run** keeps the origin of partials: they were gathered in the course of it. -/
theorem stems_run (began : Engine W → Group.Made → Scene W → Prop) (flag : Flag)
    (epoch now : Instant) (scene : Scene W) {moves : List (Move W)}
    (hmoves : ∀ move ∈ moves, move.Orderly fun _ => True)
    (hbegan : ∀ e g before, (start flag epoch now scene).Began moves e g before →
      began e g before) :
    Rests (Cache.Holds (Stems began)) (fun _ => True)
      ((start flag epoch now scene).run moves).session := by
  induction moves using List.reverseRecOn with
  | nil => exact ⟨⟨.dropAll (start flag epoch now scene).session.cache, nofun, nofun⟩, trivial⟩
  | append_singleton moves move ih =>
    have hrun := ih (fun other hmem => hmoves other (List.mem_append_left _ hmem))
      fun e g before hearlier => hbegan e g before (hearlier.concat move)
    have hmove := hmoves move (List.mem_append_right _ (List.mem_singleton_self move))
    rw [run, List.foldl_append]
    cases move with
    | join source site options => exact stems_join hrun source site options
    | work n move =>
      refine stems_work hrun hmove fun e g hmember hasks => ?_
      exact hbegan e g _ ⟨moves, n, move, [], rfl, hasks, hmember, rfl⟩

end Guild

end Stems

/-! ## Who notices a change -/

/-- A change of a path will be noticed by the partials under a key: they hold a token that was
answered for the path or for a folder that it is in, or a poller is armed for them that looks into
these folders. -/
def Cache.Notices {C : Type} (c : Cache Entry C) (key : String) (slot : Slot Entry C)
    (watches : List (String × Option Token)) (folders : List String) (path : String) : Prop :=
  (∃ call ∈ watches, ∃ t ∈ slot.options.tokens, call.2 = some t ∧ covers call.1 path = true) ∨
    ∃ guard snap, c.Polls guard snap ∧ snap.configKey = key ∧ snap.folders = folders

namespace Guild

variable {W : Type}

/-- **Who notices a change of partials.** Between any two operations of engines that share a cache,
whatever their sources answer to each call: the partials that are stored under a key were gathered
by an engine when a request to it began. They hold exactly the tokens that were answered then, when
it asked for one of each partial folder and of each file that it read. A change of one of these
paths is noticed if and only if a token was answered for the path or for a folder that it is in, or
none was answered at all, and then a poller looks into all the folders. -/
theorem notices_iff (flag : Flag) (epoch now : Instant) (scene : Scene W) {moves : List (Move W)}
    (hmoves : ∀ move ∈ moves, move.Orderly fun _ => True) :
    let σ := start flag epoch now scene
    let cache := (σ.run moves).session.cache
    ∀ key slot v, cache.entries.get? key = some slot → slot.value = .config v →
      ∃ e g before, σ.Began moves e g before ∧ key = e.keys.config g.1 ∧
        let found := (e.gathering g.1 before).1
        let folders := e.options.folders.partialFolders g.1
        let watches := e.watches g.1 before
        v = found.config ∧ watches.map Prod.fst = folders ++ found.attempted ∧
          slot.options.tokens = watches.filterMap Prod.snd ∧
            ∀ path ∈ folders ++ found.attempted,
              cache.Notices key slot watches folders path ↔
                (∃ call ∈ watches, call.2.isSome = true ∧ covers call.1 path = true) ∨
                  ∀ call ∈ watches, call.2 = none := by
  intro σ cache key slot v hget hvalue
  have horderly := (Orderly.start _ _ flag epoch now scene).run hmoves fun _ _ _ _ hbegan => hbegan
  have hstems := stems_run (σ.Began moves) flag epoch now scene hmoves fun _ _ _ hbegan => hbegan
  by_cases htokens : slot.options.tokens = []
  case pos =>
    -- A poller is armed: it comes from the very build that made the partials.
    obtain ⟨guard, ⟨snap, hpoll, hkey⟩, -⟩ := horderly.existsUnique hget hvalue htokens
    obtain ⟨-, slot', v', hget', hvalue', -, e, g, before, hbegan, hconfig, hbuilds⟩ :=
      horderly.guards hpoll
    rw [hkey, hget] at hget'
    cases hget'
    cases hvalue.symm.trans hvalue'
    obtain ⟨after, -, hnone, hv, hsnap⟩ := hbuilds
    obtain ⟨hpaths, hfound⟩ := e.watches_spec g.1 before
    have hsilent : ∀ call ∈ e.watches g.1 before, call.2 = none := by
      rw [hnone] at hfound
      exact fun call hmem => List.filterMap_eq_nil_iff.1 hfound.symm call hmem
    refine ⟨e, g, before, hbegan, hkey.symm.trans hconfig, hv, hpaths, ?_, fun path _ => ?_⟩
    · rw [htokens, ← hfound, hnone]
    · exact ⟨fun _ => .inr hsilent, fun _ => .inr ⟨guard, snap, hpoll, hkey, by rw [hsnap]⟩⟩
  case neg =>
    obtain ⟨e, g, before, hbegan, hconfig, hv, hheld⟩ := hstems.1.stored key slot hget v hvalue
    obtain ⟨hpaths, hfound⟩ := e.watches_spec g.1 before
    rw [hfound] at hheld
    refine ⟨e, g, before, hbegan, hconfig, hv, hpaths, hheld, fun path _ => ⟨?_, ?_⟩⟩
    · rintro (⟨call, hmem, t, -, hcall, hcovers⟩ | ⟨guard, snap, hpoll, hkey, -⟩)
      · exact .inl ⟨call, hmem, by rw [hcall]; rfl, hcovers⟩
      · obtain ⟨-, slot', _, hget', -, hnone, -⟩ := horderly.guards hpoll
        rw [hkey, hget] at hget'
        cases hget'
        exact absurd hnone htokens
    · rintro (⟨call, hmem, hsome, hcovers⟩ | hsilent)
      · obtain ⟨t, hcall⟩ := Option.isSome_iff_exists.1 hsome
        refine .inl ⟨call, hmem, t, ?_, hcall, hcovers⟩
        rw [hheld]
        exact List.mem_filterMap.2 ⟨call, hmem, hcall⟩
      · rw [hheld] at htokens
        exact absurd (List.filterMap_eq_nil_iff.2 hsilent) htokens

/-! ## A folder that nobody looks at -/

open Workshop

/-- Files in memory, of which there are none yet. A token is to be had for every path but the
group's own folder, for which the call fails. -/
def deaf : Observed Memory where
  inner := { push := true }
  faults := [(.watch, "~/Views/Home/_Partials/")]

/-- The files when the tokens of the folders were taken. -/
def tuned : Observed Memory := { deaf with inner.watchers := [("~/Views/_Partials/", ⟨0⟩)] }

/-- The session when the partials of the group are kept, of which there are none. -/
def heard : Studio where
  cache := grounded.cache.link 0 "p::Home:config" (.config ⟨{}, [], []⟩)
    { keys := ["p:global"], tokens := [⟨0⟩] }
  scene :=
    { signals := { issued := 1, listeners := [(⟨0⟩, ⟨1⟩)] }
      journal := .built :: .stored "p::Home:config" :: missed
      world := tuned }

theorem watches_deaf : shelver.watches home.1 { journal := missed, world := deaf } =
    [("~/Views/Home/_Partials/", none), ("~/Views/_Partials/", some ⟨0⟩)] := rfl

theorem build_deaf : shelver.build 0 home.1 ⟨grounded.cache, { journal := missed, world := deaf }⟩ =
    (⟨{}, [], []⟩, heard) := by
  let found : Gathering := { library := {}, tokens := [⟨0⟩] }
  let gathered : Studio :=
    ⟨grounded.cache, { signals := { issued := 1 }, journal := missed, world := tuned }⟩
  let stored : Studio :=
    { heard with scene := { heard.scene with journal := heard.scene.journal.tail } }
  have hglobal : shelver.ensureGlobal 0 ⟨grounded.cache, { journal := missed, world := deaf }⟩ =
      ("p:global", ⟨grounded.cache, { journal := missed, world := deaf }⟩) := rfl
  have hgathered : Session.onScene (Gathering.gather shelver.source shelver.options.extension
      shelver.site (shelver.options.folders.partialFolders home.1))
        (⟨grounded.cache, { journal := missed, world := deaf }⟩ : Studio) = (found, gathered) := rfl
  have hinsert : Session.insert (Poller.moment 0) (shelver.keys.config home.1)
      (.config found.config) { keys := ["p:global"], tokens := found.tokens } gathered =
        (true, stored.settle (Poller.moment 0) []) := rfl
  unfold Engine.build
  simp only
  rw [bind_apply, hglobal]
  simp only
  rw [bind_apply, hgathered]
  simp only
  rw [bind_apply, hinsert, Session.settle_nil]
  rfl

theorem run_deaf : (start ⟨1⟩ 0 0 { world := deaf }).run opening = ⟨[shelver], 0, heard⟩ := by
  have hconfig : shelver.config 0 home.1 (opened deaf) = (⟨{}, [], []⟩, heard) :=
    (config_grounded _ _).trans build_deaf
  rw [run_opening, hconfig]

theorem not_polls_heard (guard : String) (snap : Snapshot) : ¬heard.cache.Polls guard snap := by
  rintro ⟨slot, hget, hvalue⟩
  have hcache : heard.cache.entries.get? guard = if guard = "p::Home:config" then
      some ⟨.config ⟨{}, [], []⟩, { keys := ["p:global"], tokens := [⟨0⟩] }, 0⟩
    else if guard = "p:global" then some ⟨.global, {}, 0⟩ else none :=
    (Cache.get?_link ..).trans (congrArg _ (Cache.get?_link ..))
  rw [hcache] at hget
  split at hget
  · cases hget
    cases hvalue
  · split at hget
    · cases hget
      cases hvalue
    · cases hget

/-- As long as no token fires, the partials are answered from the cache. -/
theorem config_heard (now : Instant) {scene : Scene (Observed Memory)}
    (hsignals : scene.signals = heard.scene.signals) :
    (shelver.config now home.1 { heard with scene }).1 = ⟨{}, [], []⟩ := by
  obtain ⟨signals, journal, serial, world⟩ := scene
  cases hsignals
  rfl

/-- The scene when a partial was written into the folder that nobody can watch. -/
def filled : Scene (Observed Memory) :=
  ((Observed.store Memory.store).write "~/Views/Home/_Partials/a.hbs" older heard.scene).2

/-- Where nobody can watch one of the folders, the partials hold the token of the other one. -/
theorem notices_iff_heard :
    let σ := start ⟨1⟩ 0 0 { world := deaf }
    let cache := (σ.run opening).session.cache
    (∀ move ∈ opening, move.Orderly fun _ => True) ∧
      ∃ slot, cache.entries.get? "p::Home:config" = some slot ∧ slot.options.tokens = [⟨0⟩] ∧
        ∃ e g before, σ.Began opening e g before ∧ "p::Home:config" = e.keys.config g.1 ∧
          let folders := e.options.folders.partialFolders g.1
          let watches := e.watches g.1 before
          slot.options.tokens = watches.filterMap Prod.snd ∧
            ∀ path ∈ folders, cache.Notices "p::Home:config" slot watches folders path ↔
              (∃ call ∈ watches, call.2.isSome = true ∧ covers call.1 path = true) ∨
                ∀ call ∈ watches, call.2 = none := by
  intro σ cache
  have hmoves : ∀ move ∈ opening, move.Orderly fun _ => True := orderly_opening trivial
  have hcache : cache = heard.cache := congrArg (·.session.cache) run_deaf
  have hget : cache.entries.get? "p::Home:config" =
      some ⟨.config ⟨{}, [], []⟩, { keys := ["p:global"], tokens := [⟨0⟩] }, 0⟩ := by
    rw [hcache]
    rfl
  obtain ⟨e, g, before, hbegan, hkey, -, -, htokens, hnotices⟩ :=
    notices_iff ⟨1⟩ 0 0 { world := deaf } hmoves _ _ _ hget rfl
  exact ⟨hmoves, _, hget, rfl, e, g, before, hbegan, hkey, htokens,
    fun path hmem => hnotices path (List.mem_append_left _ hmem)⟩

/-- **A folder that nobody looks at.** For one of the group's partial folders a token was answered,
and for the other the call failed. The partials are kept, no poller is armed for them, and a change
in the other folder is never noticed: with a partial in it, the group still has none, at any later
time, while a build would find it. -/
theorem folder_unwatched :
    let σ := start ⟨1⟩ 0 0 { world := deaf }
    let s := (σ.run opening).session
    let folders := shelver.options.folders.partialFolders home.1
    ∃ slot before, s.cache.entries.get? (shelver.keys.config home.1) = some slot ∧
      slot.value = .config ⟨{}, [], []⟩ ∧ σ.Began opening shelver home before ∧
        "~/Views/Home/_Partials/" ∈ folders ∧
        ¬s.cache.Notices (shelver.keys.config home.1) slot (shelver.watches home.1 before) folders
          "~/Views/Home/_Partials/" ∧
        (∀ guard snap, ¬s.cache.Polls guard snap) ∧
        (∀ now, (shelver.config now home.1 { s with scene := filled }).1.partials = []) ∧
        (shelver.gathering home.1 filled).1.partials = ["a"] := by
  intro σ s folders
  have hs : s = heard := congrArg (·.session) run_deaf
  have hbegan : σ.Began opening shelver home { journal := missed, world := deaf } := by
    refine ⟨[.join shelver.source {} { keyPrefix := some "p" }], 0, .config home, [], rfl, rfl, ?_⟩
    rw [run, List.foldl_cons, join_shelver, List.foldl_nil]
    exact ⟨rfl, rfl⟩
  have hfolder : "~/Views/Home/_Partials/" ∈ folders := by decide +kernel
  have hbuilt : (shelver.gathering home.1 filled).1.partials = ["a"] := by decide +kernel
  refine ⟨_, _, by rw [hs]; rfl, rfl, hbegan, hfolder, ?_, ?_, fun now => ?_, hbuilt⟩
  · rw [hs]
    rintro (⟨call, hmem, t, -, hcall, hcovers⟩ | ⟨guard, snap, hpoll, -⟩)
    · rw [watches_deaf] at hmem
      simp only [List.mem_cons, List.not_mem_nil, or_false] at hmem
      rcases hmem with rfl | rfl
      · cases hcall
      · exact absurd hcovers (by decide +kernel)
    · exact not_polls_heard guard snap hpoll
  · rw [hs]
    exact not_polls_heard
  · have hsignals : filled.signals = heard.scene.signals := rfl
    rw [hs]
    exact congrArg GroupConfig.partials (config_heard now hsignals)

end Guild

end Templating
