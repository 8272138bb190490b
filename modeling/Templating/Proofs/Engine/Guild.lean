import Templating.Proofs.Engine.Fingerprint
import Templating.Proofs.Engine.Polled

/-!
# Engines that share a cache

A `Guild` is any number of engines over sources of their own that share a cache. Their keys have no
colon in front, so that the key of a group's partials is never that of a poller.
`Guild.Orderly.run` carries what a poller guards through any run.

At every moment between two operations the partials of a group for which there was nothing to watch
have exactly one poller, and what a poller guards is what it was armed for
(`Guild.guarded_by_one`). Nobody asks for the key of a poller: there is a unique number in it.
-/

namespace Templating

open Session (Task Settled Settles Upheld waitingEntries)
open Work (Answers Takes)

/-! ## Insertions ask no source -/

section Still

variable {W : Type}

/-- The cache is linked, and what waits to be asked leaves for a dependency. -/
structure Cache.Releasing (c : Cache Entry (Poller W)) (tasks : List (Task Entry (Poller W))) :
    Prop where
  linked : c.Linked
  reason : ∀ e ∈ waitingEntries tasks, e.reason = .dependencyChanged

/-- To hooks of entries that leave for a dependency the world does not matter, nor they to it. -/
theorem settles_releasing (now : Instant) (world : W) :
    Settles (Poller.moment now) Cache.Releasing (· = world) where
  silent c e tasks h _ := ⟨h.linked, fun e' he' => h.reason e' (List.mem_cons_of_mem e he')⟩
  released c e tasks hook scene also h _ _ := by
    refine ⟨h.linked, ?_⟩
    rw [Session.waitingEntries_removes]
    exact fun e' he' => h.reason e' (List.mem_cons_of_mem e he')
  renewed c e tasks hook scene signals value options h _ hanswer := by
    obtain ⟨snap, -, hreason, -, -⟩ := Poller.of_reinsert hanswer
    cases (h.reason e List.mem_cons_self).symm.trans hreason
  absent c key tasks h _ := ⟨h.linked, h.reason⟩
  detached c key d tasks h hd := by
    refine ⟨h.linked.detach hd, ?_⟩
    rw [Session.waitingEntries_consults]
    intro e he
    rcases List.mem_append.1 he with he | he
    · exact Cache.reason_of_detach h.linked.toConsistent hd e he
    · exact h.reason e he
  decide c e tasks hook scene h _ hworld := by
    rw [h.reason e List.mem_cons_self]
    cases e.slot.value <;> exact hworld

/-- **To put an entry in leaves the world as it is**: what leaves, leaves for a dependency, and then
no poller looks again. -/
theorem Session.world_insert {now : Instant} {s : Session Entry (Poller W) W} (h : s.cache.Linked)
    (key : String) (value : Entry) (options : Options (Poller W)) :
    (Session.insert (Poller.moment now) key value options s).2.scene.world = s.scene.world := by
  refine ((Settles.insert (J := fun _ => Cache.Releasing) (P := Cache.Linked)
    (fun _ => settles_releasing now s.scene.world) fun c signals hc => ⟨?_, ?_⟩) s ⟨h, rfl⟩).2
  · exact hc.place key now signals value options
  · rw [Session.waitingEntries_map_consult]
    exact fun e he => (Cache.was_stored_of_place hc key now signals value options e he).2

end Still

/-! ## Operations of an engine -/

namespace Engine

variable {W : Type}

/-- The partials of a group are gathered. -/
abbrev gathering (e : Engine W) (g : Group) : Act W Gathering :=
  Gathering.gather e.source e.options.extension e.site (e.options.folders.partialFolders g)

/-- The scene in which partials are gathered if a request in this session finds none: the cache has
been asked for them twice, and the global entry is there. -/
def outset (e : Engine W) (now : Instant) (g : Group) (s : Session Entry (Poller W) W) : Scene W :=
  let asked := (e.cachedConfig? now g (e.cachedConfig? now g s).2).2
  (e.ensureGlobal now asked).2.scene

theorem takes_cachedConfig {P : Session Entry (Poller W) W → Prop} {e : Engine W} {now : Instant}
    {g : Group} (hget : Takes P P (Session.get (Poller.moment now) (e.keys.config g))) :
    Takes P P (e.cachedConfig? now g) :=
  .bind hget fun found => by
    obtain _ | _ | _ | _ | _ | _ := found <;> exact .pure _

/-- The beginning of a request keeps what reads and the build from its outset keep. -/
theorem config_from_outset {P : Session Entry (Poller W) W → Prop} {e : Engine W} {now : Instant}
    {g : Group} {s : Session Entry (Poller W) W} (h : P s)
    (hget : Takes P P (Session.get (Poller.moment now) (e.keys.config g)))
    (hbuild : ∀ s', P s' → (e.ensureGlobal now s').2.scene = e.outset now g s →
      P (e.build now g s').2) : P (e.config now g s).2 := by
  have hcached := takes_cachedConfig hget
  have hfirst := hcached s h
  have hsecond := hcached _ hfirst
  have hlast := hbuild _ hsecond rfl
  unfold config
  rw [bind_apply]
  cases (e.cachedConfig? now g s).1 with
  | some c => exact hfirst
  | none =>
    simp only
    rw [bind_apply]
    cases (e.cachedConfig? now g (e.cachedConfig? now g s).2).1 with
    | some c => exact hsecond
    | none => exact hlast

/-- What a build of the engine comes to where there is nothing to watch: the partials that it has
gathered, beginning in `before`, and the snapshot with the fingerprints that it takes when these are
stored, in `after`. -/
def Builds (e : Engine W) (g : Group) (before : Scene W) (v : GroupConfig) (snap : Snapshot) :
    Prop :=
  ∃ after : Scene W,
    let gathered := e.gathering g before
    gathered.2.world = after.world ∧ gathered.1.tokens = [] ∧ v = gathered.1.config ∧
      snap = ⟨e.options.folders.partialFolders g, (gathered.1.fingerprints e.source after).1,
        gathered.1.ignored.eraseDups, e.keys.config g⟩

/-- What holds of a session when nothing is left to do: partials are guarded. -/
abbrev Guarded (Made : String → GroupConfig → Snapshot → Prop) :
    Session Entry (Poller W) W → Prop :=
  Settled (Polled Made (fun _ => False) (fun _ => False) fun _ _ => True) fun _ => True

variable {Made : String → GroupConfig → Snapshot → Prop} {e : Engine W} {now : Instant}
  {g : Group.Made}

theorem upheld_guarded (Made : String → GroupConfig → Snapshot → Prop) (now : Instant) :
    Upheld (Poller.moment now)
      (Polled Made (fun _ => False) (fun _ => False) fun _ _ => True) fun _ : W => True :=
  upheld_polled now fun _ => False.elim

theorem takes_insert_plain {key : String} {value : Entry} {options : Options (Poller W)}
    (hkey : ¬PollerKey key) (hpoll : ∀ snap, value ≠ .poll snap)
    (hconfig : ∀ v, value ≠ .config v) :
    Takes (Guarded Made) (Guarded Made) (Session.insert (Poller.moment now) key value options) :=
  (upheld_guarded Made now).insert fun _ signals h =>
    h.place_plain hkey now signals hpoll hconfig fun _ => trivial

theorem takes_remove_guarded {key : String} (hkey : ¬PollerKey key) :
    Takes (W := W) (Guarded Made) (Guarded Made) (Session.remove (Poller.moment now) key) :=
  (upheld_guarded Made now).toSettles.remove
    (P := fun c => Polled Made (fun _ => False) (fun _ => False) (fun _ _ => True) c [])
    fun _ h => by
      have hscheduled := h.schedule (List.forall_mem_singleton.2 hkey) fun _ => .inl
      exact hscheduled

section Keys

variable (hkeys : e.keys.ColonFree)

include hkeys

theorem takes_ensureGlobal_guarded :
    Takes (Guarded Made) (Guarded Made) (e.ensureGlobal now) := by
  refine .bind ((upheld_guarded Made now).insertIfAbsent fun c signals h => ?_) fun _ => .pure _
  exact h.place_plain (KeySpace.not_pollerKey_global hkeys) now signals nofun nofun fun _ => trivial

theorem takes_clear_guarded : Takes (Guarded Made) (Guarded Made) (e.clear now) :=
  have hglobal := KeySpace.not_pollerKey_global hkeys
  .bind (takes_remove_guarded hglobal) fun _ =>
    .bind (takes_insert_plain hglobal nofun nofun) fun _ => .pure _

/-- A poller is armed for partials that nobody guards yet. -/
theorem takes_arm_guarded {v : GroupConfig} {snap : Snapshot}
    {only : Entry → Options (Poller W) → Prop} (hsnap : snap.configKey = e.keys.config g.1)
    (honly : ∀ value options, only value options → value = .config v ∧ options.tokens = [])
    (hmade : Made snap.configKey v snap) :
    Takes (Settled (Polled Made (· = snap.configKey) (· = snap.configKey) only) fun _ => True)
      (Guarded Made) (e.arm now snap) := by
  refine .bind
    (Q := Settled (Polled Made (· = snap.configKey) (· = snap.configKey) only) fun _ => True)
    (fun s hs => hs) fun serial => .bind (Q := Guarded Made) ?_ fun _ => .pure _
  refine (Settles.insert
    (J := fun _ => Polled Made (fun _ => False) (fun _ => False) fun _ _ => True)
    (P := fun c => Polled Made (· = snap.configKey) (· = snap.configKey) only c [])
    (fun _ => (upheld_guarded Made now).toSettles) fun c signals h => ?_).takes fun _ _ hs => hs
  obtain ⟨hstands, hnone⟩ := h.fresh snap.configKey rfl
  have hbeside : snap.Beside (KeySpace.poller snap.configKey serial)
      (e.poller.options now snap.configKey) :=
    ⟨hsnap ▸ KeySpace.partialsKey_config hkeys g, ⟨serial, rfl⟩, rfl, rfl, nofun⟩
  have hrest : Polled Made (· = snap.configKey) (fun _ => False) (fun _ _ => True) c [] :=
    h.with_fresh (fun _ => .inl) fun _ => False.elim
  intro p
  rw [← List.append_nil (p.evicted.map _)]
  refine hrest.place_poll now signals hbeside
    (fun key' snap' hduty hsame => absurd hsame (hnone key' snap' hduty)) (fun slot hget => ?_)
    (fun _ => False.elim) rfl fun _ => .inr
  obtain ⟨hvalue, htokens⟩ := honly _ _ (hstands slot hget)
  exact ⟨v, hvalue, htokens, hmade⟩

/-- **A build** leaves partials that are guarded, or for which there is something to watch. -/
theorem guarded_build {s : Session Entry (Poller W) W} (h : Guarded Made s)
    (hmade : ∀ v snap, e.Builds g.1 (e.ensureGlobal now s).2.scene v snap →
      Made (e.keys.config g.1) v snap) : Guarded Made (e.build now g.1 s).2 := by
  have hpartials := KeySpace.partialsKey_config hkeys g
  have hfresh : ∀ key, key = e.keys.config g.1 → PartialsKey key := by
    rintro _ rfl
    exact hpartials
  let before := (e.ensureGlobal now s).2.scene
  let only (found : Gathering) (stored : Bool) (value : Entry) (options : Options (Poller W)) :
      Prop :=
    stored = true ∧ value = .config found.config ∧
      options = { keys := [e.keys.global], tokens := found.tokens }
  let Fresh (found : Gathering) (stored : Bool) : Session Entry (Poller W) W → Prop :=
    Settled (Polled Made (· = e.keys.config g.1) (· = e.keys.config g.1) (only found stored))
      fun _ => True
  let After (found : Gathering) (s : Session Entry (Poller W) W) : Prop :=
    (e.gathering g.1 before).1 = found ∧ (e.gathering g.1 before).2.world = s.scene.world
  refine answers_build (P := (· = s)) (A := fun s => Guarded Made s ∧ s.scene = before)
    (B := fun found s => Guarded Made s ∧ After found s)
    (C := fun found stored s => Fresh found stored s ∧ After found s)
    (D := fun found fingerprints s => Fresh found true s ∧ found.tokens = [] ∧
      Made (e.keys.config g.1) found.config ⟨e.options.folders.partialFolders g.1, fingerprints,
        found.ignored.eraseDups, e.keys.config g.1⟩) (R := fun _ => Guarded Made)
    ?global ?gather ?insert ?fingerprints ?arm ?done (fun _ _ hs => hs) s rfl
  case global =>
    rintro _ rfl
    exact ⟨takes_ensureGlobal_guarded hkeys _ h, rfl⟩
  case gather =>
    rintro s ⟨hs, hscene⟩
    refine ⟨⟨hs.1, trivial⟩, ?_, ?_⟩ <;> rw [← hscene] <;> rfl
  case insert =>
    intro found s hs
    have hinsert := Settles.insert (J := fun stored => Polled Made (· = e.keys.config g.1)
        (· = e.keys.config g.1) (only found stored))
      (P := fun c => Polled Made (fun _ => False) (fun _ => False) (fun _ _ => True) c [])
      (fun _ => (upheld_polled now hfresh).toSettles)
      (fun c signals h => h.place_config hpartials now signals found.config _) s hs.1
    obtain ⟨hfound, hworld⟩ := hs.2
    exact ⟨hinsert, hfound, hworld.trans (Session.world_insert hs.1.1.linked _ _ _).symm⟩
  case fingerprints =>
    rintro _ htokens s ⟨hs, rfl, hworld⟩
    exact ⟨⟨hs.1, trivial⟩, htokens, hmade _ _ ⟨s.scene, hworld, htokens, rfl, rfl⟩⟩
  case arm =>
    intro found fingerprints s hs
    have honly : ∀ value options, only found true value options →
        value = .config found.config ∧ options.tokens = [] := by
      rintro value options ⟨-, hvalue, rfl⟩
      exact ⟨hvalue, hs.2.1⟩
    exact takes_arm_guarded hkeys rfl honly hs.2.2 s hs.1
  case done =>
    -- What was stored holds a token, and what was not stored is not there.
    intro found stored s hstored hs
    refine ⟨hs.1.1.with_fresh (fun key hkey => .inr fun slot hget v _ htokens => ?_)
      (fun _ => False.elim), trivial⟩
    obtain ⟨htrue, -, hoptions⟩ := (hs.1.1.fresh key hkey).1 slot hget
    rw [hoptions] at htokens
    rw [hstored htokens] at htrue
    cases htrue

/-- So does the beginning of a request, if a build from its outset makes what it should. -/
theorem guarded_config {s : Session Entry (Poller W) W} (h : Guarded Made s)
    (hmade : ∀ v snap, e.Builds g.1 (e.outset now g.1 s) v snap →
      Made (e.keys.config g.1) v snap) : Guarded Made (e.config now g.1 s).2 :=
  config_from_outset h ((upheld_guarded Made now).get _) fun _ hs' hscene =>
    guarded_build hkeys hs' (hscene ▸ hmade)

/-- A look-up leaves the guard of partials as it is, unless the path is that of a poller. -/
theorem takes_lookup_guarded {c : GroupConfig} {path : String}
    (hpath : ∀ serial, path ≠ KeySpace.pollerPath serial) :
    Takes (Guarded Made) (Guarded Made) (e.lookup now g.1 c path) := by
  have k := upheld_guarded (W := W) Made now
  have hsource := Source.Keeps.trivial e.source
  have hkey := KeySpace.not_pollerKey_path hkeys g hpath
  refine takes_lookup (k.get _) (fun _ hs => ⟨hs.1, trivial⟩)
    (takes_remove_guarded hkey) (takes_ask
      (I := fun c _ => Polled Made (fun _ => False) (fun _ => False) (fun _ _ => True) c []) hsource
      (fun token => .bind (takes_insert_plain hkey nofun nofun) fun _ => .pure _)
      fun token => takes_compile hsource
        (.bind (takes_insert_plain hkey nofun nofun) fun _ => .pure _) ?_)
  rintro template rfl -
  unfold rememberCompiled
  split
  · exact .pure _
  · exact .bind (takes_insert_plain hkey nofun nofun) fun _ => .pure _

/-- **Every operation** leaves partials guarded, if a build makes what it should from the outset of
each request. -/
theorem leads_guarded {s : Session Entry (Poller W) W} {G : Group.Made → Prop}
    (hmade : ∀ g, G g → ∀ v snap, e.Builds g.1 (e.outset now g.1 s) v snap →
      Made (e.keys.config g.1) v snap) :
    Workshop.Leads e now G (fun path => ∀ serial, path ≠ KeySpace.pollerPath serial)
      (fun s' => s' = s ∧ Guarded Made s') (Guarded Made) := by
  have hconfig : ∀ g, G g → Takes (fun s' => s' = s ∧ Guarded Made s') (Guarded Made)
      (e.config now g.1) := by
    rintro g hg _ ⟨rfl, hs⟩
    exact guarded_config hkeys hs (hmade g hg)
  refine ⟨hconfig, fun g hg name layout => ?_, fun g hg path hpath => ?_,
    fun s' hs => takes_clear_guarded hkeys s' hs.2⟩
  · exact takes_views (R := fun _ => Guarded Made) (fun _ hs => hs.2) (hconfig g hg).answers
      (fun _ _ hrooted => takes_lookup_guarded hkeys fun _ => hrooted.ne_config_append _)
      (fun _ _ hs => hs) name layout
  · exact takes_resolvePath (fun _ hs => hs.2) (hconfig g hg).answers
      fun _ => takes_lookup_guarded hkeys hpath

end Keys

end Engine

/-! ## Runs -/

/-- A snapshot is stored under the key. -/
def Cache.Polls {C : Type} (c : Cache Entry C) (key : String) (snap : Snapshot) : Prop :=
  ∃ slot, c.entries.get? key = some slot ∧ slot.value = .poll snap

/-- Engines that share a cache, at an instant. -/
structure Guild (W : Type) where
  engines : List (Engine W) := []
  now : Instant
  session : Session Entry (Poller W) W

namespace Guild

/-- What may happen. -/
inductive Move (W : Type)
  /-- A new engine joins. -/
  | join (source : Source W) (site : Template.Library) (options : EngineOptions)
  /-- Something happens to one of the engines, to the cache, or around them. -/
  | work (n : Nat) (move : Workshop.Move W)

/-- Nobody asks for the path of a poller, removes a poller, or puts something into the cache. -/
def Discreet {W : Type} : Workshop.Move W → Prop
  | .resolvePath _ path => ∀ serial, path ≠ KeySpace.pollerPath serial
  | .cache (.insert ..) | .cache (.insertIfAbsent ..) => False
  | .cache (.remove key) => ¬PollerKey key
  | _ => True

/-- An engine joins with a source as `S` says, and the text that it asks for in front of its keys
holds no colon. -/
def Move.Orderly {W : Type} (S : Source W → Prop) : Move W → Prop
  | .join source _ options =>
    S source ∧ ∀ text, options.keyPrefix = some text → ':' ∉ text.toList
  | .work _ move => Discreet move

variable {W : Type}

/-- An empty cache, and no engine yet. -/
def start (flag : Flag) (epoch now : Instant) (scene : Scene W) : Guild W where
  now
  session := ⟨{ epoch, flag }, scene⟩

/-- One of the engines, at work. -/
def workshop (σ : Guild W) (e : Engine W) : Workshop W := ⟨e, σ.now, σ.session⟩

/-- What a move leaves behind. -/
def step (σ : Guild W) : Move W → Guild W
  | .join source site options =>
    match Engine.create source site options σ.now σ.session with
    | (.ok e, session) => { σ with engines := σ.engines ++ [e], session }
    | (.error _, session) => { σ with session }
  | .work n move =>
    match σ.engines[n]? with
    | none => σ
    | some e =>
      let τ := (σ.workshop e).step move
      ⟨σ.engines.set n τ.engine, τ.now, τ.session⟩

def run (σ : Guild W) (moves : List (Move W)) : Guild W := moves.foldl step σ

/-- In the course of a run a request to an engine began, from whose outset the partials of the group
would be gathered in this scene. -/
def Began (σ : Guild W) (moves : List (Move W)) (e : Engine W) (g : Group.Made)
    (before : Scene W) : Prop :=
  ∃ earlier n move later, moves = earlier ++ .work n move :: later ∧ Workshop.Move.Asks g move ∧
    let τ := σ.run earlier
    τ.engines[n]? = some e ∧ before = e.outset τ.now g.1 τ.session

/-- The partials and the snapshot come from one build, of an engine and from an outset as `began`
says. -/
def MadeBy (began : Engine W → Group.Made → Scene W → Prop) (key : String) (v : GroupConfig)
    (snap : Snapshot) : Prop :=
  ∃ e g before, began e g before ∧ key = e.keys.config g.1 ∧ e.Builds g.1 before v snap

end Guild

/-- Keys of an engine's own hold no colon in front. -/
theorem KeySpace.colonFree_unique (serial : Nat) : (unique serial).ColonFree := by
  have hdigit : ∀ d < 16, Text.hexDigit d ≠ ':' := by decide
  have hdigits : ∀ count n, ':' ∉ Text.hexDigits count n := by
    intro count n
    induction count generalizing n with
    | zero => exact List.not_mem_nil
    | succ count ih =>
      rw [Text.hexDigits, List.mem_append, List.mem_singleton, not_or]
      exact ⟨ih _, (hdigit _ (Nat.mod_lt n (by decide))).symm⟩
  have hlist : (unique serial).keyPrefix.toList = "space-".toList ++ Text.hexDigits 32 serial := by
    simp only [unique, String.toList_append, Text.hex, String.toList_ofList]
  rw [ColonFree, hlist, List.mem_append, not_or]
  exact ⟨by decide, hdigits 32 serial⟩

namespace Guild

variable {W : Type} {S : Source W → Prop} {began : Engine W → Group.Made → Scene W → Prop}
  {σ : Guild W}

theorem Began.concat {moves : List (Move W)} {e : Engine W} {g : Group.Made} {before : Scene W}
    (h : σ.Began moves e g before) (move : Move W) : σ.Began (moves ++ [move]) e g before := by
  obtain ⟨earlier, n, asked, later, rfl, hasks, hbefore⟩ := h
  exact ⟨earlier, n, asked, later ++ [move], by rw [List.append_assoc, List.cons_append], hasks,
    hbefore⟩

/-- What holds between two moves: partials are guarded, and the engines keep apart. -/
structure Orderly (S : Source W → Prop) (began : Engine W → Group.Made → Scene W → Prop)
    (σ : Guild W) : Prop where
  guarded : Engine.Guarded (MadeBy began) σ.session
  engines : ∀ e ∈ σ.engines, S e.source ∧ e.keys.ColonFree

namespace Orderly

theorem join (h : σ.Orderly S began) {source : Source W} (site : Template.Library)
    {options : EngineOptions} (hsource : S source)
    (hspace : ∀ text, options.keyPrefix = some text → ':' ∉ text.toList) :
    (σ.step (.join source site options)).Orderly S began := by
  rcases Engine.create_cases source site options σ.now σ.session with
    ⟨err, hrefused⟩ | ⟨keys, scene, -, hkeys, hcreated⟩
  · simp only [step, hrefused]
    exact h
  · simp only [step, hcreated]
    have hcolon : keys.ColonFree := by
      rcases hkeys with hasked | ⟨-, serial, rfl⟩
      · exact hspace _ hasked
      · exact KeySpace.colonFree_unique serial
    refine ⟨Engine.takes_ensureGlobal_guarded hcolon _ ⟨h.guarded.1, trivial⟩, fun e hmem => ?_⟩
    rcases List.mem_append.1 hmem with hmem | hmem
    · exact h.engines e hmem
    · rw [List.mem_singleton.1 hmem]
      exact ⟨hsource, hcolon⟩

theorem work (h : σ.Orderly S began) {n : Nat} {move : Workshop.Move W} (hmove : Discreet move)
    (hbegan : ∀ e g, S e.source → σ.engines[n]? = some e → Workshop.Move.Asks g move →
      began e g (e.outset σ.now g.1 σ.session)) : (σ.step (.work n move)).Orderly S began := by
  cases hmember : σ.engines[n]? with
  | none =>
    simp only [step, hmember]
    exact h
  | some e =>
    obtain ⟨hsource, hkeys⟩ := h.engines e (List.mem_of_getElem? hmember)
    have hleads : Workshop.Leads e σ.now (fun g => Workshop.Move.Asks g move)
        (fun path => ∀ serial, path ≠ KeySpace.pollerPath serial)
        (fun s => s = σ.session ∧ Engine.Guarded (MadeBy began) s)
        (Engine.Guarded (MadeBy began)) :=
      Engine.leads_guarded hkeys fun g hasks v snap hbuilds =>
        ⟨e, g, _, hbegan e g hsource hmember hasks, rfl, hbuilds⟩
    have k := Engine.upheld_guarded (W := W) (MadeBy began) σ.now
    have hpath : ∀ g path, move = .resolvePath g path →
        ∀ serial, path ≠ KeySpace.pollerPath serial := by
      rintro g path rfl
      exact hmove
    have hcache : ∀ r, move = .cache r → Engine.Guarded (MadeBy began)
        (r.perform (Poller.moment σ.now) σ.session) := by
      rintro r rfl
      cases r with
      | insert => exact hmove.elim
      | insertIfAbsent => exact hmove.elim
      | get key => exact k.get key _ h.guarded
      | look key => exact k.look key _ h.guarded
      | remove key => exact Engine.takes_remove_guarded hmove _ h.guarded
      | purge => exact k.purge _ h.guarded
      | clear => exact k.clear _ h.guarded
    obtain ⟨⟨site, hsite⟩, hguarded⟩ := Workshop.step_leads (σ := σ.workshop e)
      (R := fun _ => Engine.Guarded (MadeBy began)) ⟨rfl, h.guarded⟩ hleads h.guarded hpath hcache
      (fun _ _ => ⟨h.guarded.1, trivial⟩) fun _ => h.guarded
    simp only [step, hmember]
    refine ⟨hguarded, fun e' hmem => ?_⟩
    rcases List.mem_or_eq_of_mem_set hmem with hmem | rfl
    · exact h.engines e' hmem
    · rw [hsite]
      exact ⟨hsource, hkeys⟩

/-- **A run** keeps partials guarded. -/
theorem run (h : σ.Orderly S began) {moves : List (Move W)}
    (hmoves : ∀ move ∈ moves, move.Orderly S)
    (hbegan : ∀ e g before, S e.source → σ.Began moves e g before → began e g before) :
    (σ.run moves).Orderly S began := by
  induction moves using List.reverseRecOn with
  | nil => exact h
  | append_singleton moves move ih =>
    have hrun := ih (fun other hmem => hmoves other (List.mem_append_left _ hmem))
      fun e g before hsource hearlier => hbegan e g before hsource (hearlier.concat move)
    have hmove := hmoves move (List.mem_append_right _ (List.mem_singleton_self move))
    have hstep : σ.run (moves ++ [move]) = (σ.run moves).step move := by
      rw [Guild.run, List.foldl_append]
      rfl
    rw [hstep]
    cases move with
    | join source site options => exact hrun.join site hmove.1 hmove.2
    | work n move =>
      refine hrun.work hmove fun e g hsource hmember hasks => ?_
      exact hbegan e g _ hsource ⟨moves, n, move, [], rfl, hasks, hmember, rfl⟩

/-- Nothing is cached before the first engine joins. -/
theorem start (S : Source W → Prop) (began : Engine W → Group.Made → Scene W → Prop) (flag : Flag)
    (epoch now : Instant) (scene : Scene W) : (start flag epoch now scene).Orderly S began where
  guarded := by
    have hlinked := Cache.Linked.dropAll (Guild.start flag epoch now scene).session.cache
    refine ⟨⟨⟨hlinked, nofun, nofun⟩, nofun, ?_, ?_, nofun, fun _ => False.elim⟩, trivial⟩
    · rintro key snap slot (⟨_, hget, -⟩ | ⟨_, hmem, -⟩)
      · cases hget
      · cases hmem
    · rintro key key' snap snap' (⟨_, hget, -⟩ | ⟨_, hmem, -⟩)
      · cases hget
      · cases hmem
  engines := nofun

/-- A stored snapshot hangs off partials without tokens, from the same build. -/
theorem guards (h : σ.Orderly S began) {guard : String} {snap : Snapshot}
    (hpoll : σ.session.cache.Polls guard snap) :
    σ.session.cache.DependsOn guard snap.configKey ∧
      ∃ slot v, σ.session.cache.entries.get? snap.configKey = some slot ∧ slot.value = .config v ∧
        slot.options.tokens = [] ∧ MadeBy began snap.configKey v snap := by
  have hpolled := h.guarded.1
  obtain ⟨below, hbelow, hsnap⟩ := hpoll
  have hdep := hpolled.dependsOn hbelow hsnap
  obtain ⟨slot, hslot⟩ := Option.isSome_iff_exists.1 (hpolled.linked.parent_stored _ _ hdep)
  obtain ⟨v, hvalue, htokens, hmade⟩ :=
    hpolled.target guard snap slot (.inl ⟨below, hbelow, hsnap⟩) hslot
  exact ⟨hdep, slot, v, hslot, hvalue, htokens, hmade⟩

/-- Partials without tokens have a snapshot, and no other one. -/
theorem existsUnique (h : σ.Orderly S began) {key : String} {slot : Slot Entry (Poller W)}
    {v : GroupConfig} (hget : σ.session.cache.entries.get? key = some slot)
    (hvalue : slot.value = .config v) (htokens : slot.options.tokens = []) :
    ∃! guard, ∃ snap, σ.session.cache.Polls guard snap ∧ snap.configKey = key := by
  have hpolled := h.guarded.1
  obtain ⟨guard, snap, hstored | ⟨_, hmem, -⟩, hkey⟩ :=
    (hpolled.guarded key slot v hget hvalue htokens).resolve_right (not_or.2 ⟨nofun, id⟩)
  · refine ⟨guard, ⟨snap, hstored, hkey⟩, ?_⟩
    rintro other ⟨snap', hstored', hkey'⟩
    exact hpolled.alone other guard snap' snap (.inl hstored') (.inl hstored)
      (hkey'.trans hkey.symm)
  · cases hmem

end Orderly

open Workshop

/-- The session of a new engine over some files. -/
def opened (world : Observed Memory) : Studio :=
  ⟨grounded.cache, { journal := [.stored "p:global"], world }⟩

theorem join_shelver (world : Observed Memory) :
    (start ⟨1⟩ 0 0 { world }).step (.join shelver.source {} { keyPrefix := some "p" }) =
      ⟨[shelver], 0, opened world⟩ := by
  have hjoin : (start ⟨1⟩ 0 0 { world }).step (.join shelver.source {} { keyPrefix := some "p" }) =
      ⟨[shelver], 0, (opened world).settle (Poller.moment 0) []⟩ := rfl
  rw [hjoin, Session.settle_nil]

/-- An engine joins, and a group asks for its partials. -/
def opening : List (Move (Observed Memory)) :=
  [.join shelver.source {} { keyPrefix := some "p" }, .work 0 (.config home)]

theorem run_opening (world : Observed Memory) :
    (start ⟨1⟩ 0 0 { world }).run opening =
      ⟨[shelver], 0, (shelver.config 0 home.1 (opened world)).2⟩ := by
  rw [run, opening, List.foldl_cons, join_shelver, List.foldl_cons, List.foldl_nil]
  rfl

theorem orderly_opening {S : Source (Observed Memory) → Prop} (h : S shelver.source) :
    ∀ move ∈ opening, move.Orderly S := by
  simp [opening, Move.Orderly, Discreet, h]

end Guild

end Templating
