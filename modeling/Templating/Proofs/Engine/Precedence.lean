import Templating.Proofs.ByteOrder
import Templating.Proofs.Engine.Fates
import Templating.Proofs.Engine.Readings
import Templating.Proofs.Engine.Walks

/-!
# Which partial file counts

Partial files are walked through in the order of their folders, and in each folder in the order of
the bytes of their paths. `Report.fates` tells what becomes of each: it is ignored if its name is
one of the site's or was registered before, registered if it is well formed, and fails otherwise. A
group's partials are what comes of this walk (`Report.Yields`). So of several files with one name
the first counts that is well formed, and none takes the place of a template of the site.

Partials that are in the cache have the templates that the site has by now, since all of them are
dropped when a template is registered (`Workshop.carries_run`). This takes nothing from the source:
its calls may fail, and files may change in the middle of a build.
-/

namespace Templating

open Template (Library)

/-! ## The order of the files -/

/-- Files in memory are in ascending order, as writing them leaves them. -/
def Files.Ordered : Files → Prop
  | .memory m => Sorted.Ascending m.files
  | .directory _ => True

/-- **A folder is listed in the order of bytes.** -/
theorem Files.pairwise_list {files : Files} (h : files.Ordered) (folder : String) :
    (files.report.list folder).Pairwise fun a b => Text.bytes a ≤ Text.bytes b := by
  suffices hle : (files.report.list folder).Pairwise (· ≤ ·) by
    refine hle.imp fun {a b} hab => ?_
    exact fun hlt => not_lt.2 hab (Text.lt_iff_bytes_lt.2 hlt)
  cases files with
  | memory m =>
    have hpaths : (m.files.map Prod.fst).Pairwise (· ≤ ·) := h.pairwise_keys.imp le_of_lt
    have hbelow : (m.below (asFolder folder)).Sublist (m.files.map Prod.fst) :=
      (List.takeWhile_sublist _).trans (List.dropWhile_sublist _)
    exact hpaths.sublist (List.filter_sublist.trans hbelow)
  | directory d =>
    change (d.list folder).Pairwise (· ≤ ·)
    unfold Directory.list
    split
    · exact (List.pairwise_mergeSort (by simpa using fun a b c => le_trans)
        (by simpa using le_total) _).imp of_decide_eq_true
    · exact .nil

/-! ## Partials that are not in the cache -/

namespace Engine

open Work (Takes)

variable {W : Type} {e : Engine W} {now : Instant} {g : Group.Made} {r : Report} {Q : W → Prop}
  {s : Session Entry (Poller W) W}

/-- There are no partials in an empty cache. -/
theorem cachedConfig_of_empty (h : Session.Steady.Rests (Cache.Holds Empty) Q s) :
    (e.cachedConfig? now g.1 s).1 = none := by
  have hstored := ((steady_empty now).get (e.keys.config g.1) s h).1.stored (e.keys.config g.1)
  have hfound := @Session.stored_of_get _ _ _ (Poller.moment now) s (e.keys.config g.1)
  unfold cachedConfig?
  rw [bind_apply]
  generalize Session.get (Poller.moment now) (e.keys.config g.1) s = a at hstored hfound
  obtain ⟨_ | _ | c | _ | _ | _, s'⟩ := a
  case some.config =>
    obtain ⟨slot, hslot, hvalue⟩ := hfound rfl
    have hglobal : slot.value = .global := hstored slot hslot
    cases hglobal.symm.trans hvalue
  all_goals rfl

/-- **Partials that are not in the cache** are made from the files. -/
theorem config_of_not_cached (h : e.Watches now s []) (hreports : e.source.Reports Q r)
    (hworld : Q s.scene.world) (hcold : (e.cachedConfig? now g.1 s).1 = none) :
    (e.config now g.1 s).1 =
      r.config e.options.extension e.site (e.options.folders.partialFolders g.1) := by
  have k := lasting_lulls e now s.scene.signals.fired hreports.still
  obtain ⟨hlulls, -, hconfig⟩ := config_of_cold hreports.still h hworld hcold
  have hbuild : Work.Answers (e.Lulls Q s.scene.signals.fired now · [])
      (fun c _ => c = r.config e.options.extension e.site (e.options.folders.partialFolders g.1))
      (e.build now g.1) := by
    refine answers_build (A := (e.Lulls Q s.scene.signals.fired now · []))
      (B := fun found _ => found.config = _) (C := fun found _ _ => found.config = _)
      (D := fun found _ _ => found.config = _)
      (.bind (k.insertIfAbsent (admits_lasts e now g).global) fun _ => .pure _)
      (fun s hs => hreports.gather hs.lull.world e.site _) (fun _ _ hfound => hfound)
      (fun _ _ _ hfound => hfound) (fun _ _ _ hfound => hfound) (fun _ _ _ _ hfound => hfound)
      fun _ _ hfound => hfound
  rw [hconfig]
  exact hbuild _ hlulls

end Engine

/-! ## Templates of the site -/

/-- The library has every template of another one. -/
def Template.Library.Extends (l site : Library) : Prop :=
  ∀ name nodes, site.templates.get? name = some nodes → l.templates.get? name = some nodes

namespace Gathering

variable {W : Type} {s : Source W} {extension : String} {site : Library}

theorem extends_add {g : Gathering} (h : g.library.Extends site) (path : String)
    (scene : Scene W) : (add s extension g path scene).1.library.Extends site := by
  by_cases htaken : g.library.has (partialName extension path) = true
  · rw [add_of_taken scene htaken]
    exact h
  · rw [(add_of_free scene htaken).1]
    cases (s.read path (s.changeToken? path scene).2).1 with
    | error _ => exact h
    | ok source =>
      cases hsource : Template.Node.ofSource? source with
      | none =>
        simp only [Library.withAnswer, Library.register, hsource, Except.toOption,
          Option.getD_none]
        exact h
      | some added =>
        intro name nodes hname
        have hne : name ≠ partialName extension path := by
          rintro rfl
          exact htaken (Option.isSome_iff_exists.2 ⟨nodes, h _ _ hname⟩)
        simp only [Library.withAnswer, Library.register, hsource, Except.toOption,
          Option.getD_some]
        exact (Table.get?_put_of_ne _ _ hne).trans (h _ _ hname)

/-- **Partials are gathered beside the templates of the site**, whatever the source answers. -/
theorem extends_gather (folders : List String) (scene : Scene W) :
    (gather s extension site folders scene).1.library.Extends site := by
  have hfold : ∀ (paths : List String) (g : Gathering) (scene : Scene W),
      g.library.Extends site →
        (paths.foldlM (add s extension) g scene).1.library.Extends site := by
    intro paths
    induction paths with
    | nil => exact fun _ _ h => h
    | cons path paths ih =>
      intro g scene h
      rw [List.foldlM_cons, bind_apply]
      exact ih _ _ (extends_add h path scene)
  unfold gather
  rw [bind_apply, bind_apply]
  exact hfold _ _ _ fun _ _ h => h

end Gathering

namespace Engine

open Session.Steady (Rests)
open Work (Answers Takes)

variable {W : Type} {e : Engine W} {now : Instant} {g : Group.Made}

/-- The partials that the engine stores have the templates of its site. -/
def Carries (e : Engine W) (key : String) (value : Entry) (_ : Options (Poller W)) : Prop :=
  e.keys.Owns key → ∀ c, value = .config c → key ≠ e.keys.global ∧ c.library.Extends e.site

theorem Carries.plain {key : String} {value : Entry} {options : Options (Poller W)}
    (h : ∀ c, value ≠ .config c) : e.Carries key value options :=
  fun _ c hc => absurd hc (h c)

variable (e now) in
theorem steady_carries : Session.Steady (Poller.moment now) (fun _ _ => e.Carries)
    (Cache.Holds e.Carries) fun _ : W => True := by
  refine Session.steady_holds (fun _ _ _ _ _ _ => trivial) fun _ _ _ _ _ _ _ h => ?_
  obtain ⟨snap, -, -, rfl, -⟩ := Poller.of_reinsert h
  exact .plain nofun

/-- **The partials of a group** have the templates of the site. -/
theorem answers_config_carries : Answers (Rests (Cache.Holds e.Carries) fun _ => True)
    (fun c s => c.library.Extends e.site ∧ Rests (Cache.Holds e.Carries) (fun _ => True) s)
    (e.config now g.1) := by
  have k := steady_carries e now
  have hsource := Source.Keeps.trivial e.source
  let Made (found : Gathering) (s : Session Entry (Poller W) W) : Prop :=
    found.library.Extends e.site ∧ Rests (Cache.Holds e.Carries) (fun _ => True) s
  refine answers_config (k.get _) (fun s c hs hfound => ?_) (answers_build
    (A := Rests (Cache.Holds e.Carries) fun _ => True) (B := Made) (C := fun found _ => Made found)
    (D := fun found _ => Made found)
    (.bind (k.insertIfAbsent fun _ _ => .plain nofun) fun _ => .pure _)
    (fun s hs => ⟨Gathering.extends_gather _ _, hs.1, trivial⟩)
    (fun found s hs => ⟨hs.1, k.insert (fun _ _ _ c hc => ?_) s hs.2⟩)
    (fun found _ s hs => ⟨hs.1, takes_onScene (hsource.fingerprints found) s hs.2⟩)
    (fun found fingerprints s hs => ⟨hs.1, ?_⟩) (fun _ _ _ _ hs => hs) fun _ _ hs => hs)
  · obtain ⟨slot, hslot, hvalue⟩ := Session.stored_of_get hfound
    have hrests := k.get (e.keys.config g.1) s hs
    exact ⟨(hrests.1.stored _ slot hslot (e.keys.owns_config g) c hvalue).2, hrests⟩
  · cases hc
    exact ⟨(e.keys.global_ne_config g.1).symm, hs.1⟩
  · have harm : Takes (Rests (Cache.Holds e.Carries) fun _ => True)
        (Rests (Cache.Holds e.Carries) fun _ => True)
        (e.arm now ⟨e.options.folders.partialFolders g.1, fingerprints, found.ignored.eraseDups,
          e.keys.config g.1⟩) :=
      .bind (takes_onScene .takeSerial) fun _ =>
        .bind (k.insert fun _ _ => .plain nofun) fun _ => .pure _
    exact harm s hs.2

/-- To register a template is to be refused, or to drop what is cached and to go on with it beside
those of the site. -/
theorem register_spec (e : Engine W) (now : Instant) (name text : String)
    (s : Session Entry (Poller W) W) :
    (∃ err, e.register now name text s = (.error err, s)) ∨
      ∃ nodes, Template.Node.ofSource? text = some nodes ∧
        e.register now name text s =
          (.ok { e with site.templates := e.site.templates.put name nodes },
            (e.clear now s).2) := by
  unfold register Library.register
  cases requireName "name" name with
  | error err => exact .inl ⟨err, rfl⟩
  | ok _ =>
    cases hnodes : Template.Node.ofSource? text with
    | none => exact .inl ⟨_, rfl⟩
    | some nodes => exact .inr ⟨nodes, rfl, rfl⟩

/-- Every operation leaves it so. -/
theorem keeps_carries (e : Engine W) (now : Instant) : Workshop.Keeps e now (fun _ => True)
    (Rests (Cache.Holds e.Carries) fun _ => True) := by
  refine Workshop.keeps_holds (steady_carries e) (fun g s hs => (answers_config_carries s hs).2)
    (fun g c path => ?_) (.plain nofun)
  refine takes_lookup_steady (Source.Keeps.trivial e.source) (steady_carries e now) ?_
    fun _ _ => .plain nofun
  rintro cache value token sliding recheck - (rfl | ⟨template, -, -, rfl⟩) <;> exact .plain nofun

end Engine

namespace Workshop

open Session.Steady (Rests)

variable {W : Type} {source : Source W} {site : Library} {options : EngineOptions}
  {start : Instant} {s₀ s₁ : Session Entry (Poller W) W} {e : Engine W} {moves : List (Move W)}

/-- What others store is no partials of the engine. -/
theorem carries_step {σ : Workshop W} (hsite : ∃ site, σ.engine = { e with site })
    (hhangs : e.Hangs σ.now (fun _ => False) σ.session)
    (h : Rests (Cache.Holds σ.engine.Carries) (fun _ => True) σ.session) {move : Move W}
    (hmove : move.Within (fun key _ => ¬e.keys.Owns key) fun _ => True) :
    Rests (Cache.Holds (σ.step move).engine.Carries) (fun _ => True) (σ.step move).session := by
  have hkeeps := σ.engine.keeps_carries σ.now
  have hact : ∀ {α : Type} {op : Resolving W α},
      Work.Takes (Rests (Cache.Holds σ.engine.Carries) fun _ => True)
        (Rests (Cache.Holds σ.engine.Carries) fun _ => True) op →
      Rests (Cache.Holds (σ.act op).engine.Carries) (fun _ => True) (σ.act op).session :=
    fun hop => hop _ h
  cases move with
  | resolve g name layout => exact hact (hkeeps.views g trivial name layout).1
  | resolvePartial g name => exact hact (hkeeps.views g trivial name none).2
  | resolvePath g path => exact hact (hkeeps.path g trivial path trivial)
  | config g => exact hact (hkeeps.config g trivial)
  | clear => exact hact hkeeps.clear
  | change scene => exact ⟨h.1, trivial⟩
  | advance time => exact h
  | cache r =>
    refine (σ.engine.steady_carries σ.now).perform h r fun key value options hr _ _ howns => ?_
    have hkeys : σ.engine.keys = e.keys := by
      obtain ⟨site, hsite⟩ := hsite
      rw [hsite]
    rw [hkeys] at howns
    rcases hr with rfl | rfl <;> exact absurd howns hmove
  | register name source =>
    rcases σ.step_register name source with heq | ⟨site', heq⟩
    · rw [heq]
      exact h
    · -- All partials were dropped, so that none lacks the new template.
      have hclears : σ.Clears (.clear : Move W) := .inl rfl
      have hcleared := (cleared_of_clears hsite hhangs hclears).2
      have hkept := hkeeps.clear _ h
      obtain ⟨site, hsite⟩ := hsite
      rw [heq]
      refine ⟨⟨hcleared.hangs.1.linked, fun key slot hget howns c hc => ?_, nofun⟩, trivial⟩
      have hne := (hkept.1.stored key slot hget howns c hc).1
      rw [hsite] at howns hne
      obtain ⟨hmissing, -⟩ := hcleared.notes key slot howns hne hget
      cases hmissing.symm.trans hc

/-- **Through every run** the partials in the cache have the templates that the site has by then. -/
theorem carries_run
    (hcreate : Engine.create source site options start s₀ = (.ok e, s₁))
    (hlinked : s₀.cache.Linked)
    (hfree : ∀ key, e.keys.Owns key → s₀.cache.entries.get? key = none)
    (hmoves : ∀ move ∈ moves, move.Within (fun key _ => ¬e.keys.Owns key) fun _ => True) :
    let σ := (⟨e, start, s₁⟩ : Workshop W).run moves
    Rests (Cache.Holds σ.engine.Carries) (fun _ => True) σ.session := by
  induction moves using List.reverseRecOn with
  | nil =>
    obtain ⟨-, scene, -, rfl⟩ := Engine.create_eq_ok hcreate
    have hglobal : Work.Takes (Rests (Cache.Holds e.Carries) fun _ => True)
        (Rests (Cache.Holds e.Carries) fun _ => True) (e.ensureGlobal start) :=
      .bind ((e.steady_carries start).insertIfAbsent fun _ _ => .plain nofun) fun _ => .pure _
    refine hglobal _ ⟨⟨hlinked, fun key slot hget howns => ?_, nofun⟩, trivial⟩
    cases (hfree key howns).symm.trans hget
  | append_singleton moves move ih =>
    have hbefore : ∀ move ∈ moves, move.Within (fun key _ => ¬e.keys.Owns key) fun _ => True :=
      fun other hmem => hmoves other (List.mem_append_left _ hmem)
    have hmove := hmoves move (List.mem_append_right _ (List.mem_singleton_self move))
    obtain ⟨hsite, hhangs⟩ := run_hangs hcreate hlinked hfree hbefore
    have hstep := carries_step hsite hhangs (ih hbefore) hmove
    unfold run at hstep ⊢
    rw [List.foldl_append]
    exact hstep

/-- To register a template is to be refused, or to add it to those of the site. -/
theorem step_register_cases (σ : Workshop W) (name text : String) :
    (∃ err, (σ.engine.register σ.now name text σ.session).1 = .error err) ∧
        σ.step (.register name text) = σ ∨
      (∃ e', (σ.engine.register σ.now name text σ.session).1 = .ok e') ∧
        ∃ nodes, Template.Node.ofSource? text = some nodes ∧
          (σ.step (.register name text)).engine.site.templates =
            σ.engine.site.templates.put name nodes := by
  rcases σ.engine.register_spec σ.now name text σ.session with
    ⟨err, heq⟩ | ⟨nodes, hnodes, heq⟩
  · exact .inl ⟨⟨err, congrArg Prod.fst heq⟩, by simp only [step, heq]⟩
  · exact .inr ⟨⟨_, congrArg Prod.fst heq⟩, nodes, hnodes, by simp only [step, heq]⟩

/-- A template of the site stays until another one is registered under its name. -/
theorem site_run {σ : Workshop W} {name : String} {nodes : List Template.Node}
    (h : σ.engine.site.templates.get? name = some nodes)
    (hmoves : ∀ move ∈ moves, ∀ text, move ≠ .register name text) :
    (σ.run moves).engine.site.templates.get? name = some nodes := by
  induction moves generalizing σ with
  | nil => exact h
  | cons move moves ih =>
    obtain ⟨hmove, hrest⟩ := List.forall_mem_cons.1 hmoves
    refine ih ?_ hrest
    cases move with
    | register other text =>
      have hne : name ≠ other := fun heq => hmove text (heq ▸ rfl)
      rcases σ.step_register_cases other text with ⟨-, heq⟩ | ⟨-, _, -, heq⟩ <;> rw [heq]
      · exact h
      · exact (Table.get?_put_of_ne _ _ hne).trans h
    | resolve | resolvePartial | resolvePath | config | clear | cache | change | advance => exact h

/-- **Group configs meet their reference.** After any run of an engine over files in memory or in a
folder, whatever its site and its options are, a group's partial files are walked through in the
order of their folders, and in each folder in the order of bytes. Each has one fate, and what is
gathered is what comes of that: the first well-formed file of each name, but for the names of the
site, whose templates stay. These are the group's partials whenever they are not in the cache. A
template that is refused changes nothing; one that is registered is found under its name by every
group from then on, whatever happens, until another one is registered under that name. -/
theorem configs_meet_reference {epoch : Instant} {flag : Flag} {scene : Scene Files}
    {e₀ : Engine Files} {s₀ : Session Entry (Poller Files) Files} {moves : List (Move Files)}
    (hcreate : Engine.create Files.store.toSource site options start ⟨{ epoch, flag }, scene⟩ =
      (.ok e₀, s₀))
    (horderly : (⟨e₀, start, s₀⟩ : Workshop Files).Orderly moves)
    (hmoves : ∀ move ∈ moves, move.Within (fun key _ => ¬e₀.keys.Owns key) fun _ => True) :
    let σ := (⟨e₀, start, s₀⟩ : Workshop Files).run moves
    let e := σ.engine
    let files := σ.session.scene.world
    (files.Ordered → ∀ folder,
      (files.report.list folder).Pairwise fun a b => Text.bytes a ≤ Text.bytes b) ∧
    (∀ g : Group.Made,
      let paths := files.report.scan e.options.extension (e.options.folders.partialFolders g.1)
      let walked := files.report.fates e.options.extension e.site [] paths
      let found := (e.gathering g.1 σ.session.scene).1
      walked.map Prod.fst = paths ∧ found.attempted = Fate.readFiles walked ∧
        files.report.Yields e.options.extension e.site paths found.config ∧
        ((e.cachedConfig? σ.now g.1 σ.session).1 = none →
          (e.config σ.now g.1 σ.session).1 = found.config)) ∧
    ∀ name text,
      (∀ err, (e.register σ.now name text σ.session).1 = .error err →
        σ.step (.register name text) = σ) ∧
      ∀ e', (e.register σ.now name text σ.session).1 = .ok e' →
        ∃ nodes, Template.Node.ofSource? text = some nodes ∧ ∀ later : List (Move Files),
          (∀ move ∈ later, move.Within (fun key _ => ¬e₀.keys.Owns key) (fun _ => True) ∧
            ∀ other, move ≠ .register name other) →
          let τ := (σ.step (.register name text)).run later
          ∀ g : Group.Made, (τ.engine.config τ.now g.1 τ.session).1.library.templates.get? name =
            some nodes := by
  intro σ e files
  obtain ⟨hsource, hstart⟩ := watches_create hcreate Files.leads_store
  obtain ⟨⟨site', hsite⟩, hlast⟩ := watches_run (σ := ⟨e₀, start, s₀⟩)
    (hsource ▸ Files.leads_store) hstart horderly
  have he : e = { e₀ with site := site' } := hsite
  have hwatches : e.Watches σ.now σ.session [] := by
    rw [he]
    exact hlast
  have hreports : e.source.Reports files.Same files.report := by
    rw [he, hsource]
    exact files.reports
  refine ⟨fun hordered folder => Files.pairwise_list hordered folder, fun g => ?_,
    fun name text => ⟨fun err hrefused => ?_, fun e' haccepted => ?_⟩⟩
  · have hgathered : (e.gathering g.1 σ.session.scene).1.bare = _ :=
      hreports.gather_bare (Files.Same.refl files) e.site (e.options.folders.partialFolders g.1)
    obtain ⟨hyields, hattempted⟩ := files.report.yields e.options.extension e.site
      (files.report.scan e.options.extension (e.options.folders.partialFolders g.1))
    rw [← hgathered] at hyields hattempted
    refine ⟨Report.map_fst_fates, hattempted, hyields, fun hcold => ?_⟩
    exact (Engine.config_of_not_cached hwatches hreports (Files.Same.refl files) hcold).trans
      (hreports.gather (Files.Same.refl files) e.site _).symm
  · rcases σ.step_register_cases name text with ⟨-, heq⟩ | ⟨⟨e', haccepted⟩, -⟩
    · exact heq
    · cases hrefused.symm.trans haccepted
  · rcases σ.step_register_cases name text with ⟨⟨err, hrefused⟩, -⟩ | ⟨-, nodes, hnodes, hsite⟩
    · cases hrefused.symm.trans haccepted
    refine ⟨nodes, hnodes, fun later hlater => ?_⟩
    intro τ g
    have hτ : τ = (⟨e₀, start, s₀⟩ : Workshop Files).run
        (moves ++ .register name text :: later) := by
      change _ = List.foldl _ _ _
      rw [List.foldl_append, List.foldl_cons]
      rfl
    have hall : ∀ move ∈ moves ++ .register name text :: later,
        move.Within (fun key _ => ¬e₀.keys.Owns key) fun _ => True :=
      List.forall_mem_append.2 ⟨hmoves, List.forall_mem_cons.2
        ⟨trivial, fun move hmem => (hlater move hmem).1⟩⟩
    have hlinked : ({ epoch, flag } : Cache Entry (Poller Files)).Linked :=
      .dropAll { epoch, flag }
    have hcarries := carries_run hcreate hlinked (fun _ _ => rfl) hall
    rw [← hτ] at hcarries
    refine (Engine.answers_config_carries _ hcarries).1 name nodes ?_
    refine site_run ?_ fun move hmem => (hlater move hmem).2
    rw [hsite]
    exact Table.get?_put_self ..

/-! Two files of one name, the first of which is broken, and one with the name of a template of the
site. -/

def cluttered : Files := .memory
  { files :=
      [("~/Views/Home/_Partials/site-foot.hbs", "\x7b% endif %\x7d"),
        ("~/Views/_Partials/nav.hbs", "no"), ("~/Views/_Partials/site foot.hbs", "new")]
    push := false }

/-- The templates of the site: one that is called `nav`. -/
def bar : Library := (({} : Library).register "nav" "old").toOption.getD {}

/-- An engine over these files, with keys that start with `p`. -/
def clerk : Engine Files := ⟨Files.store.toSource, bar, { keyPrefix := some "p" }, ⟨"p"⟩⟩

/-- The engine when it is made. -/
def hired : Workshop Files :=
  ⟨clerk, 0, (clerk.ensureGlobal 0 ⟨{ epoch := 0, flag := ⟨0⟩ }, { world := cluttered }⟩).2⟩

/-- **A broken file does not stand in the way** of a later one with its name, and the template of
the site stays. -/
theorem configs_meet_reference_cluttered :
    let σ := hired.run [.advance 5]
    let c := (σ.engine.config σ.now home.1 σ.session).1
    (σ.engine.cachedConfig? σ.now home.1 σ.session).1 = none ∧
      c.partials = ["site_foot"] ∧ c.ignored = ["~/Views/_Partials/nav.hbs"] ∧
      c.library.templates.get? "site_foot" = Template.Node.ofSource? "new" ∧
      c.library.templates.get? "nav" = Template.Node.ofSource? "old" := by
  intro σ c
  have hcreate : Engine.create Files.store.toSource bar { keyPrefix := some "p" } 0
      ⟨{ epoch := 0, flag := ⟨0⟩ }, { world := cluttered }⟩ = (.ok hired.engine, hired.session) :=
    rfl
  have hmoves : ∀ move ∈ [(.advance 5 : Move Files)],
      move.Within (fun key _ => ¬clerk.keys.Owns key) fun _ => True :=
    List.forall_mem_singleton.2 trivial
  obtain ⟨hwatches, hempty⟩ := Engine.watches_empty (e := clerk) (Q := (· = cluttered)) 0 0 ⟨0⟩
    { world := cluttered } rfl
  obtain ⟨-, hempty⟩ := Engine.watches_ensureGlobal Files.leads_store hwatches hempty
  have hcold : (clerk.cachedConfig? 5 home.1 hired.session).1 = none :=
    Engine.cachedConfig_of_empty hempty
  have hworld : hired.session.scene.world = cluttered := hempty.2
  have horderly : hired.Orderly [.advance 5] := ⟨trivial, trivial⟩
  obtain ⟨-, -, hgathered, hcached⟩ := (configs_meet_reference hcreate horderly hmoves).2.1 home
  rw [← hcached hcold] at hgathered
  have hyields : hired.session.scene.world.report.Yields ".hbs" bar
      (hired.session.scene.world.report.scan ".hbs" (clerk.options.folders.partialFolders home.1))
      c := hgathered
  rw [hworld] at hyields
  refine ⟨hcold, hyields.partials.trans ?_, hyields.ignored.trans ?_, ?_, ?_⟩
  · decide +kernel
  · decide +kernel
  · have hfiles : (cluttered.report.scan ".hbs"
        (clerk.options.folders.partialFolders home.1)).filter (partialName ".hbs" · = "site_foot") =
          ["~/Views/Home/_Partials/site-foot.hbs", "~/Views/_Partials/site foot.hbs"] := by
      decide +kernel
    have hbroken : cluttered.report.nodes? "~/Views/Home/_Partials/site-foot.hbs" = none :=
      Option.isNone_iff_eq_none.1 (by decide +kernel)
    obtain ⟨nodes, hnodes⟩ : ∃ nodes, Template.Node.ofSource? "new" = some nodes :=
      Option.isSome_iff_exists.1 (by decide +kernel)
    have hlast : cluttered.report.nodes? "~/Views/_Partials/site foot.hbs" = some nodes := hnodes
    rw [hyields.first "site_foot" (by decide +kernel), hfiles, List.findSome?_cons, hbroken]
    simp only
    rw [List.findSome?_cons, hlast, hnodes]
  · refine (hyields.kept "nav" (by decide +kernel)).trans ?_
    obtain ⟨nodes, hnodes⟩ : ∃ nodes, Template.Node.ofSource? "old" = some nodes :=
      Option.isSome_iff_exists.1 (by decide +kernel)
    simp only [bar, Library.register, hnodes, Except.toOption, Option.getD_some]
    exact Table.get?_put_self ..

end Workshop

end Templating
