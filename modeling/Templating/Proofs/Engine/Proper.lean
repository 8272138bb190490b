import Templating.Proofs.Cache.Lull
import Templating.Proofs.Engine.Workshop

/-!
# Nothing hangs off a template

In an engine's cache nothing depends on the entry of a path at which templates are looked for, and
the only hooks are the engine's pollers (`Engine.Proper`). Others who use the cache are expected to
leave it so. Then the cache is watchful through every run (`Workshop.keeps_watch`), and once a
group's partials were asked for there is a lull (`Engine.lull_config`): what is stored is live.
-/

namespace Templating

open Work (Answers Takes)

/-- The key of what is stored for a group under a path at which templates are looked for. -/
def KeySpace.Leaf (k : KeySpace) (key : String) : Prop :=
  ∃ (g : Group.Made) (path : String), Rooted path ∧ key = k.path g.1 path

namespace KeySpace

variable (k : KeySpace)

theorem leaf_path (g : Group.Made) {path : String} (h : Rooted path) : k.Leaf (k.path g.1 path) :=
  ⟨g, path, h, rfl⟩

theorem not_leaf_global : ¬k.Leaf k.global := by
  rintro ⟨g, path, -, heq⟩
  exact k.global_ne_path g.1 path heq

theorem not_leaf_config (g : Group.Made) : ¬k.Leaf (k.config g.1) := by
  rintro ⟨g', path, hrooted, heq⟩
  exact hrooted.ne_config (k.path_injective g.2 g'.2 heq).2.symm

theorem config_ne_path (g : Group.Made) {path : String} (h : Rooted path) :
    k.config g.1 ≠ k.path g.1 path := fun heq =>
  k.not_leaf_config g (heq ▸ k.leaf_path g h)

/-- Nothing depends on the key of a template, and a hook is the poller `p` with a snapshot for
something else than that. -/
structure Proper {W : Type} (p : Poller W) (key : String) (value : Entry)
    (options : Options (Poller W)) : Prop where
  barren : ∀ parent ∈ options.keys, ¬k.Leaf parent
  hook : ∀ hook, options.hook = some hook →
    hook = p ∧ ∃ snap, value = .poll snap ∧ ¬k.Leaf snap.configKey

end KeySpace

/-- Every entry is as `A` says, and the cache watches. -/
structure Session.Watches {V C W : Type} (A : String → V → Options C → Prop) (now : Instant)
    (s : Session V C W) (pending : List (Evicted V C)) : Prop where
  holds : s.cache.Holds A pending
  watchful : s.cache.Watchful now s.scene.signals

namespace Engine

variable {W : Type} {e : Engine W} {now : Instant} {g : Group.Made} {c : GroupConfig}

/-! ## Operations and what lasts -/

section Lasting

variable {New : String → Entry → Options (Poller W) → Prop}
  {P : Session Entry (Poller W) W → List (Evicted Entry (Poller W)) → Prop}
  {R : Scene W → Scene W → Prop}

/-- What a group's partials and their poller are put in with is admitted. -/
structure Admits (e : Engine W) (now : Instant) (g : Group.Made)
    (New : String → Entry → Options (Poller W) → Prop) : Prop where
  global : New e.keys.global .global {}
  config : ∀ value tokens,
    New (e.keys.config g.1) (.config value) { keys := [e.keys.global], tokens }
  poll : ∀ serial snap, snap.configKey = e.keys.config g.1 →
    New (KeySpace.poller snap.configKey serial) (.poll snap)
      (e.poller.options now snap.configKey)

variable (k : Session.Lasting (Poller.moment now) New P)
  (hscene : ∀ s scene, P s [] → R s.scene scene → P { s with scene } [])

include hscene in
theorem lasting_onScene {α : Type} {act : Act W α} (h : act.Follows R) :
    Takes (P · []) (P · []) (Session.onScene act : Resolving W α) :=
  fun s hs => hscene s _ hs (h s.scene)

variable (course : Scene.Course R) (hsource : e.source.Follows R)

include k hscene course hsource

theorem lasting_build (hnew : e.Admits now g New) :
    Takes (P · []) (P · []) (e.build now g.1) := by
  have hact : ∀ {α : Type} {act : Act W α}, act.Follows R →
      Takes (P · []) (P · []) (Session.onScene act : Resolving W α) := lasting_onScene hscene
  exact answers_build (A := (P · [])) (B := fun _ => (P · [])) (C := fun _ _ => (P · []))
    (D := fun _ _ => (P · [])) (R := fun _ => (P · []))
    (.bind (k.insertIfAbsent hnew.global) fun _ => .pure _)
    (hact (hsource.gather course _ _ _))
    (fun found => k.insert (hnew.config found.config found.tokens))
    (fun found _ => hact (hsource.fingerprints course found))
    (fun _ _ => .bind (hact course.takeSerial) fun _ => .bind (k.insert (hnew.poll _ _ rfl))
      fun _ => .pure _)
    (fun _ _ _ _ h => h) fun _ _ h => k.note _ _ _ h

theorem lasting_config (hnew : e.Admits now g New) :
    Takes (P · []) (P · []) (e.config now g.1) :=
  answers_config (P := (P · [])) (R := fun _ => (P · [])) (k.get _) (fun s _ h _ => k.get _ s h)
    (lasting_build k hscene course hsource hnew)

theorem lasting_lookup {path : String} (hguarded : ∀ value token sliding recheck,
      (value = .missing ∨ ∃ t, value = .compiled t) →
        New (e.keys.path g.1 path) value (e.guarded now g.1 token sliding recheck))
    (hbroken : New (e.keys.path g.1 path) .missing
      { expiration := .absolute (now + e.options.timings.compileFailureRetry) }) :
    Takes (P · []) (P · []) (e.lookup now g.1 c path) := by
  have hact : ∀ {α : Type} {act : Act W α}, act.Follows R →
      Takes (P · []) (P · []) (Session.onScene act : Resolving W α) := lasting_onScene hscene
  refine takes_lookup (k.get _) (hact (hsource.fingerprint path)) (k.remove _) <|
    takes_ask_of (U := fun _ => (P · [])) (hact (hsource.changeToken? course path))
      (fun _ => hact (hsource.isFile path))
      (fun token => .bind (k.insert (hguarded _ token _ _ (.inl rfl))) fun _ => .pure _)
      fun token => takes_compile_of (U := fun _ => (P · [])) (hact (hsource.read path))
        (fun _ event s h => k.note s [] event h) (fun _ => hact (hsource.fingerprint path))
        (fun _ _ h => h) (fun _ => .bind (k.insert hbroken) fun _ => .pure _) ?_
  rintro _ template rfl - - -
  unfold rememberCompiled
  split
  · exact .pure _
  · exact .bind (k.insert (hguarded _ token _ _ (.inr ⟨template, rfl⟩))) fun _ => .pure _

/-- **What lasts is kept by every operation**, if what an engine puts in is admitted. -/
theorem lasting_keeps (hglobal : New e.keys.global .global {})
    (hnew : ∀ g : Group.Made, e.Admits now g New)
    (hguarded : ∀ (g : Group.Made) path value token sliding recheck,
      (value = .missing ∨ ∃ t, value = .compiled t) →
        New (e.keys.path g.1 path) value (e.guarded now g.1 token sliding recheck))
    (hbroken : ∀ (g : Group.Made) path, New (e.keys.path g.1 path) .missing
      { expiration := .absolute (now + e.options.timings.compileFailureRetry) }) :
    Workshop.Keeps e now (fun _ => True) (P · []) := by
  have hconfig : ∀ g : Group.Made, Takes (P · []) (P · []) (e.config now g.1) := fun g =>
    lasting_config k hscene course hsource (hnew g)
  have hlookup : ∀ (g : Group.Made) c path, Takes (P · []) (P · []) (e.lookup now g.1 c path) :=
    fun g c path => lasting_lookup k hscene course hsource (hguarded g path) (hbroken g path)
  exact
    { config := fun g _ => hconfig g
      views := fun g _ name layout =>
        takes_views (R := fun _ => (P · [])) (fun _ h => h) (hconfig g).answers
          (fun c path _ => hlookup g c path) (fun _ _ h => h) name layout
      path := fun g _ path _ =>
        takes_resolvePath (R := fun _ => (P · [])) (fun _ h => h) (hconfig g).answers
          fun c => hlookup g c path
      clear := .bind (k.remove _) fun _ =>
        .bind (k.insert hglobal) fun _ => .pure _ }

end Lasting

/-! ## Proper entries -/

/-- The entries that are expected in a cache of the engine. -/
abbrev Proper (e : Engine W) : String → Entry → Options (Poller W) → Prop :=
  e.keys.Proper e.poller

theorem proper_poll (key : String) {snap : Snapshot} (h : ¬e.keys.Leaf snap.configKey) :
    e.Proper key (.poll snap) (e.poller.options now snap.configKey) where
  barren parent hparent := by
    rw [List.mem_singleton.1 hparent]
    exact h
  hook hook hhook := ⟨(Option.some.inj hhook).symm, snap, rfl, h⟩

variable (e now g) in
theorem admits_proper : e.Admits now g e.Proper where
  global := ⟨nofun, nofun⟩
  config _ _ := by
    refine ⟨fun parent hparent => ?_, nofun⟩
    rw [List.mem_singleton.1 hparent]
    exact e.keys.not_leaf_global
  poll _ snap hkey := proper_poll _ (by
    rw [hkey]
    exact e.keys.not_leaf_config g)

theorem proper_guarded (key : String) (value : Entry) (token : Option Token)
    (sliding recheck : Duration) :
    e.Proper key value (e.guarded now g.1 token sliding recheck) where
  barren parent hparent := by
    rw [List.mem_singleton.1 hparent]
    exact e.keys.not_leaf_config g
  hook _ hhook := nomatch hhook

/-- What a hook puts back is proper, and it expires when the interval of the poller is over. -/
theorem proper_renewed {x : Evicted Entry (Poller W)} {hook : Poller W} {scene : Scene W}
    {value : Entry} {options : Options (Poller W)} (h : e.Proper x.key x.slot.value x.slot.options)
    (hhook : x.slot.options.hook = some hook)
    (haction : ((Poller.moment now).decide hook x.key x.slot.value x.reason scene).1 =
      .reinsert value options) :
    e.Proper x.key value options ∧ options.expiration = .absolute (now + e.poller.interval) := by
  obtain ⟨rfl, snap, hsnap, hleaf⟩ := h.hook hook hhook
  obtain ⟨snap', hsnap', -, rfl, rfl⟩ := Poller.of_reinsert haction
  cases hsnap.symm.trans hsnap'
  exact ⟨proper_poll x.key hleaf, rfl⟩

/-! ## Runs -/

/-- Every entry is proper, and the cache watches. -/
abbrev Watches (e : Engine W) (now : Instant) (s : Session Entry (Poller W) W)
    (pending : List (Evicted Entry (Poller W))) : Prop :=
  s.Watches e.Proper now pending

namespace Watches

variable {s : Session Entry (Poller W) W} {pending : List (Evicted Entry (Poller W))}

theorem later (h : e.Watches now s pending) (time : Duration) {scene : Scene W}
    (hleads : s.scene.signals.Leads scene.signals) :
    e.Watches (now + time) { s with scene } pending :=
  ⟨h.holds, h.watchful.later (Nat.le_add_right now time) fun _ => hleads.tells⟩

variable (e now) in
/-- An engine's cache watches on, whatever happens to it, if its source lowers no flag. -/
theorem lasting (hsource : e.source.Follows fun a b => a.signals.Leads b.signals) :
    Session.Lasting (Poller.moment now) e.Proper (e.Watches now) where
  note _ _ _ h := ⟨h.holds, h.watchful⟩
  forget _ _ _ h := ⟨h.holds.forget, h.watchful⟩
  decide s x pending hook h hhook := by
    obtain ⟨rfl, -⟩ := (h.holds.pending x List.mem_cons_self).hook hook hhook
    have hleads := Poller.follows_decide Scene.course_leads (p := e.poller) hsource now x.key
      x.slot.value x.reason s.scene
    exact ⟨h.holds.forget, h.watchful.later (Nat.le_refl now) fun _ => hleads.tells⟩
  renew _ x _ _ _ _ h hhook haction :=
    (proper_renewed (h.holds.pending x List.mem_cons_self) hhook haction).1
  place s _ key value options h hnew := by
    refine ⟨h.holds.place now s.scene.signals hnew, ?_⟩
    rw [Session.signals_commit]
    exact h.watchful.place h.holds.linked key value options
  detach s _ key d h hd :=
    ⟨h.holds.thin (.detach h.holds.linked hd)
      (Cache.was_stored_of_detach h.holds.linked.toConsistent hd),
      h.watchful.of_loses (Cache.loses_detach h.holds.linked.toConsistent hd .expired)⟩
  sweep s h := by
    have hswept := h.holds.thin (.sweep h.holds.linked now (s.scene.signals.lower s.cache.flag))
      (Cache.loses_evictEach h.holds.linked
        (s.cache.doomed now (s.scene.signals.lower s.cache.flag))).was_stored
    rw [List.append_nil] at hswept
    exact ⟨hswept, h.watchful.sweep h.holds.linked⟩
  touch s key h :=
    ⟨h.holds.thin (.touch h.holds.linked now key) (List.forall_mem_nil _), h.watchful.touch key⟩
  dropAll s h :=
    ⟨h.holds.thin (.dropAll s.cache) (List.forall_mem_nil _),
      .dropAll s.cache now s.scene.signals⟩

/-- Every operation of the engine leaves the cache watching. -/
theorem keeps (hsource : e.source.Follows fun a b => a.signals.Leads b.signals) :
    Workshop.Keeps e now (fun _ => True) (e.Watches now · []) :=
  lasting_keeps (lasting e now hsource) (fun _ _ h hleads => h.later 0 hleads) Scene.course_leads
    hsource ⟨nofun, nofun⟩ (admits_proper e now)
    (fun _ _ value token sliding recheck _ => proper_guarded _ value token sliding recheck)
    fun _ _ => ⟨nofun, nofun⟩

end Watches

/-! ## The lull behind a group's partials -/

/-- There is a lull, and every entry is proper, those that wait to be asked included. -/
structure Lulls (e : Engine W) (Q : W → Prop) (fired : List Token) (now : Instant)
    (s : Session Entry (Poller W) W) (pending : List (Evicted Entry (Poller W))) : Prop where
  holds : s.cache.Holds e.Proper pending
  lull : s.Lull e.keys.Leaf Q fired now

/-- The entry is proper and does not expire now. -/
def Lasts (e : Engine W) (now : Instant) (key : String) (value : Entry)
    (options : Options (Poller W)) : Prop :=
  e.Proper key value options ∧ ∀ epoch touched,
    (⟨value, options, touched⟩ : Slot Entry (Poller W)).isExpired epoch now = false

theorem lasts_of_absolute {key : String} {value : Entry} {options : Options (Poller W)}
    (h : e.Proper key value options)
    (hexpires : options.expiration = .absolute (now + e.poller.interval)) :
    e.Lasts now key value options := by
  refine ⟨h, fun epoch touched => Slot.isExpired_eq_false.2 fun deadline hdeadline => ?_⟩
  unfold Slot.deadline? at hdeadline
  simp only [hexpires, Option.some.injEq] at hdeadline
  rw [← hdeadline]
  exact Nat.lt_add_of_pos_right e.options.timings.poll_pos

variable (e now g) in
theorem admits_lasts : e.Admits now g (e.Lasts now) where
  global := ⟨(admits_proper e now g).global, fun _ _ => rfl⟩
  config value tokens := ⟨(admits_proper e now g).config value tokens, fun _ _ => rfl⟩
  poll serial snap hkey :=
    lasts_of_absolute ((admits_proper e now g).poll serial snap hkey) rfl

section Lulls

variable {Q : W → Prop} {fired : List Token} {s : Session Entry (Poller W) W}

variable (e now fired) in
/-- A lull lasts as long as nothing is put in that is out of date. -/
theorem lasting_lulls (hsource : e.source.Follows (Scene.Still Q)) :
    Session.Lasting (Poller.moment now) (e.Lasts now) (e.Lulls Q fired now) where
  note s _ event h := ⟨h.holds, (h.lull.scene (s.scene.note event) h.lull.world rfl).1⟩
  forget _ x _ h := ⟨h.holds.forget, h.lull⟩
  decide s x pending hook h hhook := by
    obtain ⟨rfl, -⟩ := (h.holds.pending x List.mem_cons_self).hook hook hhook
    obtain ⟨hworld, hfired⟩ := Poller.follows_decide (p := e.poller) (Scene.course_still Q) hsource
      now x.key x.slot.value x.reason s.scene h.lull.world
    exact ⟨h.holds.forget, (h.lull.scene _ hworld hfired).1⟩
  renew _ x _ _ _ _ h hhook haction :=
    have hrenewed := proper_renewed (h.holds.pending x List.mem_cons_self) hhook haction
    lasts_of_absolute hrenewed.1 hrenewed.2
  place s _ key value options h hnew :=
    ⟨h.holds.place now s.scene.signals hnew.1,
      h.lull.place (m := Poller.moment now) hnew.1.barren (.inl (hnew.2 _ _))⟩
  detach s _ key d h hd :=
    have hconsistent := h.holds.linked.toConsistent
    have hloses := Cache.loses_detach hconsistent hd .expired
    ⟨h.holds.thin (.detach h.holds.linked hd) (Cache.was_stored_of_detach hconsistent hd),
      h.lull.of_kept (h.lull.linked.detach hd) hloses.epoch hloses.kept h.lull.world rfl⟩
  sweep s h := by
    have hloses := Cache.loses_evictEach h.holds.linked
      (s.cache.doomed now (s.scene.signals.lower s.cache.flag))
    have hswept := h.holds.thin (.sweep h.holds.linked now (s.scene.signals.lower s.cache.flag))
      hloses.was_stored
    rw [List.append_nil] at hswept
    exact ⟨hswept, h.lull.of_kept (h.lull.linked.sweep now _) hloses.epoch hloses.kept
      h.lull.world rfl⟩
  touch s key h :=
    ⟨h.holds.thin (.touch h.holds.linked now key) (List.forall_mem_nil _),
      h.lull.touch (m := Poller.moment now) key⟩
  dropAll s h :=
    ⟨h.holds.thin (.dropAll s.cache) (List.forall_mem_nil _),
      h.lull.of_kept (.dropAll s.cache) rfl (fun _ _ hget => nomatch hget) h.lull.world rfl⟩

/-- Where every entry is live, there is a lull. -/
theorem lull_of_isLive (h : s.cache.Holds e.Proper [])
    (hlive : ∀ key slot, s.cache.entries.get? key = some slot →
      slot.isLive s.cache.epoch now s.scene.signals = true)
    (htouched : ∀ key slot, s.cache.entries.get? key = some slot →
      slot.touched ≤ s.cache.millis now)
    (hworld : Q s.scene.world) : s.Lull e.keys.Leaf Q s.scene.signals.fired now where
  linked := h.linked
  barren key slot hget := (h.stored key slot hget).barren
  quiet key slot hget := .inl (hlive key slot hget)
  touched := htouched
  world := hworld
  fired := rfl

/-- **Behind a purge there is a lull**, whether it was needed or not. -/
theorem lulls_maintain (hsource : e.source.Follows (Scene.Still Q)) (h : e.Watches now s [])
    (hworld : Q s.scene.world) :
    e.Lulls Q s.scene.signals.fired now (s.maintain (Poller.moment now)) [] := by
  unfold Session.maintain
  cases hdue : s.cache.mayBeDue (Poller.moment now : Moment Entry (Poller W) W).now
      s.scene.signals with
  | false =>
    exact ⟨h.holds, lull_of_isLive h.holds
      (fun _ _ hget => h.watchful.isLive_of_not_mayBeDue hdue hget) h.watchful.touched hworld⟩
  | true =>
    have k := lasting_lulls e now s.scene.signals.fired hsource
    have hloses := Cache.loses_evictEach h.holds.linked
      (s.cache.doomed now (s.scene.signals.lower s.cache.flag))
    have hthin := Cache.Thinned.sweep h.holds.linked now (s.scene.signals.lower s.cache.flag)
    have hwaiting := h.holds.thin hthin hloses.was_stored
    rw [List.append_nil] at hwaiting
    have hlull : (s.swept (Poller.moment now)).Lull e.keys.Leaf Q s.scene.signals.fired now :=
      lull_of_isLive (s := s.swept (Poller.moment now)) (h.holds.thin hthin (List.forall_mem_nil _))
        (fun key slot hget => (congrArg (slot.isLive · now _) hloses.epoch).trans
          (Cache.isLive_of_sweep h.holds.linked now _ hget))
        (h.watchful.sweep h.holds.linked).touched hworld
    exact k.consultAll ⟨hwaiting, hlull⟩

/-- The partials are read in the cache. -/
theorem cachedConfig_eq {s : Session Entry (Poller W) W} : e.cachedConfig? now g.1 s =
    (match (Session.get (Poller.moment now) (e.keys.config g.1) s).1 with
      | some (.config c) => some c
      | _ => none, (Session.get (Poller.moment now) (e.keys.config g.1) s).2) := by
  unfold cachedConfig?
  rw [bind_apply]
  generalize Session.get (Poller.moment now) (e.keys.config g.1) s = a
  obtain ⟨_ | _ | _ | _ | _ | _, _⟩ := a <;> rfl

/-- The first look for a group's partials brings about a lull. -/
theorem lulls_get (hsource : e.source.Follows (Scene.Still Q)) (h : e.Watches now s [])
    (hworld : Q s.scene.world) (key : String) :
    e.Lulls Q s.scene.signals.fired now (Session.get (Poller.moment now) key s).2 [] ∧
      (Session.get (Poller.moment now) key s).2.standing now key =
        (Session.get (Poller.moment now) key s).1 := by
  have hlulls := lulls_maintain hsource h hworld
  obtain ⟨hanswer, -, hsame⟩ := hlulls.lull.look (m := Poller.moment now) key
  rw [Session.get_eq_look]
  exact ⟨(lasting_lulls e now _ hsource).look key _ hlulls, (hsame key).trans hanswer.symm⟩

/-- Partials that are in the cache are what is answered. -/
theorem config_of_cached (h : (e.cachedConfig? now g.1 s).1 = some c) :
    e.config now g.1 s = (c, (Session.get (Poller.moment now) (e.keys.config g.1) s).2) := by
  unfold config
  rw [bind_apply, h, cachedConfig_eq]
  rfl

/-- **Partials that are not in the cache** are put together in a lull. -/
theorem config_of_cold (hsource : e.source.Follows (Scene.Still Q)) (h : e.Watches now s [])
    (hworld : Q s.scene.world) (hcold : (e.cachedConfig? now g.1 s).1 = none) :
    let first := (Session.get (Poller.moment now) (e.keys.config g.1) s).2
    let second := (Session.get (Poller.moment now) (e.keys.config g.1) first).2
    e.Lulls Q s.scene.signals.fired now second [] ∧
      (∀ c, second.standing now (e.keys.config g.1) ≠ some (.config c)) ∧
      e.config now g.1 s = e.build now g.1 second := by
  intro first second
  obtain ⟨hlulls, hstands⟩ := lulls_get hsource h hworld (e.keys.config g.1)
  -- The cache is asked a second time, and nothing has changed since the first.
  obtain ⟨hagain, -, hsame⟩ := hlulls.lull.get (m := Poller.moment now) (e.keys.config g.1)
  have hcold' : (e.cachedConfig? now g.1 first).1 = none := by
    have hsame : (Session.get (Poller.moment now) (e.keys.config g.1) first).1 =
        (Session.get (Poller.moment now) (e.keys.config g.1) s).1 := hagain.trans hstands
    rw [← hcold, cachedConfig_eq, cachedConfig_eq, hsame]
  refine ⟨(lasting_lulls e now _ hsource).get _ _ hlulls, fun c hc => ?_, ?_⟩
  · have hfirst : first.standing now (e.keys.config g.1) = some (.config c) :=
      (hsame _).symm.trans hc
    rw [hstands] at hfirst
    rw [cachedConfig_eq, hfirst] at hcold
    cases hcold
  · unfold config
    rw [bind_apply, hcold, cachedConfig_eq]
    simp only
    rw [bind_apply, hcold', cachedConfig_eq]

/-- **Behind a group's partials there is a lull.** -/
theorem lull_config (hsource : e.source.Follows (Scene.Still Q)) (h : e.Watches now s [])
    (hworld : Q s.scene.world) :
    e.Lulls Q s.scene.signals.fired now (e.config now g.1 s).2 [] := by
  have k := lasting_lulls e now s.scene.signals.fired hsource
  have hfirst : Takes (fun t => e.Watches now t [] ∧ Q t.scene.world ∧
        t.scene.signals.fired = s.scene.signals.fired)
      (e.Lulls Q s.scene.signals.fired now · [])
      (Session.get (Poller.moment now) (e.keys.config g.1)) := by
    rintro t ⟨ht, hQ, hfired⟩
    have hlulls := lulls_maintain hsource ht hQ
    rw [hfired] at hlulls
    rw [Session.get_eq_look]
    exact k.look _ _ hlulls
  exact answers_config_of (R := fun _ => (e.Lulls Q s.scene.signals.fired now · []))
    (fun t ht _ => hfirst t ht) (fun t _ ht _ => hfirst t ht) (fun t ht _ => k.get _ t ht)
    (fun t _ ht _ => k.get _ t ht)
    (lasting_build k (fun t scene ht hstill => ⟨ht.holds,
      (ht.lull.scene scene (hstill ht.lull.world).1 (hstill ht.lull.world).2).1⟩)
      (Scene.course_still Q) hsource (admits_lasts e now g)) s ⟨h, hworld, rfl⟩

end Lulls

end Engine

namespace Workshop

variable {W : Type}

/-- Others put in entries without hooks that depend on no template, and no flag is lowered. -/
def Move.Orderly (σ : Workshop W) : Move W → Prop
  | .cache (.insert _ _ options) | .cache (.insertIfAbsent _ _ options) =>
    options.hook = none ∧ ∀ parent ∈ options.keys, ¬σ.engine.keys.Leaf parent
  | .change scene => σ.session.scene.signals.Leads scene.signals
  | _ => True

/-- All moves of a run are orderly. -/
def Orderly (σ : Workshop W) : List (Move W) → Prop
  | [] => True
  | move :: moves => move.Orderly σ ∧ Orderly (σ.step move) moves

/-- **Through every run** the entries stay proper, and the cache watches. -/
theorem watches_run {σ : Workshop W}
    (hsource : σ.engine.source.Follows fun a b => a.signals.Leads b.signals)
    (h : σ.engine.Watches σ.now σ.session []) {moves : List (Move W)} (hmoves : σ.Orderly moves) :
    (∃ site, (σ.run moves).engine = { σ.engine with site }) ∧
      σ.engine.Watches (σ.run moves).now (σ.run moves).session [] := by
  induction moves generalizing σ with
  | nil => exact ⟨⟨σ.engine.site, rfl⟩, h⟩
  | cons move moves ih =>
    obtain ⟨horderly, hrest⟩ := hmoves
    have hkeeps : Keeps σ.engine σ.now (fun _ => True) (σ.engine.Watches σ.now · []) :=
      Engine.Watches.keeps hsource
    have hleads : Leads σ.engine σ.now (fun g => move.Asks g) (fun _ => True)
        (σ.engine.Watches σ.now · []) (σ.engine.Watches σ.now · []) :=
      ⟨fun g _ => hkeeps.config g trivial, fun g _ => hkeeps.views g trivial,
        fun g _ => hkeeps.path g trivial, hkeeps.clear⟩
    have hcache : ∀ r, move = .cache r → σ.engine.Watches σ.now
        (r.perform (Poller.moment σ.now) σ.session) [] := by
      rintro r rfl
      refine (Engine.Watches.lasting σ.engine σ.now hsource).perform h r ?_
      rintro key value options (rfl | rfl) <;>
      · obtain ⟨hhook, hbarren⟩ := horderly
        exact ⟨hbarren, fun hook hsome => nomatch hhook.symm.trans hsome⟩
    have hchange : ∀ scene, move = .change scene →
        σ.engine.Watches σ.now { σ.session with scene } [] := by
      rintro scene rfl
      exact h.later 0 horderly
    obtain ⟨⟨site, hsite⟩, hnext⟩ := step_leads (R := fun now s => σ.engine.Watches now s []) h
      hleads h (fun _ _ _ => trivial) hcache hchange fun time => h.later time (.refl _)
    have hengine : (σ.step move).engine.source = σ.engine.source := by rw [hsite]
    have hwatches : (σ.step move).engine.Watches (σ.step move).now (σ.step move).session [] := by
      rw [hsite]
      exact hnext
    obtain ⟨⟨site', hsite'⟩, hlast⟩ := ih (hengine ▸ hsource) hwatches hrest
    rw [hsite] at hlast
    refine ⟨⟨site', ?_⟩, hlast⟩
    change ((σ.step move).run moves).engine = _
    rw [hsite', hsite]

end Workshop

end Templating
