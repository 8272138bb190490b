import Templating.Proofs.Engine.Answers

/-!
# A group's partials in hand

The partials of a group come from the cache or are put together from the files. Either way the
engine is `Ready` with them (`Begun.config`). What is in the cache is live and therefore right:
where changes are signalled no token of it has fired, and where they are not the poller beside it
has looked since the last change, if that was long enough ago. What is put together is right anyhow;
a poller is set beside it where there are no tokens.
-/

namespace Templating

namespace Ledger

variable {H : Ledger} {exempt exempt' : String → Prop} {s : EngineSession}
  {tasks : List EngineTask} {g : Group}

theorem Sound.of_push (h : H.Sound exempt s tasks) (hpush : H.push = true) :
    H.Sound exempt' s tasks :=
  { h with guarded := fun hnot => (by rw [hpush] at hnot; cases hnot) }

theorem Sound.isConfig (h : H.Sound exempt s tasks) (hg : g.WellNamed) {slot : EngineSlot}
    {v : GroupConfig} (hget : s.cache.entries.get? (H.engine.keys.config g) = some slot)
    (hvalue : slot.value = .config v) :
    H.push = true → slot.hasFired s.scene.signals = true ∨
      v = Plain.config H.engine s.scene.world.files g := by
  cases h.fits _ slot hget with
  | config g' v' hg' hkey hval hhook hkeys hcurrent =>
    rw [hval] at hvalue
    cases hvalue
    obtain ⟨rfl, -⟩ := H.engine.keys.path_injective hg hg' hkey
    exact fun hpush => (hcurrent hpush).imp_right And.left
  | global hkey hval => rw [hval] at hvalue; cases hvalue
  | missing g path hg hkey hval => rw [hval] at hvalue; cases hvalue
  | compiled g t source hg hkey hval => rw [hval] at hvalue; cases hvalue
  | poll g serial snap armed hg hpush hkey hval => rw [hval] at hvalue; cases hvalue

/-- **Partials that a purge leaves** are as the files say, if the past is settled. -/
theorem Sound.config_of_live (h : H.Sound strict s []) (hg : g.WellNamed)
    (hlive : AllLive H.now s) {v : GroupConfig}
    (hstored : s.cache.valueAt (H.engine.keys.config g) = some (.config v))
    (hsettled : H.Settled) : v = Plain.config H.engine s.scene.world.files g := by
  obtain ⟨slot, hget, hvalue⟩ := Cache.valueAt_eq_some.1 hstored
  cases hpush : H.push with
  | true =>
    apply (h.isConfig hg hget hvalue hpush).resolve_left
    intro hfired
    rw [(hlive.neither hget).2] at hfired
    cases hfired
  | false =>
    cases h.guarded hpush _ v hstored id with
    | waiting e snap hmem => cases hmem
    | removed hmem => cases hmem
    | stored key poll snap hgetp hvaluep hsnap =>
      obtain ⟨g', serial, armed, hg', -, -, hoptions, hsnap', -, hguards⟩ :=
        (h.fits key poll hgetp).of_poll hvaluep
      obtain ⟨rfl, -⟩ := H.engine.keys.path_injective hg hg' (hsnap.symm.trans hsnap')
      obtain ⟨v', hv', files₀, -, -, -, -, hright⟩ := hguards _ hstored
      cases hv'
      apply hright.resolve_right
      intro hdue
      obtain ⟨t, ht, hle⟩ := hdue
      -- The poller has not expired, so it was armed after the last change.
      have hover : armed + H.engine.poller.interval ≤ H.now :=
        Nat.le_trans hle (hsettled.2 hpush t ht)
      have hexpired := isExpired_armed hoptions hover s.cache.epoch
      rw [(hlive.neither hgetp).1] at hexpired
      cases hexpired

theorem cachedConfig?_eq (g : Group) (s : EngineSession) :
    (H.engine.cachedConfig? H.now g s).2 =
        (Session.get (Poller.moment H.now) (H.engine.keys.config g) s).2 ∧
      ∀ c, (H.engine.cachedConfig? H.now g s).1 = some c ↔
        (Session.get (Poller.moment H.now) (H.engine.keys.config g) s).1 = some (.config c) := by
  unfold Engine.cachedConfig?
  rw [bind_apply]
  generalize Session.get (Poller.moment H.now) (H.engine.keys.config g) s = read
  obtain ⟨_ | v, s'⟩ := read
  · exact ⟨rfl, fun c => by simp [pure_apply]⟩
  · cases v <;> exact ⟨rfl, fun c => by simp [pure_apply]⟩

theorem Begun.cachedConfig (h : H.Begun s) (hg : g.WellNamed) :
    H.Begun (H.engine.cachedConfig? H.now g s).2 ∧
      Memory.Calm s.scene (H.engine.cachedConfig? H.now g s).2.scene ∧
      ∀ c, (H.engine.cachedConfig? H.now g s).1 = some c →
        H.Ready g c (H.engine.cachedConfig? H.now g s).2 := by
  obtain ⟨hmaintained, hlive⟩ := h.sound.maintained
  obtain ⟨hworks, hwanes, hanswer⟩ := h.sound.got (H.engine.keys.config g)
  have hafter := h.wanes hworks
  obtain ⟨hsession, hpicked⟩ := cachedConfig?_eq (H := H) g s
  rw [hsession]
  refine ⟨hafter, hworks.gains.calm, ?_⟩
  intro c hc
  have hstored := (hpicked c).1 hc
  rw [hanswer] at hstored
  refine ⟨hafter, ?_, ?_⟩
  · intro w hw
    rcases Gains.valueAt_config hwanes hafter.sound hg hw with hold | ⟨_, hin⟩
    · rw [hstored] at hold
      exact (Option.some.inj hold).symm
    · exact hin.elim
  · intro hsettled
    have hright := hmaintained.sound.config_of_live hg hlive hstored hsettled
    rw [hmaintained.gains.calm.files] at hright
    rw [hworks.gains.calm.files]
    exact hright

/-! ## Putting partials together -/

theorem Sound.insertGlobal (h : H.Sound strict s []) :
    Sound.Works H strict (fun _ value _ => value = .global) s
      (Session.insert (Poller.moment H.now) H.engine.keys.global .global {} s).2 := by
  have hkey : H.push = false → ∀ (g : Group) (serial : Nat), g.WellNamed →
      H.engine.keys.global ≠ H.engine.keys.path g (KeySpace.pollerPath serial) :=
    fun _ g _ _ => H.engine.keys.global_ne_path g _
  obtain ⟨⟨hsound, hgains⟩, -⟩ := h.inserted hkey .global {} fun _ => .global rfl rfl rfl
  refine ⟨hsound.exempting fun k v hk _ => ?_, hgains.mono fun _ _ _ hin => hin.2.1⟩
  rcases hk with hk | ⟨-, -, v', hv'⟩
  · exact hk.elim
  · cases hv'

theorem Begun.ensureGlobal (h : H.Begun s) :
    H.Begun (H.engine.ensureGlobal H.now s).2 ∧
      Memory.Calm s.scene (H.engine.ensureGlobal H.now s).2.scene := by
  change H.Begun (Session.insertIfAbsent _ _ _ _ s).2 ∧
    Memory.Calm s.scene (Session.insertIfAbsent _ _ _ _ s).2.scene
  unfold Session.insertIfAbsent
  split
  · exact ⟨h, .refl s.scene⟩
  · have hworks := h.sound.insertGlobal
    exact ⟨h.gains hworks fun _ _ _ _ hin => (by cases hin), hworks.gains.calm⟩

/-- What was gathered for a group from the files as they are. -/
structure Gathered (H : Ledger) (g : Group) (found : Gathering) (scene : Scene Memory) : Prop where
  bare : found.bare = Plain.gather scene.world.files H.engine.options.extension H.engine.site
    (H.engine.options.folders.partialFolders g)
  watched : H.push = true → ∀ folder ∈ H.engine.options.folders.partialFolders g,
    ∃ t ∈ found.tokens, (folder, t) ∈ scene.world.attended
  silent : H.push = false → found.tokens = []

theorem Gathered.config {found : Gathering} {scene : Scene Memory} (h : H.Gathered g found scene) :
    found.config = Plain.config H.engine scene.world.files g := by
  have hbare : found.bare.config = found.config := rfl
  rw [← hbare, h.bare]
  rfl

theorem Begun.gathered (h : H.Begun s) (g : Group) :
    let found := Gathering.gather Memory.source H.engine.options.extension H.engine.site
      (H.engine.options.folders.partialFolders g) s.scene
    H.Gathered g found.1 found.2 ∧ Memory.Undisturbed s.scene found.2 := by
  intro found
  obtain ⟨hbare, hundisturbed, hsilent, hwatched⟩ := gather_source H.engine.options.extension
    H.engine.site (H.engine.options.folders.partialFolders g) h.sound.ascending
  refine ⟨⟨?_, fun hpush => hwatched (h.sound.push.trans hpush),
    fun hpush => hsilent (h.sound.push.trans hpush)⟩, hundisturbed⟩
  rw [hundisturbed.files]
  exact hbare

/-- **What was gathered is kept.** Until a poller is set beside it, it is exempt. -/
theorem Begun.keepConfig (h : H.Begun s) (hg : g.WellNamed) {found : Gathering}
    (hfound : H.Gathered g found s.scene) :
    let kept := Session.insert (Poller.moment H.now) (H.engine.keys.config g)
      (.config found.config) { keys := [H.engine.keys.global], tokens := found.tokens } s
    H.Sound (fun k => strict k ∨ kept.1 = true ∧ k = H.engine.keys.config g) kept.2 [] ∧
      Gains (fun _ value _ => value = .config found.config) s kept.2 ∧
      ∀ w, kept.2.cache.valueAt (H.engine.keys.config g) = some w → w = .config found.config := by
  intro kept
  have hkey : H.push = false → ∀ (g' : Group) (serial : Nat), g'.WellNamed →
      H.engine.keys.config g ≠ H.engine.keys.path g' (KeySpace.pollerPath serial) :=
    fun _ g' serial hg' => Sound.config_ne_poller H hg hg' serial
  obtain ⟨⟨hsound, hgains⟩, hvalue⟩ := h.sound.inserted hkey (.config found.config)
    { keys := [H.engine.keys.global], tokens := found.tokens }
    (fun _ => .config g found.config hg rfl rfl rfl rfl fun hpush =>
      .inr ⟨hfound.config, hfound.watched hpush⟩)
  refine ⟨hsound.exempting fun k v hk _ => .inl (hk.imp_right fun hin => ⟨hin.1, hin.2.1⟩),
    hgains.mono fun _ _ _ hin => hin.2.1, fun w hw => ?_⟩
  apply (hvalue w hw).resolve_right
  rintro ⟨snap, hpoll⟩
  obtain ⟨slot, hget, hslot⟩ := Cache.valueAt_eq_some.1 hw
  exact hsound.not_poll hkey slot snap hget (hslot.trans hpoll)

/-- **A poller is set** beside partials that were just kept. -/
theorem Sound.armed (h : H.Sound (fun k => strict k ∨ k = H.engine.keys.config g) s [])
    (hg : g.WellNamed) (hpush : H.push = false)
    (hcurrent : ∀ w, s.cache.valueAt (H.engine.keys.config g) = some w →
      w = .config (Plain.config H.engine s.scene.world.files g)) :
    Sound.Works H strict (fun _ _ _ => False) s
      (H.engine.arm H.now (H.snapshot s.scene.world.files g) s).2 := by
  let scene : Scene Memory := s.scene.takeSerial.2
  have hundisturbed : Memory.Undisturbed s.scene scene :=
    ⟨⟨rfl, rfl, fun _ hw => hw, fun _ => rfl, List.suffix_refl _⟩, .refl _⟩
  have hready := h.undisturbed hundisturbed
  have hsnap : (H.snapshot s.scene.world.files g).configKey = H.engine.keys.config g := rfl
  have hplaced := hready.place_poller hg hpush
    (H.engine.keys.poller_eq_path g s.scene.serial) hsnap fun w hw =>
      ⟨_, hcurrent w hw, s.scene.world.files, h.ascending, h.contents, rfl, rfl, .inl rfl⟩
  have hgains := hready.gains_place (KeySpace.poller (H.engine.keys.config g) s.scene.serial)
    (.poll (H.snapshot s.scene.world.files g))
    (H.engine.poller.options H.now (H.snapshot s.scene.world.files g).configKey)
  rw [List.append_nil] at hplaced
  obtain ⟨hsettled, -⟩ := hplaced.settled
  have hwanes := (Gains.scene s hundisturbed.toCalm).wane hgains.of_poll
  exact ⟨hsettled.sound, hwanes.wane hsettled.gains⟩

/-- Where there are no tokens, there are none because changes are not signalled. -/
theorem Gathered.push_of_tokens {found : Gathering} {scene : Scene Memory}
    (h : H.Gathered g found scene) (hnone : found.tokens = []) : H.push = false := by
  cases hpush : H.push with
  | false => rfl
  | true =>
    obtain ⟨folder, hfolder⟩ := List.exists_mem_of_ne_nil _
      (FolderNames.partialFolders_ne_nil H.engine.options.folders g)
    obtain ⟨t, ht, -⟩ := h.watched hpush folder hfolder
    rw [hnone] at ht
    cases ht

theorem Gathered.snapshot {found : Gathering} {scene : Scene Memory}
    (h : H.Gathered g found scene) :
    (⟨H.engine.options.folders.partialFolders g,
      Sorted.ofList (Plain.digests scene.world.files found.attempted), found.ignored.eraseDups,
      H.engine.keys.config g⟩ : Snapshot) = H.snapshot scene.world.files g := by
  have hattempted : found.bare.attempted = found.attempted := rfl
  have hignored : found.bare.ignored = found.ignored := rfl
  rw [← hattempted, ← hignored, h.bare]
  rfl

/-- What was put together is in hand, whether it was kept or not. -/
theorem Begun.ready (h : H.Begun s) {c : GroupConfig}
    (hc : c = Plain.config H.engine s.scene.world.files g) {kept : EngineSession}
    (hkept : H.Sound strict kept [])
    (hgains : Gains (fun _ value _ => value = .config c) s kept)
    (hcurrent : ∀ w, kept.cache.valueAt (H.engine.keys.config g) = some w → w = .config c) :
    H.Ready g c kept where
  toBegun := h.gains ⟨hkept, hgains⟩ fun _ _ _ _ hin => (by cases hin)
  current := hcurrent
  right _ := by rw [hgains.calm.files, hc]

theorem Begun.keep (h : H.Begun s) (hg : g.WellNamed) {found : Gathering}
    (hfound : H.Gathered g found s.scene) :
    let r := (do
      let stored ← Session.insert (Poller.moment H.now) (H.engine.keys.config g)
        (.config found.config) { keys := [H.engine.keys.global], tokens := found.tokens }
      if found.tokens.isEmpty && stored then
        let fingerprints ← Session.onScene (found.fingerprints Memory.source)
        H.engine.arm H.now ⟨H.engine.options.folders.partialFolders g, fingerprints,
          found.ignored.eraseDups, H.engine.keys.config g⟩
      Session.note .built
      return found.config : Resolving Memory GroupConfig) s
    H.Ready g r.1 r.2 ∧ Memory.Calm s.scene r.2.scene := by
  obtain ⟨hsound, hgains, hcurrent⟩ := h.keepConfig hg hfound
  simp only [bind_apply]
  generalize Session.insert (Poller.moment H.now) (H.engine.keys.config g) (.config found.config)
    { keys := [H.engine.keys.global], tokens := found.tokens } s = kept at hsound hgains hcurrent ⊢
  have hnote : ∀ {s' : EngineSession}, H.Ready g found.config s' →
      H.Ready g found.config { s' with scene := s'.scene.note .built } :=
    fun hready => hready.undisturbed hg (.note _ _)
  cases harm : found.tokens.isEmpty && kept.1 with
  | false =>
    have hstrict : H.Sound strict kept.2 [] := by
      cases hpush : H.push with
      | true => exact hsound.of_push hpush
      | false =>
        apply hsound.exempting
        intro k v hk _
        rcases hk with hk | ⟨hstored, -⟩
        · exact hk.elim
        · rw [hfound.silent hpush, hstored] at harm
          cases harm
    exact ⟨hnote (h.ready hfound.config hstrict hgains hcurrent), hgains.calm.trans (.note _ _)⟩
  | true =>
    obtain ⟨hempty, -⟩ := Bool.and_eq_true_iff.1 harm
    have hpush := hfound.push_of_tokens (List.isEmpty_iff.1 hempty)
    have hconfig := hfound.config
    have hsnap := hfound.snapshot
    rw [← hgains.calm.files] at hsnap hconfig
    have harmed := Sound.armed (hsound.exempting fun k v hk _ => .inl (hk.imp_right And.right)) hg
      hpush (by rwa [hconfig] at hcurrent)
    have hready : H.Ready g found.config
        (H.engine.arm H.now (H.snapshot kept.2.scene.world.files g) kept.2).2 := by
      apply h.ready hfound.config harmed.sound (hgains.wane harmed.gains)
      intro w hw
      rcases Gains.valueAt_config harmed.gains harmed.sound hg hw with hold | ⟨_, hin⟩
      · exact hcurrent w hold
      · exact hin.elim
    simp only [if_true, bind_apply, Session.onScene, fingerprints_source, hsnap]
    exact ⟨hnote hready, (hgains.calm.trans harmed.gains.calm).trans (.note _ _)⟩

theorem Begun.build (h : H.Begun s) (hg : g.WellNamed) :
    H.Ready g (H.engine.build H.now g s).1 (H.engine.build H.now g s).2 ∧
      Memory.Calm s.scene (H.engine.build H.now g s).2.scene := by
  obtain ⟨hbegun, hcalm⟩ := h.ensureGlobal
  obtain ⟨hfound, hundisturbed⟩ := hbegun.gathered g
  obtain ⟨hready, hlater⟩ := (hbegun.undisturbed hundisturbed).keep hg hfound
  unfold Engine.build
  rw [H.source]
  exact ⟨hready, hcalm.trans (hundisturbed.toCalm.trans hlater)⟩

/-- **A group's partials**, from the cache or put together. -/
theorem Begun.config (h : H.Begun s) (hg : g.WellNamed) :
    H.Ready g (H.engine.config H.now g s).1 (H.engine.config H.now g s).2 ∧
      Memory.Calm s.scene (H.engine.config H.now g s).2.scene := by
  obtain ⟨hfirst, hcalm, hcached⟩ := h.cachedConfig hg
  unfold Engine.config
  rw [bind_apply]
  generalize H.engine.cachedConfig? H.now g s = first at hfirst hcalm hcached ⊢
  obtain ⟨_ | c, s₁⟩ := first
  · obtain ⟨hsecond, hcalm', hcached'⟩ := hfirst.cachedConfig hg
    simp only
    rw [bind_apply]
    generalize H.engine.cachedConfig? H.now g s₁ = second at hsecond hcalm' hcached' ⊢
    obtain ⟨_ | c, s₂⟩ := second
    · obtain ⟨hready, hlater⟩ := hsecond.build hg
      exact ⟨hready, hcalm.trans (hcalm'.trans hlater)⟩
    · exact ⟨hcached' c rfl, hcalm.trans hcalm'⟩
  · exact ⟨hcached c rfl, hcalm⟩

end Ledger

end Templating
