import Templating.Proofs.Engine.Groups

/-!
# Time passes, files change

What entries stand for is told by a ledger. These are the ways in which the ledger of a run moves on
between two operations: time passes, failures to compile are booked (`Sound.later`), a file changes
(`Sound.changed`), or the engine drops what it has cached and gets other templates for the site
(`Sound.withSite`). A session stays sound through each of them.
-/

namespace Templating

namespace Ledger

variable {H : Ledger} {exempt : String → Prop} {s : EngineSession} {scene scene' : Scene Memory}
  {values : String → Option Entry} {key : String} {slot : EngineSlot}

/-- The ledger with other dates. -/
def redated (H : Ledger) (now : Instant) (failures : List Instant) (counted : Nat)
    (changed : Option Instant) : Ledger :=
  { H with now, failures, counted, changed }

/-! ## Time passes -/

/-- A later time, by which all failures in the journal are booked. -/
structure Booked (H : Ledger) (journal : List Event) (now : Instant) (failures : List Instant) :
    Prop where
  now : H.now ≤ now
  failed : ∀ t, H.Failed journal t → t ∈ failures

variable {now : Instant} {failures : List Instant} {counted : Nat}

theorem Excused.later {path : String} (h : H.Excused scene path slot)
    (hbooked : H.Booked scene.journal now failures) :
    (H.redated now failures counted H.changed).Excused scene path slot := by
  rcases h with hfired | hwatched | ⟨deadline, hexp, hle, habsent, hfailed⟩
  · exact .inl hfired
  · exact .inr (.inl hwatched)
  · refine .inr (.inr ⟨deadline, hexp, Nat.le_trans hle (Nat.add_le_add_right hbooked.now _),
      habsent, fun hpush => ?_⟩)
    obtain ⟨t, ht, heq⟩ := hfailed hpush
    exact ⟨t, .inl (hbooked.failed t ht), heq⟩

theorem Fits.later (h : H.Fits scene values key slot)
    (hbooked : H.Booked scene.journal now failures) :
    (H.redated now failures counted H.changed).Fits scene values key slot := by
  cases h with
  | global hkey hval hhook => exact .global hkey hval hhook
  | config g v hg hkey hval hhook hkeys hcurrent =>
    exact .config g v hg hkey hval hhook hkeys hcurrent
  | missing g path hg hkey hval hhook hexcused =>
    exact .missing g path hg hkey hval hhook (hexcused.later hbooked)
  | compiled g t source hg hkey hval hhook hkeys hmade hsource hcurrent =>
    exact .compiled g t source hg hkey hval hhook hkeys hmade hsource hcurrent
  | poll g serial snap armed hg hpush hkey hval hoptions hsnap harmed hguards =>
    exact .poll g serial snap armed hg hpush hkey hval hoptions hsnap
      (Nat.le_trans harmed hbooked.now) hguards

theorem Sound.later (h : H.Sound exempt s []) (hbooked : H.Booked s.scene.journal now failures) :
    (H.redated now failures counted H.changed).Sound exempt s [] where
  push := h.push
  linked := h.linked
  watchful := h.watchful.later hbooked.now fun _ htells => htells
  ascending := h.ascending
  contents := h.contents
  fits key slot hget := (h.fits key slot hget).later hbooked
  waits _ he := (by cases he)
  removes _ hkey := (by cases hkey)
  guarded := h.guarded

/-! ## A file changes -/

theorem hasFired_of_mem {t : Token} (ht : t ∈ slot.options.tokens)
    (hfired : scene.signals.hasFired t = true) : slot.hasFired scene.signals = true :=
  List.any_eq_true.2 ⟨t, ht, hfired⟩

theorem hasFired_changed {q : String} (hchanged : Memory.Changed q scene scene')
    (h : slot.hasFired scene.signals = true) : slot.hasFired scene'.signals = true := by
  obtain ⟨t, ht, hfired⟩ := List.any_eq_true.1 h
  exact hasFired_of_mem ht (hchanged.leads.hasFired hfired)

/-- What has a deadline of its own may be out of date as soon as a file changes. -/
theorem outdated_now {deadline : Instant} (h : deadline ≤ H.now + H.span) :
    (H.redated H.now H.failures H.counted (some H.now)).Outdated deadline :=
  ⟨H.now, rfl, h⟩

theorem Excused.changed {q path : String} (h : H.Excused scene path slot)
    (hchanged : Memory.Changed q scene scene') :
    (H.redated H.now H.failures H.counted (some H.now)).Excused scene' path slot := by
  rcases h with hfired | ⟨t, ht, hwatched, habsent⟩ | ⟨deadline, hexp, hle, habsent, hfailed⟩
  · exact .inl (hasFired_changed hchanged hfired)
  · cases hcovers : covers path q with
    | true => exact .inl (hasFired_of_mem ht (hchanged.told _ hwatched hcovers))
    | false =>
      have hne : path ≠ q := by
        rintro rfl
        simp [covers] at hcovers
      refine .inr (.inl ⟨t, ht, hchanged.kept _ hwatched hcovers, fun push library => ?_⟩)
      have htemplate := habsent push library
      rwa [Plain.template, ← hchanged.elsewhere path hne] at htemplate
  · refine .inr (.inr ⟨deadline, hexp, hle, .inr (outdated_now hle), fun hpush => ?_⟩)
    rw [hchanged.journal]
    exact hfailed hpush

/-- Where no folder of a group is concerned, its partials stay what they are. -/
theorem config_changed {q : String} {g : Group} (hchanged : Memory.Changed q scene scene')
    (hascending : Sorted.Ascending scene.world.files)
    (hfar : ∀ folder ∈ H.engine.options.folders.partialFolders g, covers folder q = false) :
    Plain.config H.engine scene'.world.files g = Plain.config H.engine scene.world.files g := by
  unfold Plain.config
  have hslash := H.engine.options.folders.endsInSlash_partialFolders g
  rw [Plain.gather_congr hascending (hchanged.ascending hascending) hslash
    fun folder hfolder path hstart => ?_]
  refine hchanged.elsewhere path ?_
  rintro rfl
  have hnot := hfar folder hfolder
  rw [(covers_iff_startsWith (hslash folder hfolder)).2 hstart] at hnot
  cases hnot

theorem Fits.changed {q : String} (h : H.Fits scene values key slot)
    (hchanged : Memory.Changed q scene scene') (hascending : Sorted.Ascending scene.world.files) :
    (H.redated H.now H.failures H.counted (some H.now)).Fits scene' values key slot := by
  cases h with
  | global hkey hval hhook => exact .global hkey hval hhook
  | config g v hg hkey hval hhook hkeys hcurrent =>
    refine .config g v hg hkey hval hhook hkeys ?_
    intro hpush
    rcases hcurrent hpush with hfired | ⟨hv, hwatched⟩
    · exact .inl (hasFired_changed hchanged hfired)
    · by_cases hfar : ∀ folder ∈ H.engine.options.folders.partialFolders g, covers folder q = false
      · refine .inr ⟨hv.trans (config_changed hchanged hascending hfar).symm,
          fun folder hfolder => ?_⟩
        obtain ⟨t, ht, hw⟩ := hwatched folder hfolder
        exact ⟨t, ht, hchanged.kept _ hw (hfar folder hfolder)⟩
      · -- The token of a folder that the change concerns has fired.
        push Not at hfar
        obtain ⟨folder, hfolder, hcovers⟩ := hfar
        obtain ⟨t, ht, hw⟩ := hwatched folder hfolder
        exact .inl (hasFired_of_mem ht (hchanged.told _ hw (by simpa using hcovers)))
  | missing g path hg hkey hval hhook hexcused =>
    exact .missing g path hg hkey hval hhook (hexcused.changed hchanged)
  | compiled g t source hg hkey hval hhook hkeys hmade hsource hcurrent =>
    refine .compiled g t source hg hkey hval hhook hkeys hmade hsource ?_
    intro hpush
    rcases hcurrent hpush with hfired | ⟨hfile, token, htoken, hw⟩
    · exact .inl (hasFired_changed hchanged hfired)
    · cases hcovers : covers t.path q with
      | true => exact .inl (hasFired_of_mem htoken (hchanged.told _ hw hcovers))
      | false =>
        have hne : t.path ≠ q := by
          rintro heq
          simp [covers, heq] at hcovers
        refine .inr ⟨?_, token, htoken, hchanged.kept _ hw hcovers⟩
        rw [hchanged.elsewhere _ hne, hfile]
  | poll g serial snap armed hg hpush hkey hval hoptions hsnap harmed hguards =>
    refine .poll g serial snap armed hg hpush hkey hval hoptions hsnap harmed ?_
    intro w hw
    obtain ⟨v, hv, files₀, hascending₀, hcontents, hmade, hsnapshot, -⟩ := hguards w hw
    refine ⟨v, hv, files₀, hascending₀, hcontents, hmade, hsnapshot, .inr (outdated_now ?_)⟩
    exact Nat.add_le_add harmed (Nat.le_max_left _ _)

/-- **A file changes.** What watches it is fired; the rest may be out of date from now on. -/
theorem Sound.changed {q : String} (h : H.Sound exempt s [])
    (hchanged : Memory.Changed q s.scene scene)
    (hcontents : ContentsIn H.contents scene.world.files) :
    (H.redated H.now H.failures H.counted (some H.now)).Sound exempt { s with scene } [] where
  push := hchanged.push.trans h.push
  linked := h.linked
  watchful := h.watchful.later (Nat.le_refl _) fun _ => hchanged.leads.tells
  ascending := hchanged.ascending h.ascending
  contents := hcontents
  fits key slot hget := (h.fits key slot hget).changed hchanged h.ascending
  waits _ he := (by cases he)
  removes _ hkey := (by cases hkey)
  guarded := h.guarded

/-! ## The engine drops everything -/

/-- Nothing is stored that was made from templates of the site. -/
def Bare (s : EngineSession) : Prop :=
  ∀ key slot, s.cache.entries.get? key = some slot → slot.value = .global ∨ slot.value = .missing

/-- What a stored entry depends on is stored. -/
theorem Sound.parent_stored (h : H.Sound exempt s []) {parent : String}
    (hget : s.cache.entries.get? key = some slot) (hparent : slot.options.keys = [parent]) :
    ∃ slot', s.cache.entries.get? parent = some slot' := by
  have hrecorded := (h.linked.recorded key slot hget parent).2
    (by rw [hparent]; exact List.mem_singleton_self _)
  exact Option.isSome_iff_exists.1 (h.linked.parent_stored key parent hrecorded)

/-- No group's partials are stored. -/
def NoConfig (s : EngineSession) : Prop :=
  ∀ key slot v, s.cache.entries.get? key = some slot → slot.value ≠ .config v

theorem Sound.noConfig (h : H.Sound exempt s [])
    (hglobal : s.cache.entries.get? H.engine.keys.global = none) : NoConfig s := by
  intro key slot v hget hvalue
  cases h.fits key slot hget with
  | config g v hg hkey hval hhook hkeys =>
    obtain ⟨slot', hget'⟩ := h.parent_stored hget hkeys
    rw [hglobal] at hget'
    cases hget'
  | global hkey hval => rw [hval] at hvalue; cases hvalue
  | missing g path hg hkey hval => rw [hval] at hvalue; cases hvalue
  | compiled g t source hg hkey hval => rw [hval] at hvalue; cases hvalue
  | poll g serial snap armed hg hpush hkey hval => rw [hval] at hvalue; cases hvalue

theorem Sound.bare (h : H.Sound exempt s []) (hconfig : NoConfig s) : Bare s := by
  intro key slot hget
  cases h.fits key slot hget with
  | global hkey hval => exact .inl hval
  | missing g path hg hkey hval => exact .inr hval
  | config g v hg hkey hval => exact absurd hval (hconfig key slot v hget)
  | compiled g t source hg hkey hval hhook hkeys hmade =>
    obtain ⟨slot', hget'⟩ := h.parent_stored hget hkeys
    obtain ⟨v, hv, -⟩ := hmade _ (Cache.valueAt_eq_some.2 ⟨slot', hget', rfl⟩)
    exact absurd hv (hconfig _ slot' v hget')
  | poll g serial snap armed hg hpush hkey hval hoptions hsnap harmed hguards =>
    obtain ⟨slot', hget'⟩ := h.parent_stored hget (by rw [hoptions]; rfl)
    obtain ⟨v, hv, -⟩ := hguards _ (Cache.valueAt_eq_some.2 ⟨slot', hget', rfl⟩)
    exact absurd hv (hconfig _ slot' v hget')

/-- **Dropping everything** leaves nothing that was made from templates. -/
theorem Sound.clear (h : H.Sound strict s []) :
    Sound.Works H strict (fun _ value _ => value = .global) s (H.engine.clear H.now s).2 ∧
      Bare (H.engine.clear H.now s).2 := by
  obtain ⟨hremoved, hgone⟩ := h.removed fun _ g _ _ => H.engine.keys.global_ne_path g _
  have hconfig := hremoved.sound.noConfig hgone
  have hinserted := hremoved.sound.insertGlobal
  refine ⟨⟨hinserted.sound, hremoved.gains.after_wane hinserted.gains⟩,
    hinserted.sound.bare fun key slot v hget hvalue => ?_⟩
  rcases hinserted.gains.entries key slot hget with ⟨old, hold, hval, -⟩ | ⟨snap, hpoll⟩ | hin
  · exact hconfig key old v hold (hval.symm.trans hvalue)
  · rw [hvalue] at hpoll
    cases hpoll
  · rw [hvalue] at hin
    cases hin

/-- The ledger of an engine with other templates for the site. -/
def withSite (H : Ledger) (site : Template.Library) : Ledger :=
  { H with engine := { H.engine with site } }

theorem Sound.withSite (h : H.Sound strict s []) (hbare : Bare s) (site : Template.Library) :
    (H.withSite site).Sound strict s [] where
  push := h.push
  linked := h.linked
  watchful := h.watchful
  ascending := h.ascending
  contents := h.contents
  fits key slot hget := by
    cases h.fits key slot hget with
    | global hkey hval hhook => exact .global hkey hval hhook
    | missing g path hg hkey hval hhook hexcused =>
      exact .missing g path hg hkey hval hhook hexcused
    | config g v hg hkey hval =>
      rcases hbare key slot hget with hv | hv <;> rw [hv] at hval <;> cases hval
    | compiled g t source hg hkey hval =>
      rcases hbare key slot hget with hv | hv <;> rw [hv] at hval <;> cases hval
    | poll g serial snap armed hg hpush hkey hval =>
      rcases hbare key slot hget with hv | hv <;> rw [hv] at hval <;> cases hval
  waits _ he := (by cases he)
  removes _ hkey := (by cases hkey)
  guarded _ k v hk _ := by
    obtain ⟨slot, hget, hval⟩ := Cache.valueAt_eq_some.1 hk
    rcases hbare k slot hget with hv | hv <;> rw [hv] at hval <;> cases hval

end Ledger

end Templating
