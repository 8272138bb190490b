import Templating.Proofs.Engine.Snapshot

/-!
# What entries stand for

An engine works over files that change. A **ledger** records what matters of its past: when a view
did not compile, and when a file was last changed. `Ledger.Fits` says what an entry of its cache
stands for at any time, whatever has happened.

* A group's partials, where changes are signalled, are as the files say, unless a token of theirs
  has fired. Where they are not, a snapshot beside them tells which files they were made from, and
  these are as the files say now, unless the poller has not looked since the last change.
* A compiled template was made from a source with its group's partials. The source is the one now
  there, unless a token has fired; or its fingerprint tells.
* A note that nothing is to be had at a path is right, unless a token of it has fired or it is due
  to expire within a certain time from the last change, or from the last failure to compile.
-/

namespace Templating

/-- How often a view or a layout did not compile. -/
def viewFailures (journal : List Event) : Nat := journal.count (.compiled .view false)

theorem viewFailures_mono {journal journal' : List Event} (h : journal <:+ journal') :
    viewFailures journal ≤ viewFailures journal' :=
  h.sublist.count_le _

namespace Cache

variable {V C : Type}

/-- The value stored under a key. -/
def valueAt (c : Cache V C) (key : String) : Option V := (c.entries.get? key).map Slot.value

theorem valueAt_eq_some {c : Cache V C} {key : String} {value : V} :
    c.valueAt key = some value ↔
      ∃ slot, c.entries.get? key = some slot ∧ slot.value = value := by
  unfold valueAt
  exact Option.map_eq_some_iff

end Cache

/-- Nothing is to be had at a path, whatever library it is compiled with. -/
def Plain.Absent (files : List (String × String)) (path : String) : Prop :=
  ∀ push library, Plain.template push files library path = none

/-- What is known of a run. -/
structure Ledger where
  engine : Engine Memory
  source : engine.source = Memory.source
  /-- Whether changes are signalled. -/
  push : Bool
  /-- All contents that files ever have. -/
  contents : Set String
  distinct : push = false → Set.InjOn Memory.digest contents
  now : Instant
  /-- When a view or a layout did not compile, before the present operation. -/
  failures : List Instant
  /-- How many failures the journal had before the present operation. -/
  counted : Nat
  /-- When a file was last changed. -/
  changed : Option Instant

namespace Ledger

variable (H : Ledger)

/-- The longest time that a poller or a note may live. -/
def span : Duration :=
  max H.engine.options.timings.poll
    (max H.engine.options.timings.missingRetry H.engine.options.timings.compileFailureRetry)

/-- What has this deadline may be from before the last change. -/
def Outdated (deadline : Instant) : Prop := ∃ t, H.changed = some t ∧ deadline ≤ t + H.span

/-- A view did not compile at this instant. -/
def Failed (journal : List Event) (t : Instant) : Prop :=
  t ∈ H.failures ∨ t = H.now ∧ H.counted < viewFailures journal

theorem Failed.mono {H : Ledger} {journal journal' : List Event} (h : journal <:+ journal')
    {t : Instant} (ht : H.Failed journal t) : H.Failed journal' t :=
  ht.imp_right fun ⟨hnow, hcount⟩ => ⟨hnow, Nat.lt_of_lt_of_le hcount (viewFailures_mono h)⟩

/-- The options of a poller's entry that was armed at the given instant. -/
def armedAt (armed : Instant) (g : Group) : Options (Poller Memory) :=
  H.engine.poller.options armed (H.engine.keys.config g)

def snapshot (files : List (String × String)) (g : Group) : Snapshot :=
  Plain.snapshot files H.engine.options.extension H.engine.site
    (H.engine.options.folders.partialFolders g) (H.engine.keys.config g)

/-- A note that nothing is to be had at `path` is right, or due to leave. -/
def Excused (scene : Scene Memory) (path : String) (slot : Slot Entry (Poller Memory)) : Prop :=
  slot.hasFired scene.signals = true ∨
  (∃ t ∈ slot.options.tokens, (path, t) ∈ scene.world.attended ∧
    Plain.Absent scene.world.files path) ∨
  ∃ deadline, slot.options.expiration = .absolute deadline ∧ deadline ≤ H.now + H.span ∧
    (Plain.Absent scene.world.files path ∨ H.Outdated deadline) ∧
    (H.push = true → ∃ t, H.Failed scene.journal t ∧
      deadline = t + H.engine.options.timings.compileFailureRetry)

/-- A snapshot of `g` tells which files its partials `v` were made from. -/
def Guards (scene : Scene Memory) (g : Group) (snap : Snapshot) (armed : Instant)
    (v : GroupConfig) : Prop :=
  ∃ files₀, Sorted.Ascending files₀ ∧ ContentsIn H.contents files₀ ∧
    v = Plain.config H.engine files₀ g ∧ snap = H.snapshot files₀ g ∧
    (v = Plain.config H.engine scene.world.files g ∨
      H.Outdated (armed + H.engine.options.timings.poll))

/-- What an entry stands for. `values` tells what is stored under other keys. -/
inductive Fits (scene : Scene Memory) (values : String → Option Entry) (key : String)
    (slot : Slot Entry (Poller Memory)) : Prop
  | global (hkey : key = H.engine.keys.global) (hvalue : slot.value = .global)
      (hhook : slot.options.hook = none)
  | config (g : Group) (v : GroupConfig) (hg : g.WellNamed) (hkey : key = H.engine.keys.config g)
      (hvalue : slot.value = .config v) (hhook : slot.options.hook = none)
      (hkeys : slot.options.keys = [H.engine.keys.global])
      (hcurrent : H.push = true → slot.hasFired scene.signals = true ∨
        v = Plain.config H.engine scene.world.files g ∧
          ∀ folder ∈ H.engine.options.folders.partialFolders g,
            ∃ t ∈ slot.options.tokens, (folder, t) ∈ scene.world.attended)
  | missing (g : Group) (path : String) (hg : g.WellNamed) (hkey : key = H.engine.keys.path g path)
      (hvalue : slot.value = .missing) (hhook : slot.options.hook = none)
      (hexcused : H.Excused scene path slot)
  | compiled (g : Group) (t : Template.Compiled) (source : String) (hg : g.WellNamed)
      (hkey : key = H.engine.keys.path g t.path) (hvalue : slot.value = .compiled t)
      (hhook : slot.options.hook = none) (hkeys : slot.options.keys = [H.engine.keys.config g])
      (hmade : ∀ w, values (H.engine.keys.config g) = some w →
        ∃ v, w = .config v ∧ Plain.compile H.push v.library t.path source = some t)
      (hsource : source ∈ H.contents)
      (hcurrent : H.push = true → slot.hasFired scene.signals = true ∨
        scene.world.files.lookup t.path = some source ∧
          ∃ token ∈ slot.options.tokens, (t.path, token) ∈ scene.world.attended)
  | poll (g : Group) (serial : Nat) (snap : Snapshot) (armed : Instant) (hg : g.WellNamed)
      (hpush : H.push = false)
      (hkey : key = H.engine.keys.path g (KeySpace.pollerPath serial))
      (hvalue : slot.value = .poll snap) (hoptions : slot.options = H.armedAt armed g)
      (hsnap : snap.configKey = H.engine.keys.config g) (harmed : armed ≤ H.now)
      (hguards : ∀ w, values (H.engine.keys.config g) = some w →
        ∃ v, w = .config v ∧ H.Guards scene g snap armed v)

section Mono

variable {H} {scene scene' : Scene Memory} {values values' : String → Option Entry} {key : String}
  {slot slot' : Slot Entry (Poller Memory)}

theorem hasFired_congr (hcalm : Memory.Calm scene scene')
    (hoptions : slot'.options = slot.options) :
    slot'.hasFired scene'.signals = slot.hasFired scene.signals := by
  unfold Slot.hasFired
  rw [hoptions]
  exact List.any_congr rfl hcalm.fired

theorem Excused.mono {path : String} (h : H.Excused scene path slot)
    (hcalm : Memory.Calm scene scene') (hoptions : slot'.options = slot.options) :
    H.Excused scene' path slot' := by
  unfold Excused
  rw [hasFired_congr hcalm hoptions, hoptions, hcalm.files]
  rcases h with hfired | ⟨t, ht, hwatched, habsent⟩ | ⟨deadline, hexp, hle, habsent, hfailed⟩
  · exact .inl hfired
  · exact .inr (.inl ⟨t, ht, hcalm.watchers _ hwatched, habsent⟩)
  · refine .inr (.inr ⟨deadline, hexp, hle, habsent, fun hpush => ?_⟩)
    obtain ⟨t, ht, heq⟩ := hfailed hpush
    exact ⟨t, ht.mono hcalm.journal, heq⟩

/-- An entry stands for the same as long as nothing happens to the files and none of the entries
that it depends on is replaced. -/
theorem Fits.mono (h : H.Fits scene values key slot) (hcalm : Memory.Calm scene scene')
    (hvalues : ∀ g, g.WellNamed → H.engine.keys.config g ∈ slot.options.keys →
      ∀ w, values' (H.engine.keys.config g) = some w → values (H.engine.keys.config g) = some w)
    (hvalue : slot'.value = slot.value) (hoptions : slot'.options = slot.options) :
    H.Fits scene' values' key slot' := by
  have hfired := hasFired_congr hcalm hoptions
  cases h with
  | global hkey hval hhook =>
    exact .global hkey (hvalue.trans hval) (by rw [hoptions, hhook])
  | config g v hg hkey hval hhook hkeys hcurrent =>
    refine .config g v hg hkey (hvalue.trans hval) (by rw [hoptions, hhook])
      (by rw [hoptions, hkeys]) fun hpush => ?_
    rw [hfired, hoptions, hcalm.files]
    refine (hcurrent hpush).imp_right fun ⟨heq, hwatched⟩ => ⟨heq, fun folder hfolder => ?_⟩
    obtain ⟨t, ht, hw⟩ := hwatched folder hfolder
    exact ⟨t, ht, hcalm.watchers _ hw⟩
  | missing g path hg hkey hval hhook hexcused =>
    exact .missing g path hg hkey (hvalue.trans hval) (by rw [hoptions, hhook])
      (hexcused.mono hcalm hoptions)
  | compiled g t source hg hkey hval hhook hkeys hmade hsource hcurrent =>
    refine .compiled g t source hg hkey (hvalue.trans hval) (by rw [hoptions, hhook])
      (by rw [hoptions, hkeys]) (fun w hw => hmade w (hvalues g hg ?_ w hw)) hsource ?_
    · rw [hkeys]
      exact List.mem_singleton_self _
    · intro hpush
      rw [hfired, hoptions, hcalm.files]
      apply (hcurrent hpush).imp_right
      rintro ⟨hfile, token, htoken, hw⟩
      exact ⟨hfile, token, htoken, hcalm.watchers _ hw⟩
  | poll g serial snap armed hg hpush hkey hval hopts hsnap harmed hguards =>
    refine .poll g serial snap armed hg hpush hkey (hvalue.trans hval) (hoptions.trans hopts) hsnap
      harmed fun w hw => ?_
    have hmem : H.engine.keys.config g ∈ slot.options.keys := by
      rw [hopts]
      exact List.mem_singleton_self _
    obtain ⟨v, heq, hguard⟩ := hguards w (hvalues g hg hmem w hw)
    refine ⟨v, heq, ?_⟩
    unfold Guards
    rw [hcalm.files]
    exact hguard

end Mono

end Ledger

end Templating
