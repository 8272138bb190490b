import Templating.Proofs.Cache.Reads
import Templating.Proofs.Engine.Ledger

/-!
# Sound sessions

A session of an engine is `Sound` when every entry stands for what it should (`Ledger.Fits`) and,
where changes are not signalled, every group's partials are guarded: a snapshot is stored beside
them, or it waits to be asked, or they wait to be removed. The tasks that are still to be done are
part of it, so that it can be followed through the work step by step. While a group's partials have
been put in and their poller has not been set yet, they are `exempt`.

This file follows the operations of the cache itself: taking entries out, and putting one in.
-/

namespace Templating

abbrev EngineSession := Session Entry (Poller Memory) Memory

abbrev EngineTask := Session.Task Entry (Poller Memory)

abbrev EngineSlot := Slot Entry (Poller Memory)

abbrev EngineCache := Cache Entry (Poller Memory)

/-- A snapshot for the partials under `k` is stored or waits to be asked, or they are to go. -/
inductive Held (c : EngineCache) (tasks : List EngineTask) (k : String) : Prop
  | stored (key : String) (slot : EngineSlot) (snap : Snapshot)
      (hget : c.entries.get? key = some slot) (hvalue : slot.value = .poll snap)
      (hkey : snap.configKey = k)
  | waiting (e : Evicted Entry (Poller Memory)) (snap : Snapshot) (hmem : .consult e ∈ tasks)
      (hvalue : e.slot.value = .poll snap) (hkey : snap.configKey = k)
  | removed (hmem : .remove k ∈ tasks)

namespace Held

variable {c c' : EngineCache} {task : EngineTask} {tasks tasks' : List EngineTask} {k : String}

/-- Partials are held on to while tasks come in and the stored snapshots for them are held. -/
theorem mono (h : Held c tasks k) (hsub : ∀ task ∈ tasks, task ∈ tasks')
    (hpolls : ∀ key slot snap, c.entries.get? key = some slot → slot.value = .poll snap →
      snap.configKey = k → Held c' tasks' k) : Held c' tasks' k := by
  cases h with
  | stored key slot snap hget hvalue hkey => exact hpolls key slot snap hget hvalue hkey
  | waiting e snap hmem hvalue hkey => exact .waiting e snap (hsub _ hmem) hvalue hkey
  | removed hmem => exact .removed (hsub _ hmem)

/-- A task that is about other partials does not hold these. -/
theorem of_cons (h : Held c (task :: tasks) k)
    (hconsult : ∀ e snap, task = .consult e → e.slot.value = .poll snap → snap.configKey ≠ k)
    (hremove : task ≠ .remove k) : Held c tasks k := by
  cases h with
  | stored key slot snap hget hvalue hkey => exact .stored key slot snap hget hvalue hkey
  | waiting e snap hmem hvalue hkey =>
    rcases List.mem_cons.1 hmem with heq | hmem
    · exact absurd hkey (hconsult e snap heq.symm hvalue)
    · exact .waiting e snap hmem hvalue hkey
  | removed hmem =>
    rcases List.mem_cons.1 hmem with heq | hmem
    · exact absurd heq.symm hremove
    · exact .removed hmem

end Held

namespace Ledger

variable (H : Ledger)

/-- What an evicted entry stood for. A poller that has expired may still be put back. -/
def Waits (scene : Scene Memory) (values : String → Option Entry)
    (e : Evicted Entry (Poller Memory)) : Prop :=
  H.Fits scene (fun _ => none) e.key e.slot ∧
    (e.reason = .expired → H.Fits scene values e.key e.slot)

structure Sound (exempt : String → Prop) (s : EngineSession) (tasks : List EngineTask) : Prop where
  push : s.scene.world.push = H.push
  linked : s.cache.Linked
  watchful : s.cache.Watchful H.now s.scene.signals
  ascending : Sorted.Ascending s.scene.world.files
  contents : ContentsIn H.contents s.scene.world.files
  fits : ∀ key slot, s.cache.entries.get? key = some slot →
    H.Fits s.scene s.cache.valueAt key slot
  waits : ∀ e, .consult e ∈ tasks → H.Waits s.scene s.cache.valueAt e
  removes : ∀ key, .remove key ∈ tasks → ∃ g : Group, g.WellNamed ∧ key = H.engine.keys.config g
  guarded : H.push = false → ∀ k v, s.cache.valueAt k = some (.config v) → ¬exempt k →
    Held s.cache tasks k

/-- Nothing is exempt. -/
abbrev strict : String → Prop := fun _ => False

end Ledger

namespace Ledger

variable {H : Ledger} {scene scene' : Scene Memory} {values values' : String → Option Entry}

theorem Fits.hidden {key : String} {slot : EngineSlot} (h : H.Fits scene values key slot) :
    H.Fits scene (fun _ => none) key slot :=
  h.mono (.refl scene) (fun _ _ _ _ hw => (by cases hw)) rfl rfl

theorem Waits.mono {e : Evicted Entry (Poller Memory)} (h : H.Waits scene values e)
    (hcalm : Memory.Calm scene scene')
    (hvalues : e.reason = .expired → ∀ g, g.WellNamed →
      H.engine.keys.config g ∈ e.slot.options.keys → ∀ w,
        values' (H.engine.keys.config g) = some w → values (H.engine.keys.config g) = some w) :
    H.Waits scene' values' e :=
  ⟨h.1.mono hcalm (fun _ _ _ _ hw => hw) rfl rfl,
    fun hexpired => (h.2 hexpired).mono hcalm (hvalues hexpired) rfl rfl⟩

/-- What a poller's entry looks like. -/
theorem Fits.of_poll {key : String} {slot : EngineSlot} {snap : Snapshot}
    (h : H.Fits scene values key slot) (hvalue : slot.value = .poll snap) :
    ∃ (g : Group) (serial : Nat) (armed : Instant), g.WellNamed ∧ H.push = false ∧
      key = H.engine.keys.path g (KeySpace.pollerPath serial) ∧
      slot.options = H.armedAt armed g ∧ snap.configKey = H.engine.keys.config g ∧
      armed ≤ H.now ∧ ∀ w, values (H.engine.keys.config g) = some w →
        ∃ v, w = .config v ∧ H.Guards scene g snap armed v := by
  cases h with
  | poll g serial snap' armed hg hpush hkey hval hoptions hsnap harmed hguards =>
    rw [hval] at hvalue
    cases hvalue
    exact ⟨g, serial, armed, hg, hpush, hkey, hoptions, hsnap, harmed, hguards⟩
  | global hkey hval => rw [hval] at hvalue; cases hvalue
  | config g v hg hkey hval => rw [hval] at hvalue; cases hvalue
  | missing g path hg hkey hval => rw [hval] at hvalue; cases hvalue
  | compiled g t source hg hkey hval => rw [hval] at hvalue; cases hvalue

/-- Only pollers have hooks. -/
theorem Fits.of_hook {key : String} {slot : EngineSlot} (h : H.Fits scene values key slot)
    (hhook : slot.options.hook ≠ none) : ∃ snap, slot.value = .poll snap := by
  cases h with
  | poll g serial snap armed hg hpush hkey hval => exact ⟨snap, hval⟩
  | global hkey hval hnone => exact absurd hnone hhook
  | config g v hg hkey hval hnone => exact absurd hnone hhook
  | missing g path hg hkey hval hnone => exact absurd hnone hhook
  | compiled g t source hg hkey hval hnone => exact absurd hnone hhook

end Ledger

namespace Ledger.Sound

variable {H : Ledger} {exempt exempt' : String → Prop} {s : EngineSession} {tasks : List EngineTask}

/-- Looking at the files and noting events keep a session sound. -/
theorem undisturbed (h : H.Sound exempt s tasks) {scene : Scene Memory}
    (hu : Memory.Undisturbed s.scene scene) : H.Sound exempt { s with scene } tasks where
  push := hu.push.trans h.push
  linked := h.linked
  watchful := h.watchful.later (Nat.le_refl _) fun _ => hu.leads.tells
  ascending := by
    rw [hu.files]
    exact h.ascending
  contents := by
    rw [hu.files]
    exact h.contents
  fits key slot hget := (h.fits key slot hget).mono hu.toCalm (fun _ _ _ _ hw => hw) rfl rfl
  waits e he := (h.waits e he).mono hu.toCalm fun _ _ _ _ _ hw => hw
  removes := h.removes
  guarded := h.guarded

theorem note (h : H.Sound exempt s tasks) (e : Event) :
    H.Sound exempt { s with scene := s.scene.note e } tasks :=
  h.undisturbed (.note s.scene e)

theorem exempting (h : H.Sound exempt s tasks)
    (hexempt : ∀ k v, exempt k → s.cache.valueAt k = some (.config v) →
      exempt' k ∨ Held s.cache tasks k) : H.Sound exempt' s tasks :=
  { h with
    guarded := fun hpush k v hk hnot => by
      by_cases hold : exempt k
      · exact (hexempt k v hold hk).resolve_left hnot
      · exact h.guarded hpush k v hk hold }

/-- **A task is forgotten.** The partials that it held are exempt. -/
theorem forget {task : EngineTask} (h : H.Sound exempt s (task :: tasks))
    (hexempt : ∀ k, exempt k → exempt' k)
    (hconsult : ∀ e snap, task = .consult e → e.slot.value = .poll snap → exempt' snap.configKey)
    (hremove : ∀ k v, task = .remove k → s.cache.valueAt k = some (.config v) → exempt' k) :
    H.Sound exempt' s tasks :=
  { h with
    waits := fun e he => h.waits e (List.mem_cons_of_mem _ he)
    removes := fun key hkey => h.removes key (List.mem_cons_of_mem _ hkey)
    guarded := by
      intro hpush k v hk hnot
      have hheld := h.guarded hpush k v hk fun hold => hnot (hexempt k hold)
      refine hheld.of_cons ?_ ?_
      · intro e snap heq hvalue hkey
        rw [← hkey] at hnot
        exact hnot (hconsult e snap heq hvalue)
      · intro heq
        exact hnot (hremove k v heq hk) }

/-- **Entries leave.** Those of pollers have to wait to be asked, or what they guarded is exempt. -/
theorem loses (h : H.Sound exempt s tasks) {rest : EngineCache} {scene : Scene Memory}
    {evicted : List (Evicted Entry (Poller Memory))} (hcalm : Memory.Calm s.scene scene)
    (hrest : rest.Linked) (hwatchful : rest.Watchful H.now scene.signals)
    (hkept : ∀ key slot, rest.entries.get? key = some slot → s.cache.entries.get? key = some slot)
    (hwas : ∀ e ∈ evicted, s.cache.entries.get? e.key = some e.slot)
    (hexempt : ∀ k, exempt k → exempt' k)
    (hpolls : ∀ key slot snap, s.cache.entries.get? key = some slot → slot.value = .poll snap →
      rest.entries.get? key = some slot ∨ (∃ e ∈ evicted, e.slot = slot) ∨
        exempt' snap.configKey) :
    H.Sound exempt' ⟨rest, scene⟩ (evicted.map .consult ++ tasks) := by
  have hvalues : ∀ k w, rest.valueAt k = some w → s.cache.valueAt k = some w := by
    intro k w hw
    obtain ⟨slot, hget, hvalue⟩ := Cache.valueAt_eq_some.1 hw
    exact Cache.valueAt_eq_some.2 ⟨slot, hkept k slot hget, hvalue⟩
  refine ⟨hcalm.push.trans h.push, hrest, hwatchful, ?_, ?_, ?_, ?_, ?_, ?_⟩
  · rw [hcalm.files]
    exact h.ascending
  · rw [hcalm.files]
    exact h.contents
  · intro key slot hget
    exact (h.fits key slot (hkept key slot hget)).mono hcalm (fun _ _ _ w => hvalues _ w) rfl rfl
  · intro e he
    rcases List.mem_append.1 he with hmem | hmem
    · obtain ⟨e', he', heq⟩ := List.mem_map.1 hmem
      cases heq
      have hfits := h.fits e.key e.slot (hwas e he')
      exact ⟨hfits.hidden.mono hcalm (fun _ _ _ _ hw => hw) rfl rfl,
        fun _ => hfits.mono hcalm (fun _ _ _ w => hvalues _ w) rfl rfl⟩
    · exact (h.waits e hmem).mono hcalm fun _ _ _ _ w => hvalues _ w
  · intro key hkey
    rcases List.mem_append.1 hkey with hmem | hmem
    · obtain ⟨e, -, heq⟩ := List.mem_map.1 hmem
      cases heq
    · exact h.removes key hmem
  · intro hpush k v hk hnot
    have hold : ¬exempt k := fun hk => hnot (hexempt k hk)
    refine (h.guarded hpush k v (hvalues k _ hk) hold).mono
      (fun _ hmem => List.mem_append_right _ hmem) fun key slot snap hget hvalue hkey => ?_
    rcases hpolls key slot snap hget hvalue with hstays | ⟨e, he, hslot⟩ | hfree
    · exact .stored key slot snap hstays hvalue hkey
    · refine .waiting e snap (List.mem_append_left _ (List.mem_map_of_mem he)) ?_ hkey
      rw [hslot, hvalue]
    · rw [hkey] at hfree
      exact absurd hfree hnot

/-! ## Taking entries out -/

theorem detach (h : H.Sound exempt s tasks) {key : String}
    {d : Cache.Detached Entry (Poller Memory)} (hd : s.cache.detach key = some d)
    (hkey : ∀ slot snap, s.cache.entries.get? key = some slot → slot.value ≠ .poll snap) :
    H.Sound exempt { s with cache := d.cache } (d.evicted.map .consult ++ tasks) := by
  have hloses := Cache.loses_detach h.linked.toConsistent hd .expired
  refine h.loses (.refl s.scene) (h.linked.detach hd) (h.watchful.of_loses hloses) hloses.kept
    (fun e he => hloses.was_stored e (List.mem_cons_of_mem _ he)) (fun _ hk => hk)
    fun k slot snap hget hvalue => ?_
  rcases hloses.kept_or_gone k slot hget with hstays | ⟨e, he, hek, hslot⟩
  · exact .inl hstays
  · rcases List.mem_cons.1 he with rfl | he
    · simp only at hek
      subst hek
      exact absurd hvalue (hkey slot snap hget)
    · exact .inr (.inl ⟨e, he, hslot⟩)

theorem cleared (h : H.Sound exempt s tasks) (key : String) (hexempt : ∀ k, exempt k → exempt' k)
    (hkey : ∀ slot snap, s.cache.entries.get? key = some slot → slot.value = .poll snap →
      exempt' snap.configKey) :
    H.Sound exempt' { s with cache := (s.cache.cleared key).1 }
      ((s.cache.cleared key).2.1.map .consult ++ tasks) := by
  cases hd : s.cache.detach key with
  | none =>
    rw [Cache.cleared_of_none hd]
    exact h.exempting fun k _ hk _ => .inl (hexempt k hk)
  | some d =>
    rw [Cache.cleared_of_some hd]
    have hloses := Cache.loses_detach h.linked.toConsistent hd .expired
    refine h.loses (.refl s.scene) (h.linked.detach hd) (h.watchful.of_loses hloses) hloses.kept
      (fun e he => hloses.was_stored e (List.mem_cons_of_mem _ he)) hexempt
      fun k slot snap hget hvalue => ?_
    rcases hloses.kept_or_gone k slot hget with hstays | ⟨e, he, hek, hslot⟩
    · exact .inl hstays
    · rcases List.mem_cons.1 he with rfl | he
      · simp only at hek
        subst hek
        exact .inr (.inr (hkey slot snap hget hvalue))
      · exact .inr (.inl ⟨e, he, hslot⟩)

theorem swept (h : H.Sound exempt s tasks)
    (decide : (hook : Poller Memory) → (key : String) → (value : Entry) → Reason →
      Act Memory (Action Entry (Poller Memory))) :
    H.Sound exempt (s.swept ⟨H.now, decide⟩)
      ((s.cache.sweep H.now (s.scene.signals.lower s.cache.flag)).2.map .consult ++ tasks) := by
  have hloses := Cache.loses_evictEach h.linked
    (s.cache.doomed H.now (s.scene.signals.lower s.cache.flag))
  refine h.loses ⟨rfl, rfl, fun _ hw => hw, fun _ => rfl, List.suffix_refl _⟩
    (h.linked.sweep H.now _) (h.watchful.sweep h.linked) hloses.kept hloses.was_stored
    (fun _ hk => hk) fun k slot snap hget _ => ?_
  rcases hloses.kept_or_gone k slot hget with hstays | ⟨e, he, -, hslot⟩
  · exact .inl hstays
  · exact .inr (.inl ⟨e, he, hslot⟩)

theorem valueAt_touch (c : EngineCache) (now : Instant) (key k : String) :
    (c.touch now key).valueAt k = c.valueAt k := by
  unfold Cache.valueAt
  rw [Cache.get?_touch]
  split
  · next hk =>
    subst hk
    rw [Option.map_map]
    rfl
  · rfl

theorem touch (h : H.Sound exempt s tasks) (key : String) :
    H.Sound exempt { s with cache := s.cache.touch H.now key } tasks where
  push := h.push
  linked := h.linked.touch H.now key
  watchful := h.watchful.touch key
  ascending := h.ascending
  contents := h.contents
  fits k slot hget := by
    obtain ⟨old, hold, hvalue, hoptions, -⟩ := Cache.get?_of_get?_touch hget
    refine (h.fits k old hold).mono (.refl _) (fun _ _ _ w hw => ?_) hvalue hoptions
    rwa [valueAt_touch] at hw
  waits e he := (h.waits e he).mono (.refl _) fun _ _ _ _ w hw => by rwa [valueAt_touch] at hw
  removes := h.removes
  guarded hpush k v hk hnot := by
    rw [valueAt_touch] at hk
    refine (h.guarded hpush k v hk hnot).mono (fun _ hmem => hmem)
      fun key' slot snap hget hvalue hkey => ?_
    have hsome := Cache.isSome_get?_touch s.cache H.now key key'
    rw [hget] at hsome
    obtain ⟨slot', hget'⟩ := Option.isSome_iff_exists.1 hsome
    obtain ⟨old, hold, hvalue', -⟩ := Cache.get?_of_get?_touch hget'
    rw [hget] at hold
    cases hold
    exact .stored key' slot' snap hget' (hvalue'.trans hvalue) hkey

/-! ## Putting an entry in -/

theorem valueAt_link (c : EngineCache) (now : Instant) (key : String) (value : Entry)
    (options : Options (Poller Memory)) (k : String) :
    (c.link now key value options).valueAt k = if k = key then some value else c.valueAt k := by
  unfold Cache.valueAt
  rw [Cache.get?_link]
  split <;> rfl

/-- **An entry is put in** under a free key. A snapshot ends the exemption of the partials that it
guards; partials without a snapshot are exempt. -/
theorem link {c : EngineCache} {scene : Scene Memory} (h : H.Sound exempt ⟨c, scene⟩ tasks)
    {key : String} (hfree : c.entries.get? key = none) {value : Entry}
    {options : Options (Poller Memory)} (hvalid : c.refuses scene.signals key options = false)
    (hfits : H.Fits scene (c.link H.now key value options).valueAt key
      ⟨value, options, c.millis H.now⟩)
    (hwaits : (∀ e, .consult e ∈ tasks → e.reason ≠ .expired) ∨
      ∀ g : Group, g.WellNamed → H.engine.keys.config g ≠ key)
    (hexempt : ∀ k, exempt k → exempt' k ∨ ∃ snap, value = .poll snap ∧ snap.configKey = k)
    (hvalue : ∀ v, value = .config v → exempt' key) :
    H.Sound exempt' ⟨c.link H.now key value options, { scene with
      signals := options.tokens.foldl (fun s t => s.subscribe t c.flag) scene.signals }⟩ tasks := by
  have hcalm : Memory.Calm scene { scene with
      signals := options.tokens.foldl (fun s t => s.subscribe t c.flag) scene.signals } :=
    ⟨rfl, rfl, fun _ hw => hw, fun t => Signals.hasFired_foldl_subscribe options.tokens c.flag
      scene.signals t, List.suffix_refl _⟩
  refine ⟨h.push, h.linked.link H.now value options hfree (Cache.not_refuses hvalid).1,
    h.watchful.link key value options, h.ascending, h.contents, ?_,
    ?_, h.removes, ?_⟩
  · intro k slot hget
    rcases Cache.get?_of_get?_link hget with ⟨rfl, rfl⟩ | ⟨-, hbefore⟩
    · exact hfits.mono hcalm (fun _ _ _ _ hw => hw) rfl rfl
    · refine (h.fits k slot hbefore).mono hcalm (fun g _ hmem w hw => ?_) rfl rfl
      -- What the entry depends on is stored, and so it is not what is put in.
      have hne : H.engine.keys.config g ≠ key := by
        rintro rfl
        exact h.linked.not_dependsOn_of_none hfree k
          ((h.linked.recorded k slot hbefore _).2 hmem)
      rwa [valueAt_link, if_neg hne] at hw
  · intro e he
    apply (h.waits e he).mono hcalm
    intro hexpired g hg _ w hw
    rcases hwaits with hwaits | hwaits
    · exact absurd hexpired (hwaits e he)
    · rwa [valueAt_link, if_neg (hwaits g hg)] at hw
  · intro hpush k v hk hnot
    rw [valueAt_link] at hk
    split at hk
    · next heq =>
      subst heq
      exact absurd (hvalue v (Option.some.inj hk)) hnot
    · by_cases hold : exempt k
      · rcases hexempt k hold with hnew | ⟨snap, hval, hkey⟩
        · exact absurd hnew hnot
        · refine .stored key ⟨value, options, c.millis H.now⟩ snap ?_ hval hkey
          rw [Cache.get?_link, if_pos rfl]
      · refine (h.guarded hpush k v hk hold).mono (fun _ hmem => hmem)
          fun key' slot snap hget hval hkey => ?_
        have hne : key' ≠ key := by
          rintro rfl
          rw [hfree] at hget
          cases hget
        refine .stored key' slot snap ?_ hval hkey
        rw [Cache.get?_link, if_neg hne]
        exact hget

end Ledger.Sound

end Templating
