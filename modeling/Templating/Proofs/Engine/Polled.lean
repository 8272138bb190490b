import Templating.Proofs.Engine.Workshop

/-!
# Partials under guard

Partials for which there is nothing to watch have a poller beside them: an entry with a snapshot,
which leaves the cache whenever its interval is over, and is put back by its hook or has its hook
remove the partials. A snapshot is **on duty** (`OnDuty`) when it is stored, or when it has expired
and its hook is still to be asked.

`Polled` says that no two snapshots are on duty for the same partials, that a snapshot on duty was
made together with the partials that stand under its key, and that partials without tokens have a
snapshot on duty, unless they are scheduled for removal. This is a property of the cache and of the
tasks that are left (`Session.Upheld`), since for a while a poller is neither stored nor gone.
-/

namespace Templating

open Session (Task Settled Upheld waitingEntries)
open Work (Answers Takes)

/-! ## Keys of partials and of pollers -/

/-- The text in front of the keys holds no colon. -/
def KeySpace.ColonFree (k : KeySpace) : Prop := ':' ∉ k.keyPrefix.toList

/-- The key of the partials of a group. -/
def PartialsKey (key : String) : Prop :=
  ∃ k : KeySpace, k.ColonFree ∧ ∃ g : Group.Made, key = k.config g.1

/-- A key for a poller beside the partials of a group. -/
def PollerKey (key : String) : Prop :=
  ∃ configKey serial, PartialsKey configKey ∧ key = KeySpace.poller configKey serial

namespace KeySpace

variable {k k' : KeySpace}

theorem path_eq_path (hk : k.ColonFree) (hk' : k'.ColonFree) {g g' : Group.Made} {p p' : String}
    (heq : k.path g.1 p = k'.path g'.1 p') : k = k' ∧ g = g' ∧ p = p' := by
  have hlist := congrArg String.toList heq
  rw [toList_path, toList_path] at hlist
  obtain ⟨text⟩ := k
  obtain ⟨text'⟩ := k'
  obtain rfl : text = text' := String.toList_inj.1 (append_separator_injective hk hk' hlist).1
  obtain ⟨hgroup, hpath⟩ := path_injective ⟨text⟩ g.2 g'.2 heq
  exact ⟨rfl, Subtype.ext hgroup, hpath⟩

theorem global_ne_path_of (hk : k.ColonFree) (hk' : k'.ColonFree) (g : Group) (p : String) :
    k.global ≠ k'.path g p := by
  intro heq
  have hlist := congrArg String.toList heq
  have hglobal : k.global.toList = k.keyPrefix.toList ++ ':' :: "global".toList := by
    simp [global, toString]
  rw [hglobal, toList_path] at hlist
  obtain ⟨text⟩ := k
  obtain ⟨text'⟩ := k'
  obtain rfl : text = text' := String.toList_inj.1 (append_separator_injective hk hk' hlist).1
  exact global_ne_path ⟨text⟩ g p heq

theorem partialsKey_config (hk : k.ColonFree) (g : Group.Made) : PartialsKey (k.config g.1) :=
  ⟨k, hk, g, rfl⟩

/-- A key of a poller tells which partials it is beside. -/
theorem poller_injective {configKey configKey' : String} {serial serial' : Nat}
    (h : poller configKey serial = poller configKey' serial') : configKey = configKey' := by
  have hlist := congrArg String.toList h
  simp only [poller, String.toList_append] at hlist
  have hlength : ∀ n, (Text.hex 32 n).toList.length = 32 := fun n => by
    rw [Text.hex, String.toList_ofList, Text.length_hexDigits]
  exact String.toList_inj.1 (List.append_inj' hlist ((hlength _).trans (hlength _).symm)).1

theorem not_pollerKey_path (hk : k.ColonFree) (g : Group.Made) {p : String}
    (hp : ∀ serial, p ≠ pollerPath serial) : ¬PollerKey (k.path g.1 p) := by
  rintro ⟨_, serial, ⟨k', hk', g', rfl⟩, heq⟩
  rw [poller_eq_path] at heq
  exact hp serial (path_eq_path hk hk' heq).2.2

theorem not_pollerKey_config (hk : k.ColonFree) (g : Group.Made) : ¬PollerKey (k.config g.1) :=
  not_pollerKey_path hk g fun serial => (pollerPath_ne_config serial).symm

theorem not_pollerKey_global (hk : k.ColonFree) : ¬PollerKey k.global := by
  rintro ⟨_, serial, ⟨k', hk', g', rfl⟩, heq⟩
  rw [poller_eq_path] at heq
  exact global_ne_path_of hk hk' _ _ heq

end KeySpace

theorem PartialsKey.not_pollerKey {key : String} (h : PartialsKey key) : ¬PollerKey key := by
  obtain ⟨k, hk, g, rfl⟩ := h
  exact KeySpace.not_pollerKey_config hk g

/-! ## Snapshots on duty -/

/-- The snapshot stands beside the partials that it guards: it hangs off them, it holds no token,
and it has a hook that will be asked. -/
structure Snapshot.Beside {C : Type} (snap : Snapshot) (key : String) (options : Options C) :
    Prop where
  partials : PartialsKey snap.configKey
  key : ∃ serial, key = KeySpace.poller snap.configKey serial
  keys : options.keys = [snap.configKey]
  tokens : options.tokens = []
  hook : options.hook ≠ none

theorem Snapshot.Beside.pollerKey {C : Type} {snap : Snapshot} {key : String} {options : Options C}
    (h : snap.Beside key options) : PollerKey key := by
  obtain ⟨serial, hkey⟩ := h.key
  exact ⟨snap.configKey, serial, h.partials, hkey⟩

/-- A snapshot stands beside the partials that it guards. Other entries may be as they like. -/
structure Shaped {C : Type} (key : String) (value : Entry) (options : Options C) : Prop where
  poll : ∀ snap, value = .poll snap → snap.Beside key options

section OnDuty

variable {C : Type}

/-- A snapshot is stored under a key, or it has expired there and its hook is still to be asked. -/
def OnDuty (c : Cache Entry C) (tasks : List (Task Entry C)) (key : String) (snap : Snapshot) :
    Prop :=
  (∃ slot, c.entries.get? key = some slot ∧ slot.value = .poll snap) ∨
    ∃ e ∈ waitingEntries tasks, e.key = key ∧ e.slot.value = .poll snap ∧ e.reason = .expired

variable {c rest : Cache Entry C} {tasks tasks' : List (Task Entry C)}
  {more : List (Evicted Entry C)} {key : String} {snap : Snapshot}

/-- No snapshot comes on duty when entries leave. -/
theorem OnDuty.of_thin (hrest : c.Thinned rest)
    (hwaiting : waitingEntries tasks' = more ++ waitingEntries tasks)
    (hmore : ∀ e ∈ more, c.entries.get? e.key = some e.slot) (h : OnDuty rest tasks' key snap) :
    OnDuty c tasks key snap := by
  rcases h with ⟨slot, hget, hvalue⟩ | ⟨e, he, rfl, hvalue, hreason⟩
  · obtain ⟨old, hold, hsame, -⟩ := hrest.kept key slot hget
    exact .inl ⟨old, hold, hsame.symm.trans hvalue⟩
  · rw [hwaiting] at he
    rcases List.mem_append.1 he with he | he
    · exact .inl ⟨e.slot, hmore e he, hvalue⟩
    · exact .inr ⟨e, he, rfl, hvalue, hreason⟩

/-- A snapshot comes on duty when it is put in, and no other one does. -/
theorem onDuty_link_iff (hfree : c.entries.get? key = none) (now : Instant) (value : Entry)
    (options : Options C) {other : String} :
    OnDuty (c.link now key value options) tasks other snap ↔
      other = key ∧ value = .poll snap ∨ OnDuty c tasks other snap := by
  constructor
  · rintro (⟨slot, hget, hvalue⟩ | hwaits)
    · rcases Cache.get?_of_get?_link hget with ⟨heq, rfl⟩ | ⟨-, hget⟩
      · exact .inl ⟨heq, hvalue⟩
      · exact .inr (.inl ⟨slot, hget, hvalue⟩)
    · exact .inr (.inr hwaits)
  · rintro (⟨rfl, hvalue⟩ | ⟨slot, hget, hvalue⟩ | hwaits)
    · exact .inl ⟨_, (Cache.get?_link ..).trans (if_pos rfl), hvalue⟩
    · refine .inl ⟨slot, ?_, hvalue⟩
      rw [Cache.get?_link, if_neg]
      · exact hget
      · rintro rfl
        rw [hfree] at hget
        cases hget
    · exact .inr hwaits

end OnDuty

/-! ## The guard of partials -/

section Polled

variable {W : Type} (Made : String → GroupConfig → Snapshot → Prop)
  (due fresh : String → Prop) (only : Entry → Options (Poller W) → Prop)

/-- What holds of a cache and of the tasks that are left. Under the keys in `due` there may be
partials for which no snapshot is on duty. Under those in `fresh` there stands at most what `only`
says, and for certain no snapshot is on duty for it. -/
structure Polled (c : Cache Entry (Poller W)) (tasks : List (Task Entry (Poller W))) : Prop
    extends Cache.Holds Shaped c (waitingEntries tasks) where
  removes : ∀ key, .remove key ∈ tasks → ¬PollerKey key
  /-- What a snapshot on duty guards was put together with it. -/
  target : ∀ key snap slot, OnDuty c tasks key snap → c.entries.get? snap.configKey = some slot →
    ∃ v, slot.value = .config v ∧ slot.options.tokens = [] ∧ Made snap.configKey v snap
  /-- No two snapshots are on duty for the same partials. -/
  alone : ∀ key key' snap snap', OnDuty c tasks key snap → OnDuty c tasks key' snap' →
    snap.configKey = snap'.configKey → key = key'
  /-- Partials without tokens are guarded, or about to be removed. -/
  guarded : ∀ key slot v, c.entries.get? key = some slot → slot.value = .config v →
    slot.options.tokens = [] →
      (∃ key' snap, OnDuty c tasks key' snap ∧ snap.configKey = key) ∨ .remove key ∈ tasks ∨ due key
  fresh : ∀ key, fresh key → (∀ slot, c.entries.get? key = some slot →
    only slot.value slot.options) ∧ ∀ key' snap, OnDuty c tasks key' snap → snap.configKey ≠ key

variable {Made due fresh only} {due' fresh' : String → Prop}
  {only' : Entry → Options (Poller W) → Prop} {c rest : Cache Entry (Poller W)}
  {tasks tasks' : List (Task Entry (Poller W))} {more : List (Evicted Entry (Poller W))}
  {key : String} {value : Entry} {options : Options (Poller W)} {snap : Snapshot}

namespace Polled

/-- A snapshot on duty stands beside what it guards. -/
theorem beside (h : Polled Made due fresh only c tasks) (hduty : OnDuty c tasks key snap) :
    ∃ options : Options (Poller W), snap.Beside key options := by
  rcases hduty with ⟨slot, hget, hvalue⟩ | ⟨e, he, rfl, hvalue, -⟩
  · exact ⟨_, (h.stored key slot hget).poll snap hvalue⟩
  · exact ⟨_, (h.pending e he).poll snap hvalue⟩

/-- A snapshot that is stored hangs off what it guards. -/
theorem dependsOn (h : Polled Made due fresh only c tasks) {slot : Slot Entry (Poller W)}
    (hget : c.entries.get? key = some slot) (hvalue : slot.value = .poll snap) :
    c.DependsOn key snap.configKey := by
  rw [h.linked.recorded key slot hget, ((h.stored key slot hget).poll snap hvalue).keys]
  exact List.mem_singleton_self _

/-- Where there are no partials, none are due and none are known to be fresh. -/
theorem with_fresh (h : Polled Made due fresh only c tasks)
    (hdue : ∀ key, due key → due' key ∨ ∀ slot, c.entries.get? key = some slot →
      ∀ v, slot.value = .config v → slot.options.tokens ≠ [])
    (hfresh : ∀ key, fresh' key → (∀ slot, c.entries.get? key = some slot →
      only' slot.value slot.options) ∧
        ∀ key' snap, OnDuty c tasks key' snap → snap.configKey ≠ key) :
    Polled Made due' fresh' only' c tasks :=
  { h with
    guarded := fun key slot v hget hvalue htokens =>
      (h.guarded key slot v hget hvalue htokens).imp_right (Or.imp_right fun hkey =>
        (hdue key hkey).resolve_right fun hnone => hnone slot hget v hvalue htokens)
    fresh := hfresh }

/-- Entries leave, and tasks are done. A snapshot that leaves has expired and waits to be asked, or
what it guards leaves too. -/
theorem thin (h : Polled Made due fresh only c tasks) (hrest : c.Thinned rest)
    (hwaiting : waitingEntries tasks' = more ++ waitingEntries tasks)
    (hmore : ∀ e ∈ more, c.entries.get? e.key = some e.slot)
    (hremoves : ∀ key, .remove key ∈ tasks' → .remove key ∈ tasks)
    (hdone : ∀ key, .remove key ∈ tasks → .remove key ∈ tasks' ∨ rest.entries.get? key = none)
    (hpolls : ∀ key slot snap, c.entries.get? key = some slot → slot.value = .poll snap →
      (rest.entries.get? key).isSome = true ∨
        (∃ e ∈ more, e.key = key ∧ e.slot = slot ∧ e.reason = .expired) ∨
        rest.entries.get? snap.configKey = none ∨ due snap.configKey) :
    Polled Made due fresh only rest tasks' := by
  have hduty : ∀ {key snap}, OnDuty rest tasks' key snap → OnDuty c tasks key snap :=
    OnDuty.of_thin hrest hwaiting hmore
  refine ⟨hwaiting ▸ h.toHolds.thin hrest hmore, fun key hkey => h.removes key (hremoves key hkey),
    ?target, ?alone, ?guarded, ?fresh⟩
  case target =>
    intro key snap slot hsnap hget
    obtain ⟨old, hold, hvalue, hoptions⟩ := hrest.kept _ slot hget
    rw [hvalue, hoptions]
    exact h.target key snap old (hduty hsnap) hold
  case alone =>
    exact fun key key' snap snap' hsnap hsnap' => h.alone key key' snap snap' (hduty hsnap)
      (hduty hsnap')
  case guarded =>
    intro key slot v hget hvalue htokens
    obtain ⟨old, hold, hsame, hoptions⟩ := hrest.kept key slot hget
    rcases h.guarded key old v hold (hsame.symm.trans hvalue) (hoptions ▸ htokens) with
      ⟨key', snap, hsnap | ⟨e, he, hwaits⟩, rfl⟩ | hscheduled | hkey
    · obtain ⟨pollSlot, hpoll, hpollValue⟩ := hsnap
      rcases hpolls key' pollSlot snap hpoll hpollValue with hstays | ⟨e, he, hekey, heslot,
        hreason⟩ | hnone | hkey
      · obtain ⟨slot', hslot'⟩ := Option.isSome_iff_exists.1 hstays
        obtain ⟨old', hold', hsame', -⟩ := hrest.kept key' slot' hslot'
        rw [hpoll] at hold'
        cases hold'
        exact .inl ⟨key', snap, .inl ⟨slot', hslot', hsame'.trans hpollValue⟩, rfl⟩
      · refine .inl ⟨key', snap, .inr ⟨e, ?_, hekey, heslot ▸ hpollValue, hreason⟩, rfl⟩
        rw [hwaiting]
        exact List.mem_append_left _ he
      · rw [hnone] at hget
        cases hget
      · exact .inr (.inr hkey)
    · refine .inl ⟨key', snap, .inr ⟨e, ?_, hwaits⟩, rfl⟩
      rw [hwaiting]
      exact List.mem_append_right _ he
    · rcases hdone key hscheduled with hstill | hnone
      · exact .inr (.inl hstill)
      · rw [hnone] at hget
        cases hget
    · exact .inr (.inr hkey)
  case fresh =>
    intro key hkey
    obtain ⟨honly, hnone⟩ := h.fresh key hkey
    refine ⟨fun slot hget => ?_, fun key' snap hsnap => hnone key' snap (hduty hsnap)⟩
    obtain ⟨old, hold, hvalue, hoptions⟩ := hrest.kept key slot hget
    rw [hvalue, hoptions]
    exact honly old hold

/-- An entry need not be asked any more. If it is a snapshot that has expired, what it guards is due
to be removed. -/
theorem forget {e : Evicted Entry (Poller W)}
    (h : Polled Made due fresh only c (.consult e :: tasks)) (hdue : ∀ key, due key → due' key)
    (hgone : ∀ snap, e.slot.value = .poll snap → due' snap.configKey) :
    Polled Made due' fresh only c tasks := by
  have hduty : ∀ {key snap}, OnDuty c tasks key snap → OnDuty c (.consult e :: tasks) key snap :=
    fun h => h.imp_right fun ⟨e', he', hwaits⟩ => ⟨e', List.mem_cons_of_mem e he', hwaits⟩
  refine ⟨⟨h.linked, h.stored, fun e' he' => h.pending e' (List.mem_cons_of_mem e he')⟩,
    fun key hkey => h.removes key (List.mem_cons_of_mem _ hkey),
    fun key snap slot hsnap => h.target key snap slot (hduty hsnap),
    fun key key' snap snap' hsnap hsnap' => h.alone key key' snap snap' (hduty hsnap)
      (hduty hsnap'), ?_,
    fun key hkey => ⟨(h.fresh key hkey).1, fun key' snap hsnap =>
      (h.fresh key hkey).2 key' snap (hduty hsnap)⟩⟩
  intro key slot v hget hvalue htokens
  rcases h.guarded key slot v hget hvalue htokens with
    ⟨key', snap, hstored | ⟨e', he', hwaits⟩, rfl⟩ | hscheduled | hkey
  · exact .inl ⟨key', snap, .inl hstored, rfl⟩
  · rcases List.mem_cons.1 he' with rfl | he'
    · exact .inr (.inr (hgone snap hwaits.2.1))
    · exact .inl ⟨key', snap, .inr ⟨e', he', hwaits⟩, rfl⟩
  · exact .inr (.inl ((List.mem_cons.1 hscheduled).resolve_left nofun))
  · exact .inr (.inr (hdue key hkey))

/-- What is due to be removed is scheduled for it. -/
theorem schedule (h : Polled Made due' fresh only c tasks) {also : List String}
    (halso : ∀ key ∈ also, ¬PollerKey key) (hdue : ∀ key, due' key → due key ∨ key ∈ also) :
    Polled Made due fresh only c (also.map .remove ++ tasks) := by
  have hwaiting := Session.waitingEntries_removes also tasks
  have hduty : ∀ {key snap}, OnDuty c (also.map .remove ++ tasks) key snap ↔
      OnDuty c tasks key snap := by
    intro key snap
    unfold OnDuty
    rw [hwaiting]
  refine ⟨hwaiting ▸ h.toHolds, fun key hkey => ?_,
    fun key snap slot hsnap => h.target key snap slot (hduty.1 hsnap),
    fun key key' snap snap' hsnap hsnap' => h.alone key key' snap snap' (hduty.1 hsnap)
      (hduty.1 hsnap'), ?_,
    fun key hkey => ⟨(h.fresh key hkey).1, fun key' snap hsnap =>
      (h.fresh key hkey).2 key' snap (hduty.1 hsnap)⟩⟩
  · rcases List.mem_append.1 hkey with hkey | hkey
    · obtain ⟨_, hmem, ⟨⟩⟩ := List.mem_map.1 hkey
      exact halso key hmem
    · exact h.removes key hkey
  · intro key slot v hget hvalue htokens
    rcases h.guarded key slot v hget hvalue htokens with ⟨key', snap, hsnap, hkey⟩ | hmem | hkey
    · exact .inl ⟨key', snap, hduty.2 hsnap, hkey⟩
    · exact .inr (.inl (List.mem_append_right _ hmem))
    · rcases hdue key hkey with hkey | hmem
      · exact .inr (.inr hkey)
      · exact .inr (.inl (List.mem_append_left _ (List.mem_map_of_mem hmem)))

/-- An entry is put in under a key that is free. If it is a snapshot, it comes on duty. -/
theorem link (h : Polled Made due' fresh only c tasks) (hfree : c.entries.get? key = none)
    (now : Instant)
    (hparents : ∀ parent ∈ options.keys, parent ≠ key ∧ (c.entries.get? parent).isSome = true)
    (hshaped : Shaped key value options)
    (hnone : ∀ key' snap, OnDuty c tasks key' snap → snap.configKey ≠ key)
    (hpoll : ∀ snap, value = .poll snap → ¬fresh snap.configKey ∧
      (∀ slot, c.entries.get? snap.configKey = some slot →
        ∃ v, slot.value = .config v ∧ slot.options.tokens = [] ∧ Made snap.configKey v snap) ∧
      ∀ key' snap', OnDuty c tasks key' snap' → snap'.configKey = snap.configKey → key' = key)
    (hconfig : ∀ v, value = .config v → options.tokens = [] → due key)
    (hdue : ∀ key', due' key' → due key' ∨ ∃ snap, value = .poll snap ∧ snap.configKey = key')
    (honly : fresh key → only value options) :
    Polled Made due fresh only (c.link now key value options) tasks := by
  have hduty : ∀ {key' snap}, OnDuty (c.link now key value options) tasks key' snap ↔
      key' = key ∧ value = .poll snap ∨ OnDuty c tasks key' snap :=
    onDuty_link_iff hfree now value options
  have hother : ∀ snap, value = .poll snap → snap.configKey ≠ key := by
    rintro snap hvalue heq
    have hbeside := hshaped.poll snap hvalue
    exact (heq ▸ hbeside.partials).not_pollerKey hbeside.pollerKey
  refine ⟨⟨h.linked.link now value options hfree hparents, ?stored, h.pending⟩, h.removes, ?target,
    ?alone, ?guarded, ?fresh⟩
  case stored =>
    intro other slot hget
    rcases Cache.get?_of_get?_link hget with ⟨rfl, rfl⟩ | ⟨-, hget⟩
    · exact hshaped
    · exact h.stored other slot hget
  case target =>
    intro key' snap slot hsnap hget
    rcases hduty.1 hsnap with ⟨rfl, hvalue⟩ | hsnap
    · rw [Cache.get?_link, if_neg (hother snap hvalue)] at hget
      exact (hpoll snap hvalue).2.1 slot hget
    · rw [Cache.get?_link, if_neg (hnone key' snap hsnap)] at hget
      exact h.target key' snap slot hsnap hget
  case alone =>
    intro key₁ key₂ snap₁ snap₂ hsnap₁ hsnap₂ hsame
    rcases hduty.1 hsnap₁ with ⟨heq₁, hvalue₁⟩ | hold₁ <;>
      rcases hduty.1 hsnap₂ with ⟨heq₂, hvalue₂⟩ | hold₂
    · exact heq₁.trans heq₂.symm
    · exact heq₁.trans ((hpoll snap₁ hvalue₁).2.2 key₂ snap₂ hold₂ hsame.symm).symm
    · exact ((hpoll snap₂ hvalue₂).2.2 key₁ snap₁ hold₁ hsame).trans heq₂.symm
    · exact h.alone key₁ key₂ snap₁ snap₂ hold₁ hold₂ hsame
  case guarded =>
    intro other slot v hget hvalue htokens
    rcases Cache.get?_of_get?_link hget with ⟨rfl, rfl⟩ | ⟨-, hget⟩
    · exact .inr (.inr (hconfig v hvalue htokens))
    · rcases h.guarded other slot v hget hvalue htokens with ⟨key', snap, hsnap, hkey⟩ | hmem | hkey
      · exact .inl ⟨key', snap, hduty.2 (.inr hsnap), hkey⟩
      · exact .inr (.inl hmem)
      · rcases hdue other hkey with hkey | ⟨snap, hsnap, hkey⟩
        · exact .inr (.inr hkey)
        · exact .inl ⟨key, snap, hduty.2 (.inl ⟨rfl, hsnap⟩), hkey⟩
  case fresh =>
    intro other hother'
    obtain ⟨hstands, hunguarded⟩ := h.fresh other hother'
    refine ⟨fun slot hget => ?_, fun key' snap hsnap => ?_⟩
    · rcases Cache.get?_of_get?_link hget with ⟨rfl, rfl⟩ | ⟨-, hget⟩
      · exact honly hother'
      · exact hstands slot hget
    · rcases hduty.1 hsnap with ⟨rfl, hvalue⟩ | hsnap
      · rintro rfl
        exact (hpoll snap hvalue).1 hother'
      · exact hunguarded key' snap hsnap

/-! ## What happens to a cache -/

theorem removes_of_consults {evicted : List (Evicted Entry (Poller W))} {key : String}
    (h : .remove key ∈ evicted.map .consult ++ tasks) : .remove key ∈ tasks :=
  (List.mem_append.1 h).resolve_left fun hmem => by
    obtain ⟨_, -, ⟨⟩⟩ := List.mem_map.1 hmem

/-- A snapshot leaves with another entry only if what it guards does. -/
theorem stays_or_orphan (h : Polled Made due fresh only c tasks)
    {d : Cache.Detached Entry (Poller W)} (hd : c.detach key = some d) {other : String}
    {slot : Slot Entry (Poller W)} (hget : c.entries.get? other = some slot)
    (hvalue : slot.value = .poll snap) (hne : other ≠ key) :
    (d.cache.entries.get? other).isSome = true ∨ d.cache.entries.get? snap.configKey = none := by
  cases htarget : d.cache.entries.get? snap.configKey with
  | none => exact .inr rfl
  | some above =>
    left
    rw [Cache.survives_detach h.linked.toConsistent hd hne hget]
    · rfl
    · rw [((h.stored other slot hget).poll snap hvalue).keys]
      intro parent hparent
      rw [List.mem_singleton.1 hparent, htarget]
      rfl

/-- A place is cleared. -/
theorem cleared (h : Polled Made due fresh only c tasks)
    (hkey : ∀ slot snap, c.entries.get? key = some slot → slot.value = .poll snap →
      due snap.configKey) :
    Polled Made due fresh only (c.cleared key).1
      ((c.cleared key).2.1.map .consult ++ tasks) := by
  refine h.thin (.cleared h.linked key) (Session.waitingEntries_consults ..)
    (fun e he => (Cache.was_stored_of_cleared h.linked key e he).1)
    (fun _ => removes_of_consults) (fun _ hmem => .inl (List.mem_append_right _ hmem)) ?_
  intro other slot snap hget hvalue
  cases hd : c.detach key with
  | none =>
    rw [Cache.cleared_of_none hd, hget]
    exact .inl rfl
  | some d =>
    rw [Cache.cleared_of_some hd]
    by_cases hne : other = key
    · subst hne
      exact .inr (.inr (.inr (hkey slot snap hget hvalue)))
    · exact (h.stays_or_orphan hd hget hvalue hne).imp_right fun hnone => .inr (.inl hnone)

/-- When a place has been cleared no snapshot is on duty for it. -/
theorem unguarded_of_cleared (h : Polled Made due fresh only c [])
    {key' : String} (hduty : OnDuty (c.cleared key).1 ((c.cleared key).2.1.map .consult) key' snap)
    (hcleared : Polled Made due fresh only (c.cleared key).1
      ((c.cleared key).2.1.map .consult)) : snap.configKey ≠ key := by
  rintro rfl
  rcases hduty with ⟨slot, hget, hvalue⟩ | ⟨e, he, -, -, hreason⟩
  · exact hcleared.linked.not_dependsOn_of_none (Cache.get?_cleared_self h.linked _) _
      (hcleared.dependsOn hget hvalue)
  · rw [Session.waitingEntries_map_consult] at he
    rw [(Cache.was_stored_of_cleared h.linked _ e he).2] at hreason
    cases hreason

/-- An entry that is no snapshot is put in, when no task is left. -/
theorem place_plain (h : Polled Made due fresh only c []) (hkey : ¬PollerKey key) (now : Instant)
    (signals : Signals) (hpoll : ∀ snap, value ≠ .poll snap) (hconfig : ∀ v, value ≠ .config v)
    (honly : fresh key → only value options) :
    let p := c.place now signals key value options
    Polled Made due fresh only p.cache (p.evicted.map .consult) := by
  have hcleared : Polled Made due fresh only (c.cleared key).1
      ((c.cleared key).2.1.map .consult) := by
    have hcleared := h.cleared fun slot snap hget hvalue =>
      absurd ((h.stored key slot hget).poll snap hvalue).pollerKey hkey
    rwa [List.append_nil] at hcleared
  exact Cache.place_cases
    (P := fun rest evicted _ => Polled Made due fresh only rest (evicted.map .consult))
    h.linked now signals key value options (fun _ => hcleared) fun hparents hfree =>
      hcleared.link hfree now hparents ⟨fun snap hsnap => absurd hsnap (hpoll snap)⟩
        (fun _ _ hduty => h.unguarded_of_cleared hduty hcleared)
        (fun snap hsnap => absurd hsnap (hpoll snap)) (fun v hv => absurd hv (hconfig v))
        (fun _ => .inl) honly

/-- Partials are put in. What stands under their key from then on is known, and no snapshot is on
duty for them. -/
theorem place_config (h : Polled Made (fun _ => False) (fun _ => False) only c [])
    (hkey : PartialsKey key) (now : Instant) (signals : Signals) (v : GroupConfig)
    (options : Options (Poller W)) :
    let p := c.place now signals key (.config v) options
    Polled Made (· = key) (· = key)
      (fun value options' => p.stored = true ∧ value = .config v ∧ options' = options) p.cache
        (p.evicted.map .consult) := by
  have hcleared : Polled Made (· = key) (fun _ => False) only (c.cleared key).1
      ((c.cleared key).2.1.map .consult) := by
    have hcleared := h.cleared fun slot snap hget hvalue =>
      absurd ((h.stored key slot hget).poll snap hvalue).pollerKey hkey.not_pollerKey
    rw [List.append_nil] at hcleared
    exact hcleared.with_fresh (fun _ => False.elim) fun _ => False.elim
  have hrest : Polled Made (· = key) (fun _ => False) only c [] :=
    h.with_fresh (fun _ => False.elim) fun _ => False.elim
  have hnone : ∀ key' snap,
      OnDuty (c.cleared key).1 ((c.cleared key).2.1.map .consult) key' snap →
        snap.configKey ≠ key :=
    fun _ _ hduty => hrest.unguarded_of_cleared hduty hcleared
  refine Cache.place_cases (P := fun rest evicted stored => Polled Made (· = key) (· = key)
    (fun value options' => stored = true ∧ value = .config v ∧ options' = options) rest
      (evicted.map .consult)) h.linked now signals key (.config v) options
    (fun _ => hcleared.with_fresh (fun _ => .inl) ?_) fun hparents hfree => ?_
  · rintro _ rfl
    refine ⟨fun slot hget => ?_, hnone⟩
    rw [Cache.get?_cleared_self h.linked] at hget
    cases hget
  · have hlinked : Polled Made (· = key) (fun _ => False) only
        ((c.cleared key).1.link now key (.config v) options)
        ((c.cleared key).2.1.map .consult) :=
      hcleared.link hfree now hparents ⟨nofun⟩ hnone nofun (fun _ _ _ => rfl) (fun _ => .inl)
        False.elim
    refine hlinked.with_fresh (fun _ => .inl) ?_
    rintro _ rfl
    refine ⟨fun slot hget => ?_, fun key' snap hduty => ?_⟩
    · rw [Cache.get?_link, if_pos rfl] at hget
      cases hget
      exact ⟨rfl, rfl, rfl⟩
    · exact hnone key' snap (((onDuty_link_iff hfree ..).1 hduty).resolve_left nofun)

/-- A snapshot comes on duty for partials that are due to be guarded, or they are not there. -/
theorem place_poll (h : Polled Made due' fresh only c tasks) (now : Instant) (signals : Signals)
    (hbeside : snap.Beside key options)
    (halone : ∀ key' snap', OnDuty c tasks key' snap' → snap'.configKey = snap.configKey →
      key' = key)
    (htarget : ∀ slot, c.entries.get? snap.configKey = some slot →
      ∃ v, slot.value = .config v ∧ slot.options.tokens = [] ∧ Made snap.configKey v snap)
    (hfresh : ∀ key', fresh key' → PartialsKey key' ∧ key' ≠ snap.configKey)
    (hdue' : due' snap.configKey)
    (hdue : ∀ key', due' key' → due key' ∨ key' = snap.configKey) :
    let p := c.place now signals key (.poll snap) options
    Polled Made due fresh only p.cache (p.evicted.map .consult ++ tasks) := by
  have hne : snap.configKey ≠ key := by
    rintro rfl
    exact hbeside.partials.not_pollerKey hbeside.pollerKey
  have hthin := Cache.Thinned.cleared h.linked key
  have hbefore : ∀ slot snap', c.entries.get? key = some slot → slot.value = .poll snap' →
      due' snap'.configKey := by
    intro slot snap' hget hvalue
    obtain ⟨serial', hkey'⟩ := ((h.stored key slot hget).poll snap' hvalue).key
    obtain ⟨serial, hkey⟩ := hbeside.key
    rw [← KeySpace.poller_injective (hkey.symm.trans hkey')]
    exact hdue'
  have hcleared := h.cleared hbefore
  refine Cache.place_cases (P := fun rest evicted _ => Polled Made due fresh only rest
    (evicted.map .consult ++ tasks)) h.linked now signals key (.poll snap) options
    (fun hrefuses => ?_) fun hparents hfree => ?_
  · refine hcleared.with_fresh (fun key' hkey' => (hdue key' hkey').imp_right ?_) hcleared.fresh
    rintro rfl slot hget
    -- It hangs off one key, which is not its own, and off no token: only that key can be missing.
    unfold Cache.refuses at hrefuses
    rw [hbeside.keys, hbeside.tokens] at hrefuses
    have hnone : (c.cleared key).1.entries.get? snap.configKey = none := by
      simpa [hne] using hrefuses
    rw [hnone] at hget
    cases hget
  · refine hcleared.link hfree now hparents ⟨?_⟩ ?_ ?_ nofun ?_ ?_
    · rintro _ ⟨⟩
      exact hbeside
    · rintro key' snap' hduty rfl
      obtain ⟨_, hbeside'⟩ := hcleared.beside hduty
      exact hbeside'.partials.not_pollerKey hbeside.pollerKey
    · rintro _ ⟨⟩
      refine ⟨fun hmem => (hfresh _ hmem).2 rfl, fun slot hget => ?_,
        fun key' snap' hduty => halone key' snap' ?_⟩
      · obtain ⟨old, hold, hvalue, hoptions⟩ := hthin.kept _ slot hget
        rw [hvalue, hoptions]
        exact htarget old hold
      · exact hduty.of_thin hthin (Session.waitingEntries_consults ..)
          fun e he => (Cache.was_stored_of_cleared h.linked key e he).1
    · exact fun key' hkey' => (hdue key' hkey').imp_right fun heq => ⟨snap, rfl, heq.symm⟩
    · exact fun hkey => absurd hbeside.pollerKey (hfresh key hkey).1.not_pollerKey

/-- The hook of an expired snapshot puts it back. -/
theorem renewed {e : Evicted Entry (Poller W)}
    (h : Polled Made due fresh only c (.consult e :: tasks))
    (hfresh : ∀ key, fresh key → PartialsKey key) (now : Instant) (signals : Signals)
    (p : Poller W) (hvalue : e.slot.value = .poll snap) (hreason : e.reason = .expired) :
    let placed := c.place now signals e.key (.poll snap) (p.options now snap.configKey)
    Polled Made due fresh only placed.cache (placed.evicted.map .consult ++ tasks) := by
  have hbeside := (h.pending e List.mem_cons_self).poll snap hvalue
  have hduty : OnDuty c (.consult e :: tasks) e.key snap :=
    .inr ⟨e, List.mem_cons_self, rfl, hvalue, hreason⟩
  have hforgotten : Polled Made (fun key => due key ∨ key = snap.configKey) fresh only c tasks :=
    h.forget (fun _ => .inl) fun snap' hsnap' => by
      rw [hvalue] at hsnap'
      cases hsnap'
      exact .inr rfl
  refine hforgotten.place_poll now signals ⟨hbeside.partials, hbeside.key, rfl, rfl, nofun⟩
    (fun key' snap' hother hsame => h.alone key' e.key snap' snap ?_ hduty hsame)
    (h.target e.key snap · hduty)
    (fun key hkey => ⟨hfresh key hkey, fun heq =>
      (h.fresh key hkey).2 e.key snap hduty heq.symm⟩)
    (.inr rfl) fun _ hkey => hkey
  exact hother.imp_right fun ⟨e', he', hwaits⟩ => ⟨e', List.mem_cons_of_mem e he', hwaits⟩

/-- A scheduled removal is done. What is removed is no snapshot. -/
theorem detached (h : Polled Made due fresh only c (.remove key :: tasks))
    {d : Cache.Detached Entry (Poller W)} (hd : c.detach key = some d) :
    Polled Made due fresh only d.cache (d.evicted.map .consult ++ tasks) := by
  refine h.thin (.detach h.linked hd) (Session.waitingEntries_consults ..)
    (Cache.was_stored_of_detach h.linked.toConsistent hd)
    (fun _ hmem => List.mem_cons_of_mem _ (removes_of_consults hmem)) (fun other hmem => ?_)
    fun other slot snap hget hvalue => ?_
  · rcases List.mem_cons.1 hmem with heq | hmem
    · cases heq
      exact .inr (Cache.get?_detach_self h.linked.toConsistent hd)
    · exact .inl (List.mem_append_right _ hmem)
  · refine (h.stays_or_orphan hd hget hvalue ?_).imp_right fun hnone => .inr (.inl hnone)
    rintro rfl
    exact h.removes _ List.mem_cons_self ((h.stored _ slot hget).poll snap hvalue).pollerKey

/-- Entries stay, and tasks are done that have nothing to do. -/
theorem stay (h : Polled Made due fresh only c tasks) (hrest : c.Thinned rest)
    (hwaiting : waitingEntries tasks' = waitingEntries tasks)
    (hremoves : ∀ key, .remove key ∈ tasks' → .remove key ∈ tasks)
    (hdone : ∀ key, .remove key ∈ tasks → .remove key ∈ tasks' ∨ rest.entries.get? key = none)
    (hstays : ∀ key, (rest.entries.get? key).isSome = (c.entries.get? key).isSome) :
    Polled Made due fresh only rest tasks' := by
  have hnone : waitingEntries tasks' = [] ++ waitingEntries tasks := hwaiting
  refine h.thin hrest hnone nofun hremoves hdone fun key slot snap hget _ => ?_
  rw [hstays, hget]
  exact .inl rfl

/-- A sweep takes out snapshots that have expired, or what they guard. -/
theorem sweep (h : Polled Made due fresh only c []) (now : Instant) (signals : Signals) :
    Polled Made due fresh only (c.sweep now signals).1
      ((c.sweep now signals).2.map .consult) := by
  have hloses := Cache.loses_evictEach h.linked (c.doomed now signals)
  have hwaiting := Session.waitingEntries_map_consult (c.sweep now signals).2
  refine h.thin (.sweep h.linked now signals) (by rw [hwaiting]; exact (List.append_nil _).symm)
    hloses.was_stored (fun key hmem => ?_) nofun fun key slot snap hget hvalue => ?_
  · rw [← List.append_nil (List.map _ _)] at hmem
    exact removes_of_consults hmem
  · have hbeside := (h.stored key slot hget).poll snap hvalue
    rcases hloses.kept_or_gone key slot hget with hkept | ⟨e, he, rfl, rfl⟩
    · refine .inl ?_
      change ((c.evictEach (c.doomed now signals)).1.entries.get? key).isSome = true
      rw [hkept]
      rfl
    · rcases Cache.doomed_or_orphan h.linked e he with hdoomed | ⟨parent, hparent, hnone⟩
      · obtain ⟨slot, hslot, hdoom⟩ := (Cache.mem_doomed h.linked.distinct).1 hdoomed
        rw [hget] at hslot
        cases hslot
        refine .inr (.inl ⟨e, he, rfl, rfl, ?_⟩)
        unfold Slot.doom? Slot.hasFired at hdoom
        rw [hbeside.tokens, List.any_nil, if_neg Bool.false_ne_true] at hdoom
        split at hdoom
        · exact (Option.some.inj hdoom).symm
        · cases hdoom
      · rw [hbeside.keys, List.mem_singleton] at hparent
        rw [hparent] at hnone
        exact .inr (.inr (.inl hnone))

end Polled

/-- A hook that does not put an entry back lets go of it, and has what a snapshot guards removed. -/
theorem Poller.of_release {p : Poller W} {now : Instant} {key : String} {reason : Reason}
    {scene : Scene W} {also : List String}
    (h : ((Poller.moment now).decide p key value reason scene).1 = .remove also) :
    (∃ snap, value = .poll snap ∧ also = [snap.configKey]) ∨
      (∀ snap, value ≠ .poll snap) ∧ also = [] := by
  cases value with
  | poll snap =>
    refine .inl ⟨snap, rfl, ?_⟩
    cases reason with
    | dependencyChanged =>
      cases h
      rfl
    | expired =>
      change ((snap.isUnchanged p.source p.extension >>= fun same =>
        if same = true then _ else _ : Act W _) scene).1 = _ at h
      rw [bind_apply] at h
      split at h
      · cases h
      · cases h
        rfl
  | global | config | compiled | missing =>
    cases h
    exact .inr ⟨nofun, rfl⟩

/-- **The guard of partials is upheld.** -/
theorem upheld_polled (now : Instant) (hfresh : ∀ key, fresh key → PartialsKey key) :
    Upheld (Poller.moment now) (Polled Made due fresh only) (fun _ => True) where
  silent c e tasks h hhook := by
    refine h.forget (fun _ => id) fun snap hvalue => ?_
    exact absurd hhook ((h.pending e List.mem_cons_self).poll snap hvalue).hook
  released c e tasks hook scene also h _ hanswer := by
    rcases Poller.of_release hanswer with ⟨snap, hvalue, rfl⟩ | ⟨hnone, rfl⟩
    · have hforgotten : Polled Made (fun key => due key ∨ key = snap.configKey) fresh only c
          tasks := h.forget (fun _ => .inl) fun snap' hsnap' => by
        rw [hvalue] at hsnap'
        cases hsnap'
        exact .inr rfl
      have hpartials := ((h.pending e List.mem_cons_self).poll snap hvalue).partials
      refine hforgotten.schedule (fun key hkey => ?_) fun key hkey =>
        Or.imp_right List.mem_singleton.2 hkey
      rw [List.mem_singleton.1 hkey]
      exact hpartials.not_pollerKey
    · exact h.forget (fun _ => id) fun snap hvalue => absurd hvalue (hnone snap)
  renewed c e tasks hook scene signals value options h _ hanswer := by
    obtain ⟨snap, hvalue, hreason, rfl, rfl⟩ := Poller.of_reinsert hanswer
    exact h.renewed hfresh now signals hook hvalue hreason
  absent c key tasks h hd := by
    refine h.stay (.of_kept h.linked fun _ _ => id) rfl (fun _ => List.mem_cons_of_mem _)
      (fun other hmem => ?_) fun _ => rfl
    rcases List.mem_cons.1 hmem with heq | hmem
    · cases heq
      exact .inr (Cache.detach_eq_none hd)
    · exact .inl hmem
  detached c key d tasks h hd := h.detached hd
  decide _ _ _ _ _ _ _ _ := trivial
  sweep c signals h := h.sweep now signals
  touch c key h :=
    h.stay (.touch h.linked now key) rfl (fun _ => id) nofun (c.isSome_get?_touch now key)
  dropAll c h := by
    have hnone : waitingEntries ([] : List (Task Entry (Poller W))) = [] ++ waitingEntries [] := rfl
    exact h.thin (.dropAll c) hnone nofun (fun _ => id) nofun
      fun _ _ _ _ _ => .inr (.inr (.inl rfl))

end Polled

end Templating
