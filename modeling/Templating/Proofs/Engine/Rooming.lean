import Templating.Proofs.Engine.House

/-!
# What one engine of a house makes of the cache

`House.Sound` is what holds of the shared session at any time: an entry of an engine depends on
entries of the same engine only, and its tokens are watched in its own room, or have fired. What an
engine can come to know of the cache is its outlook, where a token stands for the path at which it
is watched (`House.seen`).

The operations on a cache and on a room are gone through once, each done for one engine while the
others look on (`House.Beside`): what it makes of the outlook of this engine is told by the outlook,
and the others see no difference.
-/

namespace Templating.House

variable {ι : Type} {spaces : ι ↪ { k : KeySpace // k.ColonFree }} {i j : ι} {now : Instant}

/-! ## Zones and tokens -/

/-- The keys of an engine. -/
abbrev zone (spaces : ι ↪ { k : KeySpace // k.ColonFree }) (i : ι) (key : String) : Prop :=
  (spaces i).1.Owns key

theorem zone_unique {key : String} (h : zone spaces i key) (h' : zone spaces j key) : i = j := by
  refine spaces.injective (Subtype.ext ?_)
  rcases h with rfl | ⟨g, p, rfl⟩ <;> rcases h' with h' | ⟨g', p', h'⟩
  · exact KeySpace.global_injective h'
  · exact absurd h' (KeySpace.global_ne_path_of (spaces i).2 (spaces j).2 _ _)
  · exact absurd h'.symm (KeySpace.global_ne_path_of (spaces j).2 (spaces i).2 _ _)
  · exact (KeySpace.path_eq_path (spaces i).2 (spaces j).2 h').1

/-- Who watches what in a room. -/
def watching (rooms : Rooms ι) (i : ι) : List (String × Token) := (rooms i).memory.watchers

/-- The path at which a token is watched. -/
def mark (watchers : List (String × Token)) (t : Token) : Option String :=
  (watchers.find? fun w => w.2 == t).map Prod.fst

/-- Every token is watched in one room and at one path, until it fires. -/
structure Orderly (scene : Scene (Rooms ι)) : Prop where
  push : ∀ i, (scene.world i).memory.push = true
  kept : ∀ i, (scene.world i).memory.orphans = []
  unique : ∀ i j p q t, (p, t) ∈ watching scene.world i → (q, t) ∈ watching scene.world j →
    i = j ∧ p = q
  unfired : ∀ i p t, (p, t) ∈ watching scene.world i → scene.signals.hasFired t = false
  issued : ∀ i p t, (p, t) ∈ watching scene.world i → t.id < scene.signals.issued
  past : ∀ t, scene.signals.hasFired t = true → t.id < scene.signals.issued

theorem Orderly.mark_eq_some_iff {scene : Scene (Rooms ι)} (h : Orderly scene) {t : Token}
    {p : String} : mark (watching scene.world i) t = some p ↔ (p, t) ∈ watching scene.world i := by
  unfold mark
  rw [Option.map_eq_some_iff]
  constructor
  · rintro ⟨⟨q, u⟩, hfind, rfl⟩
    have hmem := List.mem_of_find?_eq_some hfind
    have heq : u = t := by simpa using List.find?_some hfind
    exact heq ▸ hmem
  · intro hmem
    have hsome : ((watching scene.world i).find? fun w => w.2 == t).isSome = true :=
      List.find?_isSome.2 ⟨(p, t), hmem, by simp⟩
    obtain ⟨⟨q, u⟩, hfind⟩ := Option.isSome_iff_exists.1 hsome
    obtain rfl : u = t := by simpa using List.find?_some hfind
    exact ⟨_, hfind, (h.unique i i q p u (List.mem_of_find?_eq_some hfind) hmem).2⟩

/-! ## Sound sessions -/

/-- What the entries of engines are like, when these tokens have fired and those are watched. -/
structure Belongs (spaces : ι ↪ { k : KeySpace // k.ColonFree }) (fired : List Token)
    (watchers : ι → List (String × Token)) (key : String) (value : Entry)
    (options : Options (Poller (Rooms ι))) : Prop where
  hook : options.hook = none
  keys : ∀ i, zone spaces i key → ∀ parent ∈ options.keys, zone spaces i parent
  root : ∀ i, key = (spaces i).1.global → options = {}
  tokens : ∀ i, zone spaces i key → ∀ t ∈ options.tokens, t ∈ fired ∨ ∃ path, (path, t) ∈ watchers i

variable (spaces) in
/-- What holds of the shared session at any time. -/
structure Sound (now : Instant) (s : Common ι) : Prop
    extends Session.Tidy (Belongs spaces s.scene.signals.fired (watching s.scene.world)) now s,
      Orderly s.scene

theorem confined {fired : List Token} {watchers : ι → List (String × Token)} (i : ι) :
    Session.Confined (Belongs spaces fired watchers) (zone spaces i) :=
  fun _ _ _ h => h.keys i

variable (spaces) in
/-- What an engine can come to know of the cache. -/
def seen (s : Common ι) (now : Instant) (i : ι) : Outlook Entry (Option String) :=
  s.outlook now (mark (watching s.scene.world i)) (zone spaces i)

variable (spaces) in
/-- What was done for an engine left the session sound, and nothing else has changed for the others,
as far as they can see. -/
structure Beside (i : ι) (now : Instant) (s t : Common ι) : Prop where
  sound : Sound spaces now t
  epoch : t.cache.epoch = s.cache.epoch
  rooms : ∀ j, j ≠ i → t.scene.world j = s.scene.world j
  others : ∀ j, j ≠ i → seen spaces t now j = seen spaces s now j

variable {s t : Common ι} {key : String}

theorem Orderly.congr {scene scene' : Scene (Rooms ι)} (h : Orderly scene)
    (hpush : ∀ i, (scene'.world i).memory.push = (scene.world i).memory.push)
    (hkept : ∀ i, (scene'.world i).memory.orphans = (scene.world i).memory.orphans)
    (hwatching : watching scene'.world = watching scene.world)
    (hissued : scene'.signals.issued = scene.signals.issued)
    (hfired : scene'.signals.fired = scene.signals.fired) : Orderly scene' := by
  have htold : ∀ t, scene'.signals.hasFired t = scene.signals.hasFired t := fun t => by
    unfold Signals.hasFired
    rw [hfired]
  constructor
  · exact fun i => (hpush i).trans (h.push i)
  · exact fun i => (hkept i).trans (h.kept i)
  · rw [hwatching]
    exact h.unique
  · simp only [hwatching, htold]
    exact h.unfired
  · rw [hwatching, hissued]
    exact h.issued
  · simp only [htold, hissued]
    exact h.past

theorem Belongs.mono {fired fired' : List Token} {watchers watchers' : ι → List (String × Token)}
    {value : Entry} {options : Options (Poller (Rooms ι))}
    (h : Belongs spaces fired watchers key value options) (hfired : ∀ t ∈ fired, t ∈ fired')
    (hwatchers : ∀ i p t, (p, t) ∈ watchers i → t ∈ fired' ∨ (p, t) ∈ watchers' i) :
    Belongs spaces fired' watchers' key value options where
  hook := h.hook
  keys := h.keys
  root := h.root
  tokens i hkey t ht := by
    rcases h.tokens i hkey t ht with hold | ⟨p, hp⟩
    · exact .inl (hfired t hold)
    · exact (hwatchers i p t hp).imp_right fun hp => ⟨p, hp⟩

/-- **The scene has become another**, in which those who were told of a token still are. -/
theorem Sound.of_scene (h : Sound spaces now s) {scene : Scene (Rooms ι)} (horderly : Orderly scene)
    (hleads : s.scene.signals.Leads scene.signals)
    (hwatching : ∀ i p t, (p, t) ∈ watching s.scene.world i →
      t ∈ scene.signals.fired ∨ (p, t) ∈ watching scene.world i) :
    Sound spaces now { s with scene } := by
  refine ⟨⟨⟨h.linked, fun key slot hget => ?_, nofun⟩, ?_, h.silent⟩, horderly⟩
  · refine (h.stored key slot hget).mono (fun t ht => ?_) hwatching
    have hfired := hleads.hasFired (t := t) (by simpa [Signals.hasFired] using ht)
    simpa [Signals.hasFired] using hfired
  · exact h.watchful.later (Nat.le_refl now) fun _ => hleads.tells

/-- **The cache was used** for an engine. -/
theorem Sound.beside (h : Sound spaces now s) (hunmoved : s.Unmoved t)
    (htidy : t.Tidy (Belongs spaces s.scene.signals.fired (watching s.scene.world)) now)
    (hothers : ∀ j, j ≠ i → t.outlook now (mark (watching s.scene.world j)) (zone spaces j) =
      seen spaces s now j) : Beside spaces i now s t where
  sound := by
    refine ⟨?_, h.toOrderly.congr (by simp [hunmoved.world]) (by simp [hunmoved.world])
      (by rw [hunmoved.world])
      hunmoved.issued hunmoved.fired⟩
    rw [hunmoved.fired, hunmoved.world]
    exact htidy
  epoch := hunmoved.epoch
  rooms j _ := by rw [hunmoved.world]
  others j hj := by
    unfold seen
    rw [hunmoved.world]
    exact hothers j hj

/-! ## Using the cache -/

/-- **A read** of a key of the engine. -/
theorem Sound.get (h : Sound spaces now s) (hkey : zone spaces i key) :
    let r := Session.get (Poller.moment now) key s
    Beside spaces i now s r.2 ∧ r.2.scene.world = s.scene.world ∧
    seen spaces r.2 now i = (seen spaces s now i).touch key (s.cache.millis now) ∧
    ∀ value, r.1 = some value ↔ ∃ sight, seen spaces s now i key sight ∧ sight.value = value := by
  have hget := fun j => h.toTidy.get (m := Poller.moment now) (mark (watching s.scene.world j))
    (zone spaces j) key
  obtain ⟨htidy, hunmoved, houtlook, hanswer⟩ := hget i
  refine ⟨h.beside hunmoved htidy fun j hj => ?_, hunmoved.world, ?_, hanswer hkey⟩
  · exact (hget j).2.2.1.trans (Outlook.touch_of_not
      (fun sight hsight => hj (zone_unique hsight.1 hkey)) _)
  · unfold seen
    rw [hunmoved.world]
    exact houtlook

/-- **An insertion** under a key of the engine, with tokens that are watched in its room. -/
theorem Sound.insert (h : Sound spaces now s) (hkey : zone spaces i key) (value : Entry)
    (options : Options (Poller (Rooms ι))) (hhook : options.hook = none)
    (hkeys : ∀ parent ∈ options.keys, zone spaces i parent)
    (hroot : key = (spaces i).1.global → options = {})
    (htokens : ∀ t ∈ options.tokens, ∃ path, (path, t) ∈ watching s.scene.world i) :
    let t := (Session.insert (Poller.moment now) key value options s).2
    Beside spaces i now s t ∧ t.scene.world = s.scene.world ∧
    seen spaces t now i = ((seen spaces s now i).drop key).put key
      (Slot.sight (mark (watching s.scene.world i)) ⟨value, options, s.cache.millis now⟩)
      s.cache.epoch now := by
  have hnew : Belongs spaces s.scene.signals.fired (watching s.scene.world) key value options := by
    refine ⟨hhook, fun j hj => ?_, fun j hj => ?_, fun j hj => ?_⟩
    · rw [zone_unique hj hkey]
      exact hkeys
    · obtain rfl : j = i := zone_unique (hj ▸ (spaces j).1.owns_global) hkey
      exact hroot hj
    · rw [zone_unique hj hkey]
      exact fun t ht => .inr (htokens t ht)
  have hfired : ∀ t ∈ options.tokens, s.scene.signals.hasFired t = false := by
    intro t ht
    obtain ⟨path, hpath⟩ := htokens t ht
    exact h.unfired i path t hpath
  have hinsert := fun j => h.toTidy.insert (m := Poller.moment now)
    (mark (watching s.scene.world j)) (zone spaces j) hnew hhook hfired
  obtain ⟨htidy, hunmoved, hput, -⟩ := hinsert i
  refine ⟨h.beside hunmoved htidy fun j hj => ?_, hunmoved.world, ?_⟩
  · exact (hinsert j).2.2.2 (confined j) fun hj' => hj (zone_unique hj' hkey)
  · unfold seen
    rw [hunmoved.world]
    exact hput (confined i) hkey

/-- **A removal** of a key of the engine. -/
theorem Sound.remove (h : Sound spaces now s) (hkey : zone spaces i key) :
    let t := (Session.remove (Poller.moment now) key s).2
    Beside spaces i now s t ∧ t.scene.world = s.scene.world ∧
    seen spaces t now i = (seen spaces s now i).drop key := by
  have hremove := fun j => h.toTidy.remove (m := Poller.moment now)
    (mark (watching s.scene.world j)) (zone spaces j) key
  obtain ⟨htidy, hunmoved, hdrop⟩ := hremove i
  refine ⟨h.beside hunmoved htidy fun j hj => ?_, hunmoved.world, ?_⟩
  · exact ((hremove j).2.2 (confined j)).trans (Cache.drop_outlook_of_not h.linked
      (h.toTidy.closed (confined j)) fun hj' => hj (zone_unique hj' hkey))
  · unfold seen
    rw [hunmoved.world]
    exact hdrop (confined i)

/-- The entry that all others hang off depends on nothing, so it is sturdy when it is there. -/
theorem Sound.contains_global (h : Sound spaces now s) :
    s.contains (Poller.moment now) (spaces i).1.global = true ↔
      ∃ sight, seen spaces s now i (spaces i).1.global sight := by
  refine Iff.trans ?_ Cache.exists_outlook_iff.symm
  rw [and_iff_right (spaces i).1.owns_global]
  constructor
  · intro hcontains
    refine Cache.sturdy_iff.2 ⟨hcontains, fun parent hdep => ?_⟩
    obtain ⟨slot, hget, -⟩ := Cache.contains_iff.1 hcontains
    have hroot := (h.stored _ slot hget).root i rfl
    rw [h.linked.recorded _ slot hget, hroot] at hdep
    cases hdep
  · exact fun hsturdy => hsturdy.contains

/-! ## Calls -/

/-- The marks of an entry stay as long as the tokens that it holds are watched where they were. -/
theorem sight_congr {scene scene' : Scene (Rooms ι)} (h : Orderly scene) (h' : Orderly scene')
    {slot : Slot Entry (Poller (Rooms ι))} (hslot : ∀ t ∈ slot.options.tokens, ∃ p,
      (p, t) ∈ watching scene.world i ∧ (p, t) ∈ watching scene'.world i) :
    slot.sight (mark (watching scene'.world i)) = slot.sight (mark (watching scene.world i)) := by
  unfold Slot.sight
  congr 1
  refine List.map_congr_left fun t ht => ?_
  obtain ⟨p, hp, hp'⟩ := hslot t ht
  rw [h.mark_eq_some_iff.2 hp, h'.mark_eq_some_iff.2 hp']

/-- The tokens of a live entry are watched in the room of its engine. -/
theorem Sound.watched_of_live (h : Sound spaces now s) {slot : Slot Entry (Poller (Rooms ι))}
    (hkey : zone spaces i key) (hget : s.cache.entries.get? key = some slot)
    (hfired : slot.hasFired s.scene.signals = false) :
    ∀ t ∈ slot.options.tokens, ∃ p, (p, t) ∈ watching s.scene.world i := by
  intro t ht
  refine ((h.stored key slot hget).tokens i hkey t ht).resolve_left fun hmem => ?_
  have : s.scene.signals.hasFired t = false := by
    simpa using List.any_eq_false.1 hfired t ht
  simp [Signals.hasFired, hmem] at this

section Rooms

variable [DecidableEq ι] {path : String}

theorem watching_noted (i : ι) (kind : Call) (path : String) (scene : Scene (Rooms ι)) :
    watching (noted i kind path scene).world = watching scene.world := by
  funext j
  by_cases hj : j = i
  · subst hj
    simp [watching, noted]
  · simp [watching, noted, hj]

/-- **A call** that asks for files is only noted. -/
theorem Sound.noted (h : Sound spaces now s) (i : ι) (kind : Call) (path : String) :
    let t : Common ι := { s with scene := House.noted i kind path s.scene }
    Beside spaces i now s t ∧ seen spaces t now i = seen spaces s now i ∧
    watching t.scene.world = watching s.scene.world := by
  intro t
  have hwatching : watching t.scene.world = watching s.scene.world :=
    watching_noted i kind path s.scene
  have hpush : ∀ j, (t.scene.world j).memory.push = (s.scene.world j).memory.push := by
    intro j
    by_cases hj : j = i
    · subst hj
      simp [t, House.noted]
    · simp [t, House.noted, hj]
  have hkept : ∀ j, (t.scene.world j).memory.orphans = (s.scene.world j).memory.orphans := by
    intro j
    by_cases hj : j = i
    · subst hj
      simp [t, House.noted]
    · simp [t, House.noted, hj]
  have hseen : ∀ j, seen spaces t now j = seen spaces s now j := by
    intro j
    unfold seen
    rw [hwatching]
    rfl
  refine ⟨⟨?_, rfl, fun j hj => Function.update_of_ne hj .., fun j _ => hseen j⟩, hseen i,
    hwatching⟩
  exact h.of_scene (h.toOrderly.congr hpush hkept hwatching rfl rfl) (.refl _)
    fun i p t hp => .inr (hwatching ▸ hp)

theorem Orderly.mem_watched {scene : Scene (Rooms ι)} (h : Orderly scene) (i j : ι)
    (path p : String) (t : Token) : (p, t) ∈ watching (House.watched i path scene).world j ↔
      (j = i ∧ p = path ∧ t = scene.signals.issueToken.1) ∨ (p, t) ∈ watching scene.world j := by
  by_cases hj : j = i
  · subst hj
    simp [watching, House.watched, Memory.attended_of_no_orphans (h.kept j)]
  · simp [watching, House.watched, hj]

/-- **A token is handed out**, which nobody has had before. -/
theorem Sound.watched (h : Sound spaces now s) (i : ι) (path : String) :
    let t : Common ι := { s with scene := House.watched i path s.scene }
    Beside spaces i now s t ∧ seen spaces t now i = seen spaces s now i := by
  intro t
  have hnew : ∀ j p, (p, s.scene.signals.issueToken.1) ∉ watching s.scene.world j := fun j p hp =>
    Nat.lt_irrefl _ (h.issued j p _ hp)
  have hmem : ∀ {j p u}, (p, u) ∈ watching t.scene.world j ↔
      (j = i ∧ p = path ∧ u = s.scene.signals.issueToken.1) ∨ (p, u) ∈ watching s.scene.world j :=
    h.toOrderly.mem_watched ..
  have horderly : Orderly t.scene := by
    refine ⟨fun j => ?_, fun j => ?_, fun j j' p q u hp hq => ?_, fun j p u hp => ?_,
      fun j p u hp => ?_, fun u hu => Nat.lt_succ_of_lt (h.past u hu)⟩
    · by_cases hj : j = i
      · subst hj
        simpa [t, House.watched] using h.push j
      · simpa [t, House.watched, hj] using h.push j
    · by_cases hj : j = i
      · subst hj
        simp [t, House.watched]
      · simpa [t, House.watched, hj] using h.kept j
    · rcases hmem.1 hp with ⟨rfl, rfl, rfl⟩ | hold
      · rcases hmem.1 hq with ⟨rfl, rfl, -⟩ | hold'
        · exact ⟨rfl, rfl⟩
        · exact absurd hold' (hnew j' q)
      · rcases hmem.1 hq with ⟨rfl, rfl, rfl⟩ | hold'
        · exact absurd hold (hnew j p)
        · exact h.unique j j' p q u hold hold'
    · rcases hmem.1 hp with ⟨-, -, rfl⟩ | hp
      · exact Bool.eq_false_iff.2 fun hfired => Nat.lt_irrefl _ (h.past _ hfired)
      · exact h.unfired j p u hp
    · rcases hmem.1 hp with ⟨-, -, rfl⟩ | hp
      · exact Nat.lt_succ_self _
      · exact Nat.lt_succ_of_lt (h.issued j p u hp)
  have hseen : ∀ j, seen spaces t now j = seen spaces s now j := by
    intro j
    refine Cache.outlook_congr h.linked (h.toTidy.closed (confined j)) (fun _ _ _ _ => rfl) ?_
    intro key slot hkey hget hlive
    refine sight_congr h.toOrderly horderly fun u hu => ?_
    obtain ⟨p, hp⟩ := h.watched_of_live hkey hget (Slot.isLive_eq_true.1 hlive).2 u hu
    exact ⟨p, hp, hmem.2 (.inr hp)⟩
  refine ⟨⟨h.of_scene horderly (.issueToken (.refl _)) fun j p u hp => .inr (hmem.2 (.inr hp)), rfl,
    fun j hj => Function.update_of_ne hj .., fun j _ => hseen j⟩, hseen i⟩

/-! ## Changes of files -/

theorem mem_watching_changed {scene : Scene (Rooms ι)} {files : List (String × String)} {p : String}
    {t : Token} : (p, t) ∈ watching (changed i path files scene).world j ↔
      (p, t) ∈ watching scene.world j ∧ (j = i → covers p path = false) := by
  by_cases hj : j = i
  · subst hj
    simp [watching, changed]
  · simp [watching, changed, hj]

theorem hasFired_changed {scene : Scene (Rooms ι)} {files : List (String × String)} {t : Token} :
    (changed i path files scene).signals.hasFired t = true ↔
      (∃ p, (p, t) ∈ watching scene.world i ∧ covers p path = true) ∨
        scene.signals.hasFired t = true := by
  refine (Signals.hasFired_foldl_fire ..).trans (or_congr_left ?_)
  simp [watching]

theorem Orderly.changed {scene : Scene (Rooms ι)} (h : Orderly scene) (i : ι) (path : String)
    (files : List (String × String)) : Orderly (House.changed i path files scene) := by
  have hmem : ∀ {j p u}, (p, u) ∈ watching (House.changed i path files scene).world j →
      (p, u) ∈ watching scene.world j := fun hp => (mem_watching_changed.1 hp).1
  have hissued : (House.changed i path files scene).signals.issued = scene.signals.issued :=
    Signals.issued_foldl_fire _ _
  refine ⟨fun j => ?_, fun j => ?_, fun j j' p q u hp hq => h.unique j j' p q u (hmem hp) (hmem hq),
    fun j p u hp => ?_, fun j p u hp => ?_, fun u hu => ?_⟩
  · by_cases hj : j = i
    · subst hj
      simpa [House.changed] using h.push j
    · simpa [House.changed, hj] using h.push j
  · by_cases hj : j = i
    · subst hj
      simpa [House.changed] using h.kept j
    · simpa [House.changed, hj] using h.kept j
  · rw [Bool.eq_false_iff, Ne, hasFired_changed]
    rintro (⟨q, hq, hcovers⟩ | hfired)
    · obtain ⟨rfl, rfl⟩ := h.unique j i p q u (hmem hp) hq
      rw [(mem_watching_changed.1 hp).2 rfl] at hcovers
      cases hcovers
    · rw [h.unfired j p u (hmem hp)] at hfired
      cases hfired
  · rw [hissued]
    exact h.issued j p u (hmem hp)
  · rw [hissued]
    rcases hasFired_changed.1 hu with ⟨p, hp, -⟩ | hfired
    · exact h.issued i p u hp
    · exact h.past u hfired

/-- An entry stays live when files change, unless it holds a token that is watched there. -/
theorem Sound.isLive_changed (h : Sound spaces now s) {files : List (String × String)}
    {slot : Slot Entry (Poller (Rooms ι))} (hkey : zone spaces j key)
    (hget : s.cache.entries.get? key = some slot) :
    slot.isLive s.cache.epoch now (House.changed i path files s.scene).signals = true ↔
      slot.isLive s.cache.epoch now s.scene.signals = true ∧ (j = i → ¬∃ p,
        some p ∈ (slot.sight (mark (watching s.scene.world j))).marks ∧ covers p path = true) := by
  rw [Slot.isLive_eq_true, Slot.isLive_eq_true, and_assoc, Slot.hasFired_eq_false,
    Slot.hasFired_eq_false]
  refine and_congr_right fun _ => ⟨fun hafter => ⟨fun u hu => ?_, ?_⟩, fun hboth u hu => ?_⟩
  · exact Bool.eq_false_iff.2 fun hfired =>
      Bool.eq_false_iff.1 (hafter u hu) (hasFired_changed.2 (.inr hfired))
  · rintro rfl ⟨p, hp, hcovers⟩
    obtain ⟨u, hu, hmark⟩ := List.mem_map.1 hp
    exact Bool.eq_false_iff.1 (hafter u hu)
      (hasFired_changed.2 (.inl ⟨p, h.mark_eq_some_iff.1 hmark, hcovers⟩))
  · obtain ⟨hlive, hspared⟩ := hboth
    rw [Bool.eq_false_iff, Ne, hasFired_changed]
    rintro (⟨p, hp, hcovers⟩ | hfired)
    · -- The token is watched in one room only, and there at one path.
      obtain ⟨q, hq⟩ := h.watched_of_live hkey hget (Slot.hasFired_eq_false.2 hlive) u hu
      obtain ⟨rfl, rfl⟩ := h.unique j i q p u hq hp
      exact hspared rfl ⟨q, List.mem_map.2 ⟨u, hu, h.mark_eq_some_iff.2 hq⟩, hcovers⟩
    · exact Bool.eq_false_iff.1 (hlive u hu) hfired

/-- What stays live looks as it did. -/
theorem Sound.sight_changed (h : Sound spaces now s) {files : List (String × String)}
    {slot : Slot Entry (Poller (Rooms ι))} (hkey : zone spaces j key)
    (hget : s.cache.entries.get? key = some slot)
    (hlive : slot.isLive s.cache.epoch now (House.changed i path files s.scene).signals = true) :
    slot.sight (mark (watching (House.changed i path files s.scene).world j)) =
      slot.sight (mark (watching s.scene.world j)) := by
  obtain ⟨hbefore, hspared⟩ := (h.isLive_changed hkey hget).1 hlive
  refine sight_congr h.toOrderly (h.toOrderly.changed i path files) fun u hu => ?_
  obtain ⟨p, hp⟩ := h.watched_of_live hkey hget (Slot.isLive_eq_true.1 hbefore).2 u hu
  refine ⟨p, hp, mem_watching_changed.2 ⟨hp, fun heq => Bool.eq_false_iff.2 fun hcovers => ?_⟩⟩
  exact hspared heq ⟨p, List.mem_map.2 ⟨u, hu, h.mark_eq_some_iff.2 hp⟩, hcovers⟩

/-- **Files change at a path.** What of the engine's is watched there is no longer seen, with what
leans on it. -/
theorem Sound.changed (h : Sound spaces now s) (i : ι) (path : String)
    (files : List (String × String)) :
    let t : Common ι := { s with scene := House.changed i path files s.scene }
    Beside spaces i now s t ∧ seen spaces t now i = (seen spaces s now i).decay
      fun sight => ∃ p, some p ∈ sight.marks ∧ covers p path = true := by
  intro t
  have hsound : Sound spaces now t := by
    refine h.of_scene (h.toOrderly.changed i path files) (Signals.leads_foldl_fire ..)
      fun j p u hp => ?_
    by_cases htold : t.scene.signals.hasFired u = true
    · exact .inl (by simpa [Signals.hasFired] using htold)
    · refine .inr (mem_watching_changed.2 ⟨hp, ?_⟩)
      rintro rfl
      exact Bool.eq_false_iff.2 fun hcovers => htold (hasFired_changed.2 (.inl ⟨p, hp, hcovers⟩))
  refine ⟨⟨hsound, rfl, fun j hj => Function.update_of_ne hj .., fun j hj => ?_⟩, ?_⟩
  · -- The tokens that others hold are watched in other rooms, where nobody was told.
    refine Cache.outlook_congr h.linked (h.toTidy.closed (confined j))
      (fun key slot hkey hget => ?_) fun key slot hkey hget => h.sight_changed hkey hget
    rw [Bool.eq_iff_iff, h.isLive_changed hkey hget]
    exact and_iff_left fun heq => absurd heq hj
  · refine Cache.outlook_decay h.linked (h.toTidy.closed (confined i))
      (fun key slot hkey hget => ?_) fun key slot hkey hget => h.sight_changed hkey hget
    exact (h.isLive_changed hkey hget).trans (and_congr_right fun _ => forall_prop_of_true rfl)

end Rooms

/-! ## Time passes -/

/-- **Time passes** for all. -/
theorem Sound.later (h : Sound spaces now s) (time : Duration) :
    Sound spaces (now + time) s ∧ ∀ i, seen spaces s (now + time) i = (seen spaces s now i).decay
      fun sight => sight.isExpired s.cache.epoch (now + time) = true := by
  have hle : now ≤ now + time := Nat.le_add_right ..
  refine ⟨⟨⟨h.toHolds, h.watchful.later hle fun _ ht => ht, h.silent⟩, h.toOrderly⟩, fun i => ?_⟩
  refine Cache.outlook_decay h.linked (h.toTidy.closed (confined i)) (fun key slot _ _ => ?_)
    fun _ _ _ _ _ => rfl
  rw [Slot.isLive_eq_true, Slot.isLive_eq_true, Slot.isExpired_sight, Bool.not_eq_true]
  constructor
  · rintro ⟨hafter, hfired⟩
    refine ⟨⟨?_, hfired⟩, hafter⟩
    rw [Slot.isExpired_eq_false] at hafter ⊢
    exact fun deadline hdeadline => Nat.lt_of_le_of_lt hle (hafter deadline hdeadline)
  · rintro ⟨⟨-, hfired⟩, hafter⟩
    exact ⟨hafter, hfired⟩

end Templating.House
