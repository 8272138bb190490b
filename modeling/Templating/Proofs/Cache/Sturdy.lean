import Templating.Proofs.Cache.Eviction
import Templating.Proofs.Cache.Latest

/-!
# What a read finds

An entry that is live may depend on one that is not, as long as nothing was purged since. A read
purges first, so it finds an entry only if all that the entry depends on is live too: the entry is
then **sturdy**. The tests `contains` and `insertIfAbsent` do not purge and look at the entry alone.

`Commons.get_isSome_iff_sturdy` says of caches without hooks what each of them answers, and so where
they differ; `contains_outlived` is a run after which they do. After a purge all entries are sturdy,
and the answers are the same until time passes or a token fires.
-/

namespace Templating

open Relation

namespace Slot

variable {V C : Type}

theorem isLive_eq_true {slot : Slot V C} {epoch now : Instant} {signals : Signals} :
    slot.isLive epoch now signals = true ↔
      slot.isExpired epoch now = false ∧ slot.hasFired signals = false := by
  simp [isLive]

/-- An entry that is not live is expired or holds a token that has fired. -/
theorem not_isLive {slot : Slot V C} {epoch now : Instant} {signals : Signals} :
    ¬slot.isLive epoch now signals = true ↔
      slot.isExpired epoch now = true ∨ slot.hasFired signals = true := by
  rw [isLive_eq_true, not_and_or, Bool.not_eq_false, Bool.not_eq_false]

end Slot

namespace Cache

variable {V C : Type} {c : Cache V C} {now : Instant} {signals : Signals} {key parent : String}
  {slot : Slot V C}

theorem contains_iff : c.contains now signals key = true ↔
    ∃ slot, c.entries.get? key = some slot ∧ slot.isLive c.epoch now signals = true :=
  Option.any_eq_true ..

/-! ## Sturdy entries -/

/-- A live entry is stored under the key, and whatever it depends on, directly or through others, is
stored and live. -/
def Sturdy (c : Cache V C) (now : Instant) (signals : Signals) (key : String) : Prop :=
  ∀ other, ReflTransGen c.DependsOn key other → c.contains now signals other = true

namespace Sturdy

theorem contains (h : c.Sturdy now signals key) : c.contains now signals key = true := h key .refl

theorem of_dependsOn (h : c.Sturdy now signals key) (hdep : c.DependsOn key parent) :
    c.Sturdy now signals parent :=
  fun other hother => h other (.head hdep hother)

theorem isLive (h : c.Sturdy now signals key) (hget : c.entries.get? key = some slot) :
    slot.isLive c.epoch now signals = true := by
  obtain ⟨slot', hget', hlive⟩ := contains_iff.1 h.contains
  rw [hget] at hget'
  cases hget'
  exact hlive

end Sturdy

/-- Sturdy is what is live and depends on sturdy entries. -/
theorem sturdy_iff : c.Sturdy now signals key ↔ c.contains now signals key = true ∧
    ∀ parent, c.DependsOn key parent → c.Sturdy now signals parent := by
  constructor
  · exact fun h => ⟨h.contains, fun _ => h.of_dependsOn⟩
  · rintro ⟨hlive, hparents⟩ other hother
    rcases ReflTransGen.cases_head_iff.1 hother with rfl | ⟨parent, hdep, hrest⟩
    · exact hlive
    · exact hparents parent hdep other hrest

/-- Where every entry is live, what is stored is sturdy. -/
theorem Linked.sturdy_of_isLive (h : c.Linked) (hlive : ∀ key slot,
    c.entries.get? key = some slot → slot.isLive c.epoch now signals = true)
    (hget : (c.entries.get? key).isSome = true) : c.Sturdy now signals key := by
  intro other hother
  obtain ⟨slot, hslot⟩ := Option.isSome_iff_exists.1 (h.stored_of_dependsOn hget hother)
  exact contains_iff.2 ⟨slot, hslot, hlive other slot hslot⟩

/-- An entry that is not sturdy depends on one that is not live, or is that itself. -/
theorem Linked.not_sturdy (h : c.Linked) (hget : (c.entries.get? key).isSome = true) :
    ¬c.Sturdy now signals key ↔ ∃ root slot, c.entries.get? root = some slot ∧
      (slot.isExpired c.epoch now = true ∨ slot.hasFired signals = true) ∧
      ReflTransGen c.DependsOn key root := by
  constructor
  · intro hnot
    unfold Sturdy at hnot
    push Not at hnot
    obtain ⟨root, hreaches, hdead⟩ := hnot
    obtain ⟨slot, hslot⟩ := Option.isSome_iff_exists.1 (h.stored_of_dependsOn hget hreaches)
    refine ⟨root, slot, hslot, Slot.not_isLive.1 fun hlive => hdead ?_, hreaches⟩
    exact contains_iff.2 ⟨slot, hslot, hlive⟩
  · rintro ⟨root, slot, hslot, hdue, hreaches⟩ hsturdy
    obtain ⟨slot', hslot', hlive⟩ := contains_iff.1 (hsturdy root hreaches)
    rw [hslot] at hslot'
    cases hslot'
    exact Slot.not_isLive.2 hdue hlive

/-- **A sweep leaves what is sturdy**, and changes nothing about it. -/
theorem get?_sweep (h : c.Linked) : (c.sweep now signals).1.entries.get? key = some slot ↔
    c.entries.get? key = some slot ∧ c.Sturdy now signals key := by
  have htakes := ((evictsEach_evictEach c (c.doomed now signals)).takesOut h (.refl h)).1
  refine (htakes.entries key slot).trans (and_congr_right fun hget => ?_)
  rw [← h.not_sturdy (by rw [hget]; rfl), not_not]

end Cache

/-! ## Without hooks -/

namespace Session

variable {V C W : Type} {m : Moment V C W} {s : Session V C W} {key : String}

/-- The scene when evicted entries without hooks have been counted. -/
def countOff (scene : Scene W) (evicted : List (Evicted V C)) : Scene W :=
  evicted.foldl (fun scene e => scene.note (.evicted e.key e.reason.cause)) scene

@[simp] theorem signals_countOff (scene : Scene W) (evicted : List (Evicted V C)) :
    (countOff scene evicted).signals = scene.signals := by
  induction evicted generalizing scene with
  | nil => rfl
  | cons e evicted ih => exact ih _

@[simp] theorem world_countOff (scene : Scene W) (evicted : List (Evicted V C)) :
    (countOff scene evicted).world = scene.world := by
  induction evicted generalizing scene with
  | nil => rfl
  | cons e evicted ih => exact ih _

/-- Where no entry has a hook, nothing is asked and nothing more happens. -/
theorem consultAll_silent {evicted : List (Evicted V C)}
    (h : ∀ e ∈ evicted, e.slot.options.hook = none) :
    consultAll m s evicted = { s with scene := countOff s.scene evicted } := by
  unfold consultAll
  induction evicted generalizing s with
  | nil => exact settle_nil m s
  | cons e evicted ih =>
    rw [List.map_cons, settle_cons, attend_silent (h e List.mem_cons_self), List.nil_append,
      ih fun e' he' => h e' (List.mem_cons_of_mem e he')]
    rfl

/-- No entry of the cache has a hook. -/
def Silent (c : Cache V C) : Prop :=
  ∀ key slot, c.entries.get? key = some slot → slot.options.hook = none

theorem Silent.evicted {c : Cache V C} (h : Silent c) {evicted : List (Evicted V C)}
    (hstored : ∀ e ∈ evicted, c.entries.get? e.key = some e.slot) :
    ∀ e ∈ evicted, e.slot.options.hook = none :=
  fun e he => h e.key e.slot (hstored e he)

/-- A purge of a cache without hooks is a sweep. -/
theorem purge_silent (h : Silent s.cache) (hlinked : s.cache.Linked) :
    (purge m s).2.cache = (s.cache.sweep m.now (s.scene.signals.lower s.cache.flag)).1 ∧
      (purge m s).2.scene.signals = s.scene.signals.lower s.cache.flag := by
  have hstored := (Cache.loses_evictEach hlinked
    (s.cache.doomed m.now (s.scene.signals.lower s.cache.flag))).was_stored
  have hsilent := consultAll_silent (m := m) (s := s.swept m) (h.evicted hstored)
  constructor
  · exact congrArg Session.cache hsilent
  · exact (congrArg (fun s => s.scene.signals) hsilent).trans (signals_countOff ..)

/-- What is stored after a purge that asks no hooks: what was sturdy. -/
theorem get?_purge_silent (h : Silent s.cache) (hlinked : s.cache.Linked) {slot : Slot V C} :
    (purge m s).2.cache.entries.get? key = some slot ↔
      s.cache.entries.get? key = some slot ∧ s.cache.Sturdy m.now s.scene.signals key := by
  rw [(purge_silent h hlinked).1]
  exact Cache.get?_sweep hlinked

/-- The second half of a read finds what `contains` sees. -/
theorem isSome_look (m : Moment V C W) (key : String) (s : Session V C W) :
    (look m key s).1.isSome = s.contains m key := by
  unfold look Session.contains Cache.contains
  cases hget : s.cache.entries.get? key with
  | none => rfl
  | some slot =>
    by_cases hlive : slot.isLive s.cache.epoch m.now s.scene.signals = true <;> simp [hlive]

/-- **A read finds what is sturdy**, if it purges first. -/
theorem isSome_look_purge (h : Silent s.cache) (hlinked : s.cache.Linked) :
    (look m key (purge m s).2).1.isSome = true ↔
      s.cache.Sturdy m.now s.scene.signals key := by
  obtain ⟨hcache, hsignals⟩ := purge_silent (m := m) h hlinked
  have hepoch : (purge m s).2.cache.epoch = s.cache.epoch := by
    rw [hcache]
    exact (Cache.loses_evictEach hlinked _).epoch
  rw [isSome_look, Session.contains, Cache.contains_iff]
  constructor
  · rintro ⟨slot, hget, -⟩
    exact ((get?_purge_silent h hlinked).1 hget).2
  · intro hsturdy
    obtain ⟨slot, hget, hlive⟩ := Cache.contains_iff.1 hsturdy.contains
    refine ⟨slot, (get?_purge_silent h hlinked).2 ⟨hget, hsturdy⟩, ?_⟩
    rw [hepoch, hsignals]
    exact hlive

/-- **A read finds what is sturdy**, whether it purges first or need not. -/
theorem isSome_get (h : Silent s.cache) (hlinked : s.cache.Linked)
    (hwatchful : s.cache.Watchful m.now s.scene.signals) :
    (get m key s).1.isSome = true ↔ s.cache.Sturdy m.now s.scene.signals key := by
  rw [get_eq_look]
  unfold maintain
  cases hdue : s.cache.mayBeDue m.now s.scene.signals with
  | true => exact isSome_look_purge h hlinked
  | false =>
    -- Every entry is live, so the test of one entry tells enough.
    rw [if_neg Bool.false_ne_true, isSome_look]
    refine ⟨fun hcontains => ?_, Cache.Sturdy.contains⟩
    obtain ⟨slot, hget, -⟩ := Cache.contains_iff.1 hcontains
    exact hlinked.sturdy_of_isLive (fun _ _ => hwatchful.isLive_of_not_mayBeDue hdue)
      (by rw [hget]; rfl)

end Session

namespace Commons

variable {ι V W : Type} [DecidableEq ι]

/-- **What the tests of a key answer**, at any moment of any run of caches without hooks. A read
answers with a value if the entry is sturdy. The two tests that do not purge look at the entry
alone: `contains` says whether it is live, and `insertIfAbsent` then does nothing, and otherwise
inserts. So a read that finds an entry is never contradicted by them, and they see an entry that a
read does not find when it is live but depends on one that is not, which no purge has taken out yet.
After a purge such as a read begins with, the tests see what a read finds. -/
theorem get_isSome_iff_sturdy (decide : Decisions V Empty W) (flags : ι ↪ Flag)
    (epochs : ι → Instant) (now : Instant) (scene : Scene W) (moves : List (Move ι V Empty W))
    (i : ι) (key : String) :
    let σ := (start flags epochs now scene).run decide moves
    let m := σ.moment decide
    let s := σ.session i
    let found := (Session.get m key s).1
    (found.isSome = true ↔ s.cache.Sturdy m.now s.scene.signals key) ∧
    (s.contains m key = true ↔ ∃ slot, s.cache.entries.get? key = some slot ∧
      slot.isExpired s.cache.epoch m.now = false ∧ slot.hasFired s.scene.signals = false) ∧
    (∀ value options, Session.insertIfAbsent m key value options s =
      if s.contains m key then (false, s) else Session.insert m key value options s) ∧
    (s.contains m key = true ∧ found = none ↔ s.contains m key = true ∧
      ∃ root slot, s.cache.entries.get? root = some slot ∧
        (slot.isExpired s.cache.epoch m.now = true ∨ slot.hasFired s.scene.signals = true) ∧
        TransGen s.cache.DependsOn key root) ∧
    (found.isSome = true → s.contains m key = true) ∧
    (s.maintain m).contains m key = found.isSome := by
  intro σ m s found
  let hooks : Hooks V Empty W := ⟨decide, fun _ hook => nomatch hook⟩
  have hwatched := watched_run hooks flags epochs now scene moves
  have hlinked : s.cache.Linked := hwatched.linked i
  have hsilent : Session.Silent s.cache := fun _ slot _ =>
    match slot.options.hook with
    | none => rfl
    | some hook => nomatch hook
  have hfound : found.isSome = true ↔ s.cache.Sturdy m.now s.scene.signals key :=
    Session.isSome_get hsilent hlinked (hwatched.watchful i)
  refine ⟨hfound, ?_, fun _ _ => rfl, ?_, fun h => (hfound.1 h).contains, ?_⟩
  · exact Cache.contains_iff.trans (by simp only [Slot.isLive_eq_true])
  · refine and_congr_right fun hcontains => ?_
    obtain ⟨slot, hget, hlive⟩ := Cache.contains_iff.1 hcontains
    have hnone : found = none ↔ ¬s.cache.Sturdy m.now s.scene.signals key := by
      rw [← hfound, Bool.not_eq_true, Option.isSome_eq_false_iff, Option.isNone_iff_eq_none]
    rw [hnone, hlinked.not_sturdy (by rw [hget]; rfl)]
    refine exists_congr fun root => exists_congr fun slot' => and_congr_right fun hroot =>
      and_congr_right fun hdue => ⟨fun hreaches => ?_, TransGen.to_reflTransGen⟩
    -- The entry itself is live, so the one that is not is another.
    rcases reflTransGen_iff_eq_or_transGen.1 hreaches with rfl | hdep
    · rw [hget] at hroot
      cases hroot
      exact absurd hlive (Slot.not_isLive.2 hdue)
    · exact hdep
  · exact (Session.isSome_look m key (s.maintain m)).symm

/-- A page is put in that is built on a layout, and the layout expires. -/
def outlived : List (Move Unit String Empty Unit) :=
  [.perform () (.insert "layout" "frame" { expiration := .absolute 1000000 }),
    .perform () (.insert "page" "text" { keys := ["layout"] }), .advance 1000000]

/-- One cache without hooks in a scene of its own. -/
def hookless : Commons Unit String Empty Unit :=
  start ⟨fun _ => ⟨0⟩, fun _ _ _ => rfl⟩ (fun _ => 0) 0 { world := () }

/-- **The tests see a page that no read finds**: it is there for `contains`, and nothing is put in
its place by `insertIfAbsent`, though a read answers that there is none. -/
theorem contains_outlived :
    let σ := hookless.run (fun _ hook => nomatch hook) outlived
    let m := σ.moment fun _ hook => nomatch hook
    let s := σ.session ()
    s.contains m "page" = true ∧ (Session.get m "page" s).1 = none ∧
      Session.insertIfAbsent m "page" "new" {} s = (false, s) ∧
      (Session.get m "page" (Session.insertIfAbsent m "page" "new" {} s).2).1 = none := by
  simp [run, outlived, hookless, step, start, session, moment, after, Cache.Request.perform,
    Session.get, Session.maintain, Session.purge, Session.consultAll, Session.settle_cons,
    Session.attend, Session.commit, Session.insert, Session.insertIfAbsent, Session.contains,
    Cache.contains, Cache.mayBeDue, Cache.place, Cache.cleared, Cache.detach, Cache.refuses,
    Cache.link, Cache.sweep, Cache.doomed, Cache.evictEach, Cache.cascade, Cache.nextDeadline,
    Cache.earlier, Cache.hintFor, Cache.millis, Cache.lastHint, Cache.Index.addDependent,
    Cache.Index.dependentsOf, Cache.Index.unregister, Cache.Index.register,
    Cache.Index.dropDependent, Slot.doom?, Slot.hasFired, Slot.isExpired, Slot.isLive,
    Slot.deadline?, Scene.noteIf, Scene.note, Table.get?, Table.put, Table.erase, Table.empty,
    List.lookup_cons, List.eraseDups_cons]

end Commons

end Templating
