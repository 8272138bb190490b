import Templating.Proofs.Cache.Lasting
import Templating.Proofs.Cache.Tidy

/-!
# Between two requests

Right after a purge every entry is live, and as long as neither time passes nor a token fires, this
changes only where entries are put in that are out of date from the start. If these are **leaves**,
entries without a hook on which nothing depends, a purge has no more to do than to drop them. So it
cannot be seen whether there was one, and what is put in or taken out under the key of a leaf
changes nothing elsewhere (`Session.Lull`).

What can be seen under a key is the value that `Session.standing` tells.
-/

namespace Templating

open Relation

/-! ## Leaves -/

namespace Cache

variable {V C : Type} {c : Cache V C} {key other : String}

/-- Nothing leaves together with an entry that nothing depends on. -/
theorem evicted_of_childless (h : c.Consistent) (hchild : ∀ child, ¬c.DependsOn child key)
    {d : Detached V C} (hd : c.detach key = some d) : d.evicted = [] := by
  obtain ⟨-, -, hevicted⟩ := detach_eq_some hd
  have hnone : (c.unlink key).index.dependentsOf key = [] :=
    List.eq_nil_iff_forall_not_mem.2 fun child hmem =>
      hchild child ((mem_dependentsOf_unlink h key child key).1 hmem).2
  rw [hevicted, hnone, cascade]

theorem get?_detach_childless (h : c.Consistent) (hchild : ∀ child, ¬c.DependsOn child key)
    {d : Detached V C} (hd : c.detach key = some d) (hne : other ≠ key) :
    d.cache.entries.get? other = c.entries.get? other := by
  have hloses := loses_detach h hd .expired
  rw [evicted_of_childless h hchild hd] at hloses
  cases hget : c.entries.get? other with
  | none => exact hloses.none_of_none hget
  | some slot =>
    rcases hloses.kept_or_gone other slot hget with hkept | ⟨e, he, hkey, -⟩
    · exact hkept
    · rw [List.mem_singleton.1 he] at hkey
      exact absurd hkey.symm hne

theorem cleared_childless (h : c.Consistent) (hchild : ∀ child, ¬c.DependsOn child key) :
    (c.cleared key).2.1 = [] ∧
      ∀ other, other ≠ key → (c.cleared key).1.entries.get? other = c.entries.get? other := by
  cases hd : c.detach key with
  | none =>
    rw [cleared_of_none hd]
    exact ⟨rfl, fun _ _ => rfl⟩
  | some d =>
    rw [cleared_of_some hd]
    exact ⟨evicted_of_childless h hchild hd, fun _ => get?_detach_childless h hchild hd⟩

/-- To put an entry in under a key that nothing depends on changes nothing under other keys. -/
theorem place_childless (h : c.Linked) (hchild : ∀ child, ¬c.DependsOn child key) (now : Instant)
    (signals : Signals) (value : V) (options : Options C) :
    let p := c.place now signals key value options
    p.evicted = [] ∧
      (∀ other, other ≠ key → p.cache.entries.get? other = c.entries.get? other) := by
  obtain ⟨hevicted, hothers⟩ := cleared_childless h.toConsistent hchild
  unfold place
  simp only
  split
  · exact ⟨hevicted, hothers⟩
  · refine ⟨hevicted, fun other hne => ?_⟩
    rw [get?_link, if_neg hne]
    exact hothers other hne

end Cache

namespace Session

variable {V C W : Type} {m : Moment V C W} {s : Session V C W} {key : String}
  {leaf : String → Prop} {Q : W → Prop} {fired : List Token} {now : Instant}

/-- The value under a key, if the entry is live. -/
def standing (s : Session V C W) (now : Instant) (key : String) : Option V :=
  (s.cache.entries.get? key).bind fun slot =>
    if slot.isLive s.cache.epoch now s.scene.signals then some slot.value else none

/-- Every entry is live, but for leaves: those have no hook, and nothing depends on the keys that
they stand under. -/
structure Lull (leaf : String → Prop) (Q : W → Prop) (fired : List Token) (now : Instant)
    (s : Session V C W) : Prop where
  linked : s.cache.Linked
  barren : ∀ key slot, s.cache.entries.get? key = some slot →
    ∀ parent ∈ slot.options.keys, ¬leaf parent
  quiet : ∀ key slot, s.cache.entries.get? key = some slot →
    slot.isLive s.cache.epoch now s.scene.signals = true ∨ leaf key ∧ slot.options.hook = none
  touched : ∀ key slot, s.cache.entries.get? key = some slot → slot.touched ≤ s.cache.millis now
  world : Q s.scene.world
  fired : s.scene.signals.fired = fired

theorem isLive_congr {a b : Signals} (h : a.fired = b.fired) (slot : Slot V C) (epoch : Instant) :
    slot.isLive epoch now a = slot.isLive epoch now b := by
  unfold Slot.isLive Slot.hasFired Signals.hasFired
  rw [h]

/-- An entry that was read is live if it was before. -/
theorem isLive_touched {old slot : Slot V C} {epoch : Instant} {millis : Nat} {signals : Signals}
    (hle : old.touched ≤ millis) (hoptions : slot.options = old.options)
    (htouched : slot.touched = old.touched ∨ slot.touched = millis)
    (h : old.isLive epoch now signals = true) : slot.isLive epoch now signals = true := by
  rw [Slot.isLive_eq_true] at h ⊢
  obtain ⟨value, options, touched⟩ := slot
  cases hoptions
  rcases htouched with rfl | rfl
  · exact h
  · exact ⟨Slot.isExpired_of_le hle h.1, h.2⟩

theorem standing_eq_some {value : V} : s.standing now key = some value ↔
    ∃ slot, s.cache.entries.get? key = some slot ∧
      slot.isLive s.cache.epoch now s.scene.signals = true ∧ slot.value = value := by
  unfold standing
  cases s.cache.entries.get? key <;> simp

/-- Two sessions in which the same can be seen. -/
def Same (now : Instant) (s s' : Session V C W) : Prop :=
  ∀ key, s'.standing now key = s.standing now key

namespace Lull

variable (h : s.Lull leaf Q fired m.now)

include h

theorem childless (hleaf : leaf key) (child : String) : ¬s.cache.DependsOn child key := by
  intro hdep
  obtain ⟨slot, hslot⟩ := Option.isSome_iff_exists.1
    (h.linked.toConsistent.stored_of_dependsOn hdep)
  exact h.barren child slot hslot key ((h.linked.recorded child slot hslot key).1 hdep) hleaf

theorem not_transGen_leaf (hleaf : leaf key) (other : String) :
    ¬TransGen s.cache.DependsOn other key := by
  intro hdep
  obtain ⟨child, -, hchild⟩ := TransGen.tail'_iff.1 hdep
  exact h.childless hleaf child hchild

/-- What is live depends on nothing that is not. -/
theorem sturdy {slot : Slot V C} (hget : s.cache.entries.get? key = some slot)
    (hlive : slot.isLive s.cache.epoch m.now s.scene.signals = true) :
    s.cache.Sturdy m.now s.scene.signals key := by
  intro other hother
  rcases ReflTransGen.cases_tail hother with rfl | ⟨child, -, hdep⟩
  · exact Cache.contains_iff.2 ⟨slot, hget, hlive⟩
  · obtain ⟨parent, hparent⟩ := Option.isSome_iff_exists.1 (h.linked.parent_stored _ _ hdep)
    refine Cache.contains_iff.2 ⟨parent, hparent, ?_⟩
    exact (h.quiet other parent hparent).resolve_right fun hleaf => h.childless hleaf.1 child hdep

omit h in
/-- Entries may leave. -/
theorem of_kept (h : s.Lull leaf Q fired now) {c : Cache V C} {scene : Scene W}
    (hlinked : c.Linked) (hepoch : c.epoch = s.cache.epoch)
    (hkept : ∀ key slot, c.entries.get? key = some slot → s.cache.entries.get? key = some slot)
    (hworld : Q scene.world) (hfired : scene.signals.fired = s.scene.signals.fired) :
    (⟨c, scene⟩ : Session V C W).Lull leaf Q fired now where
  linked := hlinked
  barren key slot hget := h.barren key slot (hkept key slot hget)
  quiet key slot hget := by
    simp only [hepoch, isLive_congr hfired]
    exact h.quiet key slot (hkept key slot hget)
  touched key slot hget := by
    simp only [Cache.millis, hepoch]
    exact h.touched key slot (hkept key slot hget)
  world := hworld
  fired := hfired.trans h.fired

/-- An entry may be put in that depends on no leaf, and is a leaf or not out of date. -/
theorem place {value : V} {options : Options C} (hkeys : ∀ parent ∈ options.keys, ¬leaf parent)
    (hnew : (⟨value, options, s.cache.millis m.now⟩ : Slot V C).isExpired s.cache.epoch m.now =
      false ∨ leaf key ∧ options.hook = none) :
    (s.commit key (s.cache.place m.now s.scene.signals key value options)).Lull leaf Q fired
      m.now := by
  have hepoch := Cache.epoch_place h.linked key m.now s.scene.signals value options
  have hfired := (fired_place s.cache m.now s.scene.signals key value options).1
  let p := s.cache.place m.now s.scene.signals key value options
  have hget : ∀ {other slot}, p.cache.entries.get? other = some slot →
      other = key ∧ slot = ⟨value, options, s.cache.millis m.now⟩ ∧
        (∀ t ∈ options.tokens, s.scene.signals.hasFired t = false) ∨
      s.cache.entries.get? other = some slot := fun hslot =>
    (Cache.get?_place h.linked key m.now s.scene.signals value options hslot).imp
      (fun hnew => ⟨hnew.1, hnew.2.1, hnew.2.2.2⟩) And.right
  refine ⟨h.linked.place key m.now s.scene.signals value options, fun other slot hslot => ?_,
    fun other slot hslot => ?_, fun other slot hslot => ?_, ?_, ?_⟩
  · rcases hget hslot with ⟨-, rfl, -⟩ | hold
    · exact hkeys
    · exact h.barren other slot hold
  · simp only [signals_commit, isLive_congr hfired]
    change slot.isLive p.cache.epoch m.now s.scene.signals = true ∨ _
    rw [hepoch]
    rcases hget hslot with ⟨rfl, rfl, htokens⟩ | hold
    · exact hnew.imp_left fun hexpired =>
        Slot.isLive_eq_true.2 ⟨hexpired, Slot.hasFired_eq_false.2 htokens⟩
    · exact h.quiet other slot hold
  · change slot.touched ≤ p.cache.millis m.now
    unfold Cache.millis
    rw [hepoch]
    rcases hget hslot with ⟨-, rfl, -⟩ | hold
    · exact Nat.le_refl _
    · exact h.touched other slot hold
  · rw [world_commit]
    exact h.world
  · rw [signals_commit]
    exact hfired.trans h.fired

/-- An entry may be read. -/
theorem touch (key : String) :
    ({ s with cache := s.cache.touch m.now key } : Session V C W).Lull leaf Q fired m.now where
  linked := h.linked.touch m.now key
  barren other slot hslot := by
    obtain ⟨old, hold, -, hoptions, -⟩ := Cache.get?_of_get?_touch hslot
    rw [hoptions]
    exact h.barren other old hold
  quiet other slot hslot := by
    obtain ⟨old, hold, -, hoptions, htouched⟩ := Cache.get?_of_get?_touch hslot
    refine (h.quiet other old hold).imp (fun hlive => ?_) fun hleaf => ⟨hleaf.1, ?_⟩
    · exact isLive_touched (h.touched other old hold) hoptions htouched hlive
    · rw [hoptions]
      exact hleaf.2
  touched other slot hslot := by
    obtain ⟨old, hold, -, -, htouched⟩ := Cache.get?_of_get?_touch hslot
    rcases htouched with htouched | htouched
    · rw [htouched]
      exact h.touched other old hold
    · exact Nat.le_of_eq htouched
  world := h.world
  fired := h.fired

/-- **A purge** drops leaves at most, and asks no hook. -/
theorem purge : (purge m s).2.Lull leaf Q fired m.now ∧ s.Same m.now (Session.purge m s).2 := by
  have hswept : ∀ key slot, (s.swept m).cache.entries.get? key = some slot ↔
      s.cache.entries.get? key = some slot ∧
        slot.isLive s.cache.epoch m.now s.scene.signals = true := by
    intro key slot
    refine (Cache.get?_sweep h.linked).trans (and_congr_right fun hget => ?_)
    exact ⟨fun hsturdy => hsturdy.isLive hget, h.sturdy hget⟩
  have hloses := Cache.loses_evictEach h.linked
    (s.cache.doomed m.now (s.scene.signals.lower s.cache.flag))
  have hsilent : ∀ e ∈ (s.cache.sweep m.now (s.scene.signals.lower s.cache.flag)).2,
      e.slot.options.hook = none := by
    intro e he
    have hstored := hloses.was_stored e he
    refine ((h.quiet e.key e.slot hstored).resolve_left fun hlive => ?_).2
    have hkept := (hswept e.key e.slot).2 ⟨hstored, hlive⟩
    exact absurd (hkept.symm.trans (hloses.is_gone e he)) nofun
  have hpurge : (Session.purge m s).2 = ⟨(s.swept m).cache, countOff (s.swept m).scene
      (s.cache.sweep m.now (s.scene.signals.lower s.cache.flag)).2⟩ :=
    consultAll_silent (m := m) (s := s.swept m) hsilent
  have hepoch : (s.swept m).cache.epoch = s.cache.epoch := hloses.epoch
  have hlive : ∀ (slot : Slot V C), slot.isLive (s.swept m).cache.epoch m.now
      (s.swept m).scene.signals = slot.isLive s.cache.epoch m.now s.scene.signals := by
    intro slot
    rw [hepoch]
    exact isLive_congr rfl slot _
  rw [hpurge]
  refine ⟨h.of_kept (h.linked.sweep m.now _) hepoch (fun key slot hget => ((hswept _ _).1 hget).1)
    ?_ ?_, fun key => Option.ext fun value => ?_⟩
  · rw [world_countOff]
    exact h.world
  · rw [signals_countOff]
    rfl
  · rw [standing_eq_some, standing_eq_some]
    simp only [signals_countOff, hlive, hswept]
    exact exists_congr fun slot => by tauto

omit h in
/-- The scene may become another with the same tokens fired. -/
theorem scene (h : s.Lull leaf Q fired now) (scene : Scene W) (hworld : Q scene.world)
    (hfired : scene.signals.fired = s.scene.signals.fired) :
    ({ s with scene } : Session V C W).Lull leaf Q fired now ∧ s.Same now { s with scene } := by
  have hlive : ∀ slot : Slot V C, slot.isLive s.cache.epoch now scene.signals =
      slot.isLive s.cache.epoch now s.scene.signals := fun slot => isLive_congr hfired slot _
  refine ⟨⟨h.linked, h.barren, fun key slot hget => ?_, h.touched, hworld, hfired.trans h.fired⟩,
    fun key => ?_⟩
  · rw [hlive]
    exact h.quiet key slot hget
  · unfold standing
    simp only [hlive]

theorem maintain : (s.maintain m).Lull leaf Q fired m.now ∧ s.Same m.now (s.maintain m) := by
  unfold Session.maintain
  split
  · exact h.purge
  · exact ⟨h, fun _ => rfl⟩

/-- To read a live entry is to see it live on. -/
theorem same_touch {slot : Slot V C} (hget : s.cache.entries.get? key = some slot)
    (hlive : slot.isLive s.cache.epoch m.now s.scene.signals = true) :
    s.Same m.now { s with cache := s.cache.touch m.now key } := by
  have hlive' : ({ slot with touched := s.cache.millis m.now } : Slot V C).isLive s.cache.epoch
      m.now s.scene.signals = true :=
    isLive_touched (h.touched key slot hget) rfl (.inr rfl) hlive
  intro other
  unfold standing
  change ((s.cache.touch m.now key).entries.get? other).bind _ = _
  rw [Cache.get?_touch]
  split
  · next heq =>
    subst heq
    rw [hget]
    simp only [Option.map_some, Option.bind_some, hlive, if_true]
    exact if_pos hlive'
  · rfl

/-- What a look answers stands under the key. -/
theorem look (key : String) : (Session.look m key s).1 = s.standing m.now key ∧
    (Session.look m key s).2.Lull leaf Q fired m.now ∧ s.Same m.now (Session.look m key s).2 := by
  unfold Session.look standing
  cases hget : s.cache.entries.get? key with
  | none => exact ⟨rfl, h.scene _ h.world rfl⟩
  | some slot =>
    cases hlive : slot.isLive s.cache.epoch m.now s.scene.signals with
    | true =>
      have hsame := h.same_touch hget hlive
      obtain ⟨hnoted, hsame'⟩ := (h.touch key).scene (s.scene.note (.hit key)) h.world rfl
      simp only [hlive, if_true, Option.bind_some]
      exact ⟨trivial, hnoted, fun other => (hsame' other).trans (hsame other)⟩
    | false =>
      obtain ⟨hpurged, hsame⟩ := h.purge
      obtain ⟨hnoted, hsame'⟩ := hpurged.scene
        ((Session.purge m s).2.scene.note (.miss key)) hpurged.world rfl
      simp only [hlive, Bool.false_eq_true, if_false, Option.bind_some]
      exact ⟨trivial, hnoted, fun other => (hsame' other).trans (hsame other)⟩

/-- **A read** answers what stands under the key, and leaves what can be seen as it is. -/
theorem get (key : String) : (Session.get m key s).1 = s.standing m.now key ∧
    (Session.get m key s).2.Lull leaf Q fired m.now ∧ s.Same m.now (Session.get m key s).2 := by
  obtain ⟨hlull, hsame⟩ := h.maintain
  obtain ⟨hanswer, hlooked, hsame'⟩ := hlull.look key
  rw [get_eq_look]
  exact ⟨hanswer.trans (hsame key), hlooked, fun other => (hsame' other).trans (hsame other)⟩

theorem world_get (key : String) : (Session.get m key s).2.scene.world = s.scene.world :=
  (Lull.get (Q := (· = s.scene.world)) { h with world := rfl } key).2.1.world

/-- **An entry is put in under a key that nothing depends on.** This may be refused. -/
theorem insert_childless (hchild : ∀ child, ¬s.cache.DependsOn child key) (value : V)
    {options : Options C} (hkeys : ∀ parent ∈ options.keys, ¬leaf parent)
    (hnew : (⟨value, options, s.cache.millis m.now⟩ : Slot V C).isExpired s.cache.epoch m.now =
      false ∨ leaf key ∧ options.hook = none) :
    let s' := (Session.insert m key value options s).2
    s'.Lull leaf Q fired m.now ∧
      (∀ other, other ≠ key → s'.cache.entries.get? other = s.cache.entries.get? other ∧
        s'.standing m.now other = s.standing m.now other) ∧
      ∀ slot, s'.cache.entries.get? key = some slot →
        slot = ⟨value, options, s.cache.millis m.now⟩ := by
  intro s'
  obtain ⟨hevicted, hothers⟩ := Cache.place_childless h.linked hchild m.now s.scene.signals value
    options
  let p := s.cache.place m.now s.scene.signals key value options
  have hs' : s' = s.commit key p := by
    change consultAll m (s.commit key p) p.evicted = _
    rw [hevicted]
    exact settle_nil m _
  have hlull : s'.Lull leaf Q fired m.now := by
    rw [hs']
    exact h.place hkeys hnew
  have hcache : s'.cache = p.cache := congrArg Session.cache hs'
  refine ⟨hlull, fun other hne => ?_, fun slot hslot => ?_⟩
  · have hsame : s'.cache.entries.get? other = s.cache.entries.get? other := by
      rw [hcache]
      exact hothers other hne
    have hepoch : s'.cache.epoch = s.cache.epoch := by
      rw [hcache]
      exact Cache.epoch_place h.linked key m.now s.scene.signals value options
    refine ⟨hsame, ?_⟩
    unfold standing
    rw [hsame, hepoch]
    simp only [isLive_congr (hlull.fired.trans h.fired.symm)]
  · rw [hcache] at hslot
    rcases Cache.get?_place h.linked key m.now s.scene.signals value options hslot with
      ⟨-, rfl, -⟩ | ⟨hne, -⟩
    · rfl
    · exact absurd rfl hne

variable (value : V) (options : Options C) in
/-- An entry that is no leaf is put in if there is none, and then nothing depends on its key. -/
theorem insertIfAbsent_cases (hleaf : ¬leaf key) :
    ((s.cache.entries.get? key).isSome = true ∧
      Session.insertIfAbsent m key value options s = (false, s)) ∨
    s.cache.entries.get? key = none ∧ (∀ child, ¬s.cache.DependsOn child key) ∧
      Session.insertIfAbsent m key value options s = Session.insert m key value options s := by
  unfold Session.insertIfAbsent
  cases hget : s.cache.entries.get? key with
  | some slot =>
    have hlive := (h.quiet key slot hget).resolve_right fun hkey => hleaf hkey.1
    have hcontains : s.contains m key = true := Cache.contains_iff.2 ⟨slot, hget, hlive⟩
    exact .inl ⟨rfl, if_pos hcontains⟩
  | none =>
    have hcontains : ¬s.contains m key = true := by
      rw [contains, Cache.contains, hget]
      exact Bool.false_ne_true
    exact .inr ⟨rfl, h.linked.not_dependsOn_of_none hget, if_neg hcontains⟩

/-- **A leaf is put in.** This may be refused, and it may be out of date from the start. -/
theorem insert_leaf (hleaf : leaf key) (value : V) {options : Options C}
    (hhook : options.hook = none) (hkeys : ∀ parent ∈ options.keys, ¬leaf parent) :
    let s' := (Session.insert m key value options s).2
    s'.Lull leaf Q fired m.now ∧
      (∀ other, other ≠ key → s'.standing m.now other = s.standing m.now other) ∧
      (s'.standing m.now key = none ∨ s'.standing m.now key = some value) := by
  intro s'
  obtain ⟨hlull, hothers, hself⟩ :=
    h.insert_childless (h.childless hleaf) value hkeys (.inr ⟨hleaf, hhook⟩)
  refine ⟨hlull, fun other hne => (hothers other hne).2, ?_⟩
  cases hstands : s'.standing m.now key with
  | none => exact .inl rfl
  | some found =>
    obtain ⟨slot, hslot, -, rfl⟩ := standing_eq_some.1 hstands
    rw [hself slot hslot]
    exact .inr rfl

/-- **A leaf is taken out.** -/
theorem remove_leaf (hleaf : leaf key) :
    let s' := (Session.remove m key s).2
    s'.Lull leaf Q fired m.now ∧
      (∀ other, other ≠ key → s'.standing m.now other = s.standing m.now other) ∧
      s'.standing m.now key = none := by
  unfold Session.remove
  cases hd : s.cache.detach key with
  | none =>
    refine ⟨h, fun _ _ => rfl, ?_⟩
    unfold standing
    rw [Cache.detach_eq_none hd]
    rfl
  | some d =>
    have hconsistent := h.linked.toConsistent
    have hloses := Cache.loses_detach hconsistent hd .expired
    have hothers : ∀ other, other ≠ key → d.cache.entries.get? other = s.cache.entries.get? other :=
      fun _ => Cache.get?_detach_childless hconsistent (h.childless hleaf) hd
    simp only [Cache.evicted_of_childless hconsistent (h.childless hleaf) hd, consultAll,
      List.map_nil, settle_nil]
    refine ⟨h.of_kept (h.linked.detach hd) hloses.epoch hloses.kept h.world rfl,
      fun other hne => ?_, ?_⟩
    · unfold standing
      rw [hothers other hne, hloses.epoch]
      rfl
    · unfold standing
      rw [Cache.get?_detach_self hconsistent hd]
      rfl

end Lull

end Session

end Templating
