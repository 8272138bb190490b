import Templating.Proofs.Engine.Workshop

/-!
# What hangs off the global key

Every entry of an engine is inserted with the key of its group's partials, or, for the partials
themselves, with the global key, so that dropping the global entry drops them all. The exception is
the note that a file is not well formed (`BrokenNote`): it is inserted with no key.

`Hung` is what holds of a cache at any time. Two things keep it from being said of single entries.
What hangs off the partials of a group is fine only as long as those are not replaced by a note, so
in the middle of an operation it is known of some keys that nothing stands there that hangs off
nothing (`Cache.Grown`). And an expired snapshot that waits to be put back must find its partials
as they were.
-/

namespace Templating

open Relation

/-! ## The entries of an engine -/

namespace KeySpace

/-- The keys of a space: the global one, and those of its groups. -/
def Owns (k : KeySpace) (key : String) : Prop :=
  key = k.global ∨ ∃ (g : Group.Made) (p : String), key = k.path g.1 p

variable (k : KeySpace)

theorem owns_global : k.Owns k.global := .inl rfl

theorem owns_path (g : Group.Made) (p : String) : k.Owns (k.path g.1 p) := .inr ⟨g, p, rfl⟩

theorem owns_config (g : Group.Made) : k.Owns (k.config g.1) := k.owns_path g "config"

theorem global_ne_config (g : Group) : k.global ≠ k.config g := k.global_ne_path g "config"

end KeySpace

/-- The note that a file is not well formed: it hangs off nothing, and it is kept until `limit` at
the latest. -/
def BrokenNote {C : Type} (limit : Instant) (value : Entry) (options : Options C) : Prop :=
  value = .missing ∧ ∃ deadline ≤ limit, options = { expiration := .absolute deadline }

theorem BrokenNote.mono {C : Type} {limit limit' : Instant} {value : Entry} {options : Options C}
    (h : BrokenNote limit value options) (hle : limit ≤ limit') :
    BrokenNote limit' value options := by
  obtain ⟨hvalue, deadline, hdeadline, hoptions⟩ := h
  exact ⟨hvalue, deadline, Nat.le_trans hdeadline hle, hoptions⟩

/-- A snapshot that stands beside the partials of a group. -/
structure KeySpace.Guards {C : Type} (k : KeySpace) (snap : Snapshot) (key : String)
    (options : Options C) : Prop where
  ne_global : key ≠ k.global
  configKey : ∃ g : Group.Made, snap.configKey = k.config g.1
  keys : options.keys = [snap.configKey]

section Hung

variable {C : Type} (k : KeySpace) (limit : Instant) (grown : String → Prop)

/-- What holds of a cache that an engine uses, while `pending` have been taken out and not been
asked. -/
structure Hung (c : Cache Entry C) (pending : List (Evicted Entry C)) : Prop where
  linked : c.Linked
  hangs : ∀ key slot, k.Owns key → c.entries.get? key = some slot →
    key = k.global ∨ BrokenNote limit slot.value slot.options ∨ TransGen c.DependsOn key k.global
  root : ∀ slot, c.entries.get? k.global = some slot → slot.options.keys = []
  guards : ∀ key slot snap, k.Owns key → c.entries.get? key = some slot →
    slot.value = .poll snap → k.Guards snap key slot.options
  grown : ∀ key, grown key → c.Grown key
  waits : ∀ e ∈ pending, ∀ snap, k.Owns e.key → e.slot.value = .poll snap →
    k.Guards snap e.key e.slot.options ∧ (e.reason = .expired → c.Grown snap.configKey)

/-- The entries that an engine may put in. -/
structure Admitted (c : Cache Entry C) (pending : List (Evicted Entry C)) (key : String)
    (value : Entry) (options : Options C) : Prop where
  hangs : key = k.global ∨ BrokenNote limit value options ∨
    ∃ parent, options.keys = [parent] ∧
      (parent = key ∨ parent = k.global ∨ k.Owns parent ∧ c.Grown parent)
  root : key = k.global → options.keys = []
  guards : ∀ snap, value = .poll snap → k.Guards snap key options
  grown : grown key → options.keys ≠ []
  waits : options.keys = [] → key = k.global ∨ ∀ e ∈ pending, e.reason ≠ .expired

variable {k limit grown} {c rest : Cache Entry C} {pending more : List (Evicted Entry C)}
  {key : String} {value : Entry} {options : Options C}

namespace Hung

theorem mono {limit' : Instant} {grown' : String → Prop} (h : Hung k limit grown c pending)
    (hlimit : limit ≤ limit') (hgrown : ∀ key, grown' key → grown key) :
    Hung k limit' grown' c pending where
  linked := h.linked
  hangs key slot howns hget :=
    (h.hangs key slot howns hget).imp_right (Or.imp_left fun hnote => hnote.mono hlimit)
  root := h.root
  guards := h.guards
  grown key hkey := h.grown key (hgrown key hkey)
  waits := h.waits

theorem forget {e : Evicted Entry C} (h : Hung k limit grown c (e :: pending)) :
    Hung k limit grown c pending :=
  { h with waits := fun e' he' => h.waits e' (List.mem_cons_of_mem e he') }

/-- An entry of the engine that is no note depends on something. -/
theorem transGen_of_ne_missing (h : Hung k limit grown c pending) (howns : k.Owns key)
    (hkey : key ≠ k.global) {slot : Slot Entry C} (hget : c.entries.get? key = some slot)
    (hvalue : slot.value ≠ .missing) : TransGen c.DependsOn key k.global := by
  rcases h.hangs key slot howns hget with heq | ⟨hmissing, -⟩ | hdep
  · exact absurd heq hkey
  · exact absurd hmissing hvalue
  · exact hdep

theorem grown_of_transGen (h : Hung k limit grown c pending)
    (hdep : TransGen c.DependsOn key k.global) : c.Grown key := by
  intro slot hget hnil
  obtain ⟨parent, hparent, -⟩ := h.linked.keys_of_transGen hget hdep
  rw [hnil] at hparent
  cases hparent

/-- What a stored snapshot guards depends on something. -/
theorem grown_of_poll (h : Hung k limit grown c pending) (howns : k.Owns key)
    {slot : Slot Entry C} {snap : Snapshot} (hget : c.entries.get? key = some slot)
    (hvalue : slot.value = .poll snap) : c.Grown snap.configKey := by
  have hguards := h.guards key slot snap howns hget hvalue
  have hdep := h.transGen_of_ne_missing howns hguards.ne_global hget (by rw [hvalue]; nofun)
  obtain ⟨parent, hparent, hreaches⟩ := h.linked.keys_of_transGen hget hdep
  rw [hguards.keys, List.mem_singleton] at hparent
  subst hparent
  obtain ⟨g, hconfig⟩ := hguards.configKey
  rcases hreaches with heq | hreaches
  · exact absurd (heq.symm.trans hconfig) (k.global_ne_config g.1)
  · exact h.grown_of_transGen hreaches

/-- Entries leave. -/
theorem thin (h : Hung k limit grown c pending) (hrest : c.Thinned rest)
    (hmore : ∀ e ∈ more, c.entries.get? e.key = some e.slot) :
    Hung k limit grown rest (more ++ pending) where
  linked := hrest.linked
  hangs key slot howns hget := by
    obtain ⟨old, hold, hvalue, hoptions⟩ := hrest.kept key slot hget
    rw [hvalue, hoptions]
    exact (h.hangs key old howns hold).imp_right (Or.imp_right
      (hrest.transGen h.linked.toConsistent (by rw [hget]; rfl)))
  root slot hget := by
    obtain ⟨old, hold, -, hoptions⟩ := hrest.kept _ slot hget
    rw [hoptions]
    exact h.root old hold
  guards key slot snap howns hget hvalue := by
    obtain ⟨old, hold, hsame, hoptions⟩ := hrest.kept key slot hget
    rw [hoptions]
    exact h.guards key old snap howns hold (hsame.symm.trans hvalue)
  grown key hkey := (h.grown key hkey).thinned hrest
  waits e he snap howns hvalue := by
    rcases List.mem_append.1 he with he | he
    · have hget := hmore e he
      exact ⟨h.guards e.key e.slot snap howns hget hvalue,
        fun _ => (h.grown_of_poll howns hget hvalue).thinned hrest⟩
    · obtain ⟨hguards, hconfig⟩ := h.waits e he snap howns hvalue
      exact ⟨hguards, fun hexpired => (hconfig hexpired).thinned hrest⟩

end Hung

theorem Admitted.thin (h : Admitted k limit grown c pending key value options)
    (hrest : c.Thinned rest) (hmore : ∀ e ∈ more, e.reason = .dependencyChanged) :
    Admitted k limit grown rest (more ++ pending) key value options where
  hangs := by
    refine h.hangs.imp_right (Or.imp_right ?_)
    rintro ⟨parent, hkeys, hparent⟩
    exact ⟨parent, hkeys, hparent.imp_right (Or.imp_right (And.imp_right
      fun hgrown => hgrown.thinned hrest))⟩
  root := h.root
  guards := h.guards
  grown := h.grown
  waits hnil := by
    refine (h.waits hnil).imp_right fun hnone e he => ?_
    rcases List.mem_append.1 he with he | he
    · rw [hmore e he]
      nofun
    · exact hnone e he

namespace Hung

/-- What is admitted and is stored under a free key hangs off the global key, if it is no note. -/
theorem hangs_link (h : Hung k limit grown c pending) (hfree : c.entries.get? key = none)
    (now : Instant)
    (hparents : ∀ parent ∈ options.keys, parent ≠ key ∧ (c.entries.get? parent).isSome = true)
    (hnew : Admitted k limit grown c pending key value options) :
    key = k.global ∨ BrokenNote limit value options ∨
      TransGen (c.link now key value options).DependsOn key k.global := by
  have hdep := Cache.dependsOn_link now value options h.linked.toConsistent hfree
  refine hnew.hangs.imp_right (Or.imp_right ?_)
  rintro ⟨parent, hkeys, hparent⟩
  have hmem : parent ∈ options.keys := by rw [hkeys]; exact List.mem_singleton_self parent
  obtain ⟨hne, hstored⟩ := hparents parent hmem
  have hstep : (c.link now key value options).DependsOn key parent := by
    rw [hdep, if_pos rfl]
    exact hmem
  rcases hparent with heq | rfl | ⟨howns, hparent⟩
  · exact absurd heq hne
  · exact .single hstep
  · obtain ⟨slot, hslot⟩ := Option.isSome_iff_exists.1 hstored
    rcases h.hangs parent slot howns hslot with rfl | ⟨-, deadline, -, hoptions⟩ | hroot
    · exact .single hstep
    · exact absurd (by rw [hoptions]) (hparent slot hslot)
    · exact .head hstep (Cache.transGen_link h.linked.toConsistent hfree now value options hroot)

/-- An entry is put in under a key that is free. The keys of `grown` are the engine's. -/
theorem link (h : Hung k limit grown c pending) (hgrown : ∀ key, grown key → k.Owns key)
    (hfree : c.entries.get? key = none) (now : Instant)
    (hparents : ∀ parent ∈ options.keys, parent ≠ key ∧ (c.entries.get? parent).isSome = true)
    (hnew : k.Owns key → Admitted k limit grown c pending key value options) :
    Hung k limit grown (c.link now key value options) pending where
  linked := h.linked.link now value options hfree hparents
  hangs other slot howns hget := by
    rcases Cache.get?_of_get?_link hget with ⟨rfl, rfl⟩ | ⟨-, hget⟩
    · exact h.hangs_link hfree now hparents (hnew howns)
    · exact (h.hangs other slot howns hget).imp_right (Or.imp_right
        (Cache.transGen_link h.linked.toConsistent hfree now value options))
  root slot hget := by
    rcases Cache.get?_of_get?_link hget with ⟨heq, rfl⟩ | ⟨-, hget⟩
    · exact (hnew (.inl heq.symm)).root heq.symm
    · exact h.root slot hget
  guards other slot snap howns hget hvalue := by
    rcases Cache.get?_of_get?_link hget with ⟨rfl, rfl⟩ | ⟨-, hget⟩
    · exact (hnew howns).guards snap hvalue
    · exact h.guards other slot snap howns hget hvalue
  grown other hother slot hget := by
    rcases Cache.get?_of_get?_link hget with ⟨rfl, rfl⟩ | ⟨-, hget⟩
    · exact (hnew (hgrown other hother)).grown hother
    · exact h.grown other hother slot hget
  waits e he snap howns hvalue := by
    obtain ⟨hguards, hconfig⟩ := h.waits e he snap howns hvalue
    refine ⟨hguards, fun hexpired slot hget => ?_⟩
    rcases Cache.get?_of_get?_link hget with ⟨heq, rfl⟩ | ⟨-, hget⟩
    · intro hnil
      obtain ⟨g, hkey⟩ := hguards.configKey
      rw [heq] at hkey
      rcases (hnew (by rw [hkey]; exact k.owns_config g)).waits hnil with hroot | hnone
      · exact k.global_ne_config g.1 (hroot.symm.trans hkey)
      · exact hnone e he hexpired
    · exact hconfig hexpired slot hget

/-- An entry is put in. -/
theorem place (h : Hung k limit grown c pending) (hgrown : ∀ key, grown key → k.Owns key)
    (now : Instant) (signals : Signals)
    (hnew : k.Owns key → Admitted k limit grown c pending key value options) :
    Hung k limit grown (c.place now signals key value options).cache
      ((c.place now signals key value options).evicted ++ pending) := by
  have hgone := Cache.was_stored_of_cleared h.linked key
  have hthin := Cache.Thinned.cleared h.linked key
  have hcleared := h.thin hthin fun e he => (hgone e he).1
  exact Cache.place_cases (P := fun rest evicted _ => Hung k limit grown rest (evicted ++ pending))
    h.linked now signals key value options (fun _ => hcleared) fun hparents hfree =>
      hcleared.link hgrown hfree now hparents fun howns =>
        (hnew howns).thin hthin fun e he => (hgone e he).2

/-- What is known of further keys. -/
theorem with_grown (h : Hung k limit (fun _ => False) c pending)
    (hgrown : ∀ key, grown key → c.Grown key) : Hung k limit grown c pending :=
  { h with grown := hgrown }

end Hung

/-- The global entry is admitted. -/
theorem Admitted.atGlobal (hgrown : ¬grown k.global) :
    Admitted k limit grown c pending k.global .global {} :=
  ⟨.inl rfl, fun _ => rfl, nofun, fun hkey => absurd hkey hgrown, fun _ => .inl rfl⟩

/-- An entry is admitted that hangs off one other. -/
theorem Admitted.below {parent : String} (hkeys : options.keys = [parent]) (hkey : key ≠ k.global)
    (hparent : parent = key ∨ parent = k.global ∨ k.Owns parent ∧ c.Grown parent)
    (hguards : ∀ snap, value = .poll snap → k.Guards snap key options) :
    Admitted k limit grown c pending key value options where
  hangs := .inr (.inr ⟨parent, hkeys, hparent⟩)
  root heq := absurd heq hkey
  guards := hguards
  grown _ := by
    rw [hkeys]
    nofun
  waits hnil := by
    rw [hkeys] at hnil
    cases hnil

theorem steady_hung {W : Type} {k : KeySpace} {limit now : Instant} {grown : String → Prop}
    (hgrown : ∀ key, grown key → k.Owns key) :
    Session.Steady (Poller.moment now)
      (fun c pending key value options =>
        k.Owns key → Admitted k limit grown c pending key value options)
      (Hung k limit grown) (fun _ : W => True) := by
  refine .of_thin (fun _ _ h => h.linked) (fun _ _ _ h => h.forget)
    (fun _ _ _ _ h hrest hmore => h.thin hrest hmore)
    (fun _ _ signals _ _ _ h hnew => h.place hgrown _ signals hnew) (fun _ _ _ _ _ _ _ _ => trivial)
    fun c e pending hook scene value options h _ hre howns => ?_
  obtain ⟨snap, hvalue, hreason, rfl, rfl⟩ := Poller.of_reinsert hre
  obtain ⟨hguards, hconfig⟩ := h.waits e List.mem_cons_self snap howns hvalue
  obtain ⟨g, hkey⟩ := hguards.configKey
  refine .below rfl hguards.ne_global (.inr (.inr ⟨?_, hconfig hreason⟩)) ?_
  · rw [hkey]
    exact k.owns_config g
  · rintro _ ⟨⟩
    exact ⟨hguards.ne_global, ⟨g, hkey⟩, rfl⟩

end Hung

end Templating
