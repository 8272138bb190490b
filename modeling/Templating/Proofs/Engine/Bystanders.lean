import Templating.Proofs.Engine.Clearing
import Templating.Proofs.Engine.Moored

/-!
# A request for a path and the other entries

The path in a request need not be one at which templates are looked for, and it becomes a part of
a key. To put an entry in takes out what depends on the one whose place it takes, even when it is
refused. So it matters whether something depends on the key of the path.

Where nothing is out of date, a request for a path puts in the partials of its group and their
poller, if there are none, and the answer for the path. Nothing depends on any of their keys then
(`Engine.childless_of_cold`), and what stands under other keys stands on (`Session.Abides`,
`Workshop.bystanders_stand`). The exception is the path `config`, which has the key of the partials:
a request for it drops them and all that depends on them (`Workshop.dropped_for_path`).
-/

namespace Templating

open Work (Answers Takes)

/-! ## Dependents of partials -/

/-- A path whose key is that of a group's partials, or of a poller beside them. -/
def KeySpace.Reserved (path : String) : Prop :=
  path = "config" ∨ ∃ serial, path = pollerPath serial

namespace Engine

variable {W : Type} {e : Engine W} {now : Instant} {g : Group.Made} {s : Session Entry (Poller W) W}

/-- Under the key of partials there stands nothing else but a note that depends on nothing. -/
theorem note_of_not_config (h : e.Moors now s []) (hhangs : e.Hangs now (fun _ => False) s)
    {slot : Slot Entry (Poller W)} (hget : s.cache.entries.get? (e.keys.config g.1) = some slot)
    (hvalue : ∀ c, slot.value ≠ .config c) : slot.value = .missing ∧ slot.options.keys = [] := by
  have hself := ((h.1.stored _ slot hget).config g rfl).resolve_left fun ⟨c, hc⟩ => hvalue c hc
  have hnil : slot.options.keys = [] := by
    by_contra hkeys
    obtain ⟨parent, hparent⟩ := List.exists_mem_of_ne_nil _ hkeys
    have hcycle := (h.1.linked.recorded _ slot hget parent).2 hparent
    rw [hself parent hparent] at hcycle
    exact h.1.linked.acyclic _ (.single hcycle)
  refine ⟨?_, hnil⟩
  rcases hhangs.1.hangs _ slot (e.keys.owns_config g) hget with heq | ⟨hmissing, -⟩ | hdep
  · exact absurd heq (e.keys.global_ne_config g.1).symm
  · exact hmissing
  · exact absurd hnil (hhangs.1.grown_of_transGen hdep slot hget)

/-- What is no note depends on the partials of its group, if it is not under their key. -/
theorem dependsOn_config (h : e.Moors now s []) (hhangs : e.Hangs now (fun _ => False) s)
    {p : String} (hp : p ≠ "config") {slot : Slot Entry (Poller W)}
    (hget : s.cache.entries.get? (e.keys.path g.1 p) = some slot) (hvalue : slot.value ≠ .missing) :
    s.cache.DependsOn (e.keys.path g.1 p) (e.keys.config g.1) := by
  have hgrown := hhangs.1.grown_of_transGen (hhangs.1.transGen_of_ne_missing (e.keys.owns_path g p)
    (e.keys.global_ne_path g.1 p).symm hget hvalue)
  obtain ⟨parent, hparent⟩ := List.exists_mem_of_ne_nil _ (hgrown slot hget)
  have hdep := (h.1.linked.recorded _ slot hget parent).2 hparent
  rwa [((h.1.stored _ slot hget).keys parent hparent).of_path hp] at hdep

/-- **Nothing depends on partials that are not there**, nor on a note under their key. -/
theorem childless_of_cold (h : e.Moors now s []) (hhangs : e.Hangs now (fun _ => False) s)
    (hcold : ∀ slot, s.cache.entries.get? (e.keys.config g.1) = some slot →
      ∀ c, slot.value ≠ .config c) (child : String) :
    ¬s.cache.DependsOn child (e.keys.config g.1) := by
  intro hdep
  obtain ⟨above, habove⟩ := Option.isSome_iff_exists.1 (h.1.linked.parent_stored _ _ hdep)
  obtain ⟨-, hnil⟩ := note_of_not_config h hhangs habove (hcold above habove)
  obtain ⟨slot, hslot⟩ := Option.isSome_iff_exists.1
    (h.1.linked.toConsistent.stored_of_dependsOn hdep)
  have hmoored := h.1.stored child slot hslot
  have hmem := (h.1.linked.recorded child slot hslot _).1 hdep
  obtain ⟨p, rfl⟩ := (hmoored.keys _ hmem).of_config
  have howns := e.keys.owns_path g p
  -- It hangs off the global key, but all that it depends on is the note.
  rcases hhangs.1.hangs _ slot howns hslot with heq | ⟨-, deadline, -, hoptions⟩ | hroot
  · exact e.keys.global_ne_path g.1 p heq.symm
  · rw [hoptions] at hmem
    cases hmem
  · obtain ⟨parent, hparent, hreaches⟩ := h.1.linked.keys_of_transGen hslot hroot
    obtain ⟨only, honly⟩ := List.length_eq_one_iff.1
      (Nat.le_antisymm (hmoored.single howns) (List.length_pos_of_mem hmem))
    rw [honly, List.mem_singleton] at hmem hparent
    rw [hparent, ← hmem] at hreaches
    rcases hreaches with heq | hreaches
    · exact e.keys.global_ne_config g.1 heq.symm
    · exact hhangs.1.grown_of_transGen hreaches above habove hnil

/-! ## Partials -/

section Config

variable {B : String → Entry → Prop} {leaf : String → Prop} {Q : W → Prop} {fired : List Token}
  {s₀ : Session Entry (Poller W) W} (hstill : e.source.Follows (Scene.Still Q))
  (hglobal : ¬leaf e.keys.global) (hconfig : ¬leaf (e.keys.config g.1))
  (hB : ∀ path, KeySpace.Reserved path → ¬B (e.keys.path g.1 path) .missing)

/-- What stood stands on, and the entries are in order. -/
structure InOrder (e : Engine W) (B : String → Entry → Prop) (leaf : String → Prop)
    (Q : W → Prop) (fired : List Token) (now : Instant) (s₀ s : Session Entry (Poller W) W) :
    Prop where
  abides : Session.Abides B leaf Q fired now s₀ s
  moors : e.Moors now s []
  hangs : e.Hangs now (fun _ => False) s

namespace InOrder

variable (h : e.InOrder B leaf Q fired now s₀ s)

include h

theorem get (key : String) :
    e.InOrder B leaf Q fired now s₀ (Session.get (Poller.moment now) key s).2 :=
  ⟨h.abides.get (m := Poller.moment now) key, (lasting_moored e now).get key s h.moors,
    (e.steady_hangs now (fun _ => False) nofun).get key s h.hangs⟩

theorem scene (scene : Scene W) (hscene : Scene.Still Q s.scene scene) :
    e.InOrder B leaf Q fired now s₀ { s with scene } :=
  ⟨h.abides.scene (m := Poller.moment now) scene hscene, h.moors, h.hangs.1, trivial⟩

include hglobal in
/-- The global entry is made sure of. -/
theorem ensureGlobal : let s' := (e.ensureGlobal now s).2
    e.InOrder B leaf Q fired now s₀ s' ∧
      ∀ other, other ≠ e.keys.global → s'.standing now other = s.standing now other := by
  obtain ⟨habides, hothers⟩ := h.abides.insertIfAbsent (m := Poller.moment now) .global {}
    hglobal (List.forall_mem_nil _) trivial
  exact ⟨⟨habides, (lasting_moored e now).insertIfAbsent moored_global s h.moors,
    (e.steady_hangs now (fun _ => False) nofun).insertIfAbsent (fun _ _ _ => .atGlobal id) s
      h.hangs⟩, hothers⟩

/-- What stands under the key of partials in a lull is what is stored there. -/
theorem childless (hconfig : ¬leaf (e.keys.config g.1))
    (hcold : ∀ c, s.standing now (e.keys.config g.1) ≠ some (.config c)) (child : String) :
    ¬s.cache.DependsOn child (e.keys.config g.1) := by
  refine childless_of_cold h.moors h.hangs (fun slot hget c hc => hcold c ?_) child
  have hlive := (h.abides.lull.quiet _ slot hget).resolve_right fun hleaf => hconfig hleaf.1
  exact Session.standing_eq_some.2 ⟨slot, hget, hlive, hc⟩

include hconfig hB

include hglobal in
/-- **Partials are put in** where there are none. Nothing depends on them then. -/
theorem insert_config (hcold : ∀ c, s.standing now (e.keys.config g.1) ≠ some (.config c))
    (c : GroupConfig) (tokens : List Token) :
    let s' := (Session.insert (Poller.moment now) (e.keys.config g.1) (.config c)
      { keys := [e.keys.global], tokens } s).2
    e.InOrder B leaf Q fired now s₀ s' ∧
      ∀ child, ¬s'.cache.DependsOn child (e.keys.config g.1) := by
  have hchild := h.childless hconfig hcold
  have hne := e.keys.global_ne_config g.1
  have hreplaced : ∀ old, s.standing now (e.keys.config g.1) = some old →
      ¬B (e.keys.config g.1) old := by
    intro old hstands
    obtain ⟨slot, hget, -, rfl⟩ := Session.standing_eq_some.1 hstands
    obtain ⟨hmissing, -⟩ := note_of_not_config h.moors h.hangs hget fun c hc =>
      hcold c (hstands.trans (congrArg some hc))
    rw [hmissing]
    exact hB "config" (.inl rfl)
  obtain ⟨habides, hothers, hself⟩ := h.abides.insert_childless (m := Poller.moment now)
    (.config c) { keys := [e.keys.global], tokens } hchild hreplaced
    (List.forall_mem_singleton.2 hglobal) trivial
  refine ⟨⟨habides, (lasting_moored e now).insert ((admits_moored e now g).config c tokens) s
    h.moors, ?_⟩, fun child hdep => ?_⟩
  · refine (e.steady_hangs now (fun _ => False) nofun).insert
      (fun _ _ _ => .below rfl hne.symm (.inr (.inl rfl)) ?_) s h.hangs
    rintro snap ⟨⟩
  · have hlinked := habides.lull.linked
    obtain ⟨slot, hslot⟩ := Option.isSome_iff_exists.1
      (hlinked.toConsistent.stored_of_dependsOn hdep)
    have hmem := (hlinked.recorded child slot hslot _).1 hdep
    by_cases heq : child = e.keys.config g.1
    · rw [heq] at hslot
      rw [hself slot hslot, List.mem_singleton] at hmem
      exact hne hmem.symm
    · rw [hothers child heq] at hslot
      exact hchild child ((h.moors.1.linked.recorded child slot hslot _).2 hmem)

/-- **A poller is armed** beside partials on which nothing depends. -/
theorem insert_poll (hchild : ∀ child, ¬s.cache.DependsOn child (e.keys.config g.1))
    (serial : Nat) {snap : Snapshot} (hkey : snap.configKey = e.keys.config g.1) :
    Session.Abides B leaf Q fired now s₀ (Session.insert (Poller.moment now)
      (KeySpace.poller snap.configKey serial) (.poll snap)
        (e.poller.options now snap.configKey) s).2 := by
  have hne := KeySpace.pollerPath_ne_config serial
  rw [hkey, KeySpace.poller_eq_path]
  refine (h.abides.insert_childless (m := Poller.moment now) (.poll snap)
    (e.poller.options now (e.keys.config g.1)) (fun child hdep => ?_)
    (fun old hstands hold => ?_) (List.forall_mem_singleton.2 hconfig)
    (Nat.lt_add_of_pos_right e.options.timings.poll_pos)).1
  · obtain ⟨slot, hslot⟩ := Option.isSome_iff_exists.1
      (h.moors.1.linked.toConsistent.stored_of_dependsOn hdep)
    have hmem := (h.moors.1.linked.recorded child slot hslot _).1 hdep
    exact hne ((h.moors.1.stored child slot hslot).keys _ hmem).eq_config
  · obtain ⟨slot, hget, -, rfl⟩ := Session.standing_eq_some.1 hstands
    refine hchild _ (dependsOn_config h.moors h.hangs hne hget fun hmissing => ?_)
    rw [hmissing] at hold
    exact hB _ (.inr ⟨serial, rfl⟩) hold

end InOrder

include hstill hglobal hconfig hB

/-- **A build** leaves what stood standing. -/
theorem answers_build_abides : Answers
    (fun s => e.InOrder B leaf Q fired now s₀ s ∧
      ∀ c, s.standing now (e.keys.config g.1) ≠ some (.config c))
    (fun _ => Session.Abides B leaf Q fired now s₀) (e.build now g.1) := by
  let Cold (s : Session Entry (Poller W) W) : Prop := e.InOrder B leaf Q fired now s₀ s ∧
    ∀ c, s.standing now (e.keys.config g.1) ≠ some (.config c)
  let Childless (s : Session Entry (Poller W) W) : Prop := e.InOrder B leaf Q fired now s₀ s ∧
    ∀ child, ¬s.cache.DependsOn child (e.keys.config g.1)
  have hcourse := Scene.course_still Q
  refine answers_build (A := Cold) (B := fun _ => Cold) (C := fun _ _ => Childless)
    (D := fun _ _ => Childless) (R := fun _ => Session.Abides B leaf Q fired now s₀)
    (fun s hs => ?global) (fun s hs => ?gather) (fun found s hs => ?insert)
    (fun found _ s hs => ?fingerprints) (fun found fingerprints s hs => ?arm)
    (fun _ _ _ _ hs => hs.1.abides) fun c s hs => ?note
  case global =>
    obtain ⟨hafter, hothers⟩ := hs.1.ensureGlobal hglobal
    refine ⟨hafter, fun c => ?_⟩
    rw [hothers _ (e.keys.global_ne_config g.1).symm]
    exact hs.2 c
  case gather =>
    have hscene := hstill.gather hcourse e.options.extension e.site
      (e.options.folders.partialFolders g.1) s.scene
    have hsame := (hs.1.abides.lull.scene _ (hscene hs.1.abides.lull.world).1
      (hscene hs.1.abides.lull.world).2).2
    exact ⟨hs.1.scene _ hscene, fun c hc => hs.2 c ((hsame _).symm.trans hc)⟩
  case insert => exact hs.1.insert_config hglobal hconfig hB hs.2 found.config found.tokens
  case fingerprints => exact ⟨hs.1.scene _ (hstill.fingerprints hcourse found s.scene), hs.2⟩
  case arm =>
    have hnumbered := hs.1.scene _ (hcourse.takeSerial s.scene)
    exact hnumbered.insert_poll hconfig hB hs.2 _ rfl
  case note => exact hs.scene (m := Poller.moment now) _ fun hworld => ⟨hworld, rfl⟩

/-- **A group's partials** can be asked for, and what stood stands on. -/
theorem answers_config_abides : Answers (e.InOrder B leaf Q fired now s₀)
    (fun _ => Session.Abides B leaf Q fired now s₀) (e.config now g.1) := by
  have hget : ∀ s, e.InOrder B leaf Q fired now s₀ s →
      (∀ c, (Session.get (Poller.moment now) (e.keys.config g.1) s).1 ≠ some (.config c)) →
        e.InOrder B leaf Q fired now s₀
            (Session.get (Poller.moment now) (e.keys.config g.1) s).2 ∧
          ∀ c, (Session.get (Poller.moment now) (e.keys.config g.1) s).2.standing now
            (e.keys.config g.1) ≠ some (.config c) := by
    intro s hs hmissed
    obtain ⟨hanswer, -, hsame⟩ :=
      hs.abides.lull.get (m := Poller.moment now) (e.keys.config g.1)
    exact ⟨hs.get _, fun c hc => hmissed c (hanswer.trans ((hsame _).symm.trans hc))⟩
  exact answers_config_of hget (fun s _ hs _ => (hs.get _).abides) (fun s hs => hget s hs.1)
    (fun s _ hs _ => (hs.1.get _).abides) (answers_build_abides hstill hglobal hconfig hB)

end Config

/-! ## Look-ups -/

section Lookup

variable {B : String → Entry → Prop} {leaf : String → Prop} {Q : W → Prop} {fired : List Token}
  {s₀ : Session Entry (Poller W) W} {c : GroupConfig} {path : String}

/-- **A look-up** changes nothing but what is kept under its key. -/
theorem takes_lookup_abides (hstill : e.source.Follows (Scene.Still Q))
    (hleaf : leaf (e.keys.path g.1 path)) (hconfig : ¬leaf (e.keys.config g.1))
    (hB : ∀ old, ¬B (e.keys.path g.1 path) old) :
    Takes (Session.Abides B leaf Q fired now s₀) (Session.Abides B leaf Q fired now s₀)
      (e.lookup now g.1 c path) := by
  let P : Session Entry (Poller W) W → Prop := Session.Abides B leaf Q fired now s₀
  have hact : ∀ {α : Type} {act : Act W α}, act.Follows (Scene.Still Q) →
      Takes P P (Session.onScene act : Resolving W α) := fun h s hs =>
    hs.scene (m := Poller.moment now) _ (h s.scene)
  have hkeep : ∀ (value : Entry) (options : Options (Poller W)), options.hook = none →
      (∀ parent ∈ options.keys, ¬leaf parent) →
        Takes P P (Session.insert (Poller.moment now) (e.keys.path g.1 path) value options) :=
    fun value options hhook hkeys s hs =>
      hs.insert_leaf (m := Poller.moment now) hleaf hB hhook hkeys
  have hguarded : ∀ (value : Entry) token sliding recheck, Takes P P (Session.insert
      (Poller.moment now) (e.keys.path g.1 path) value (e.guarded now g.1 token sliding recheck)) :=
    fun value _ _ _ => hkeep value _ rfl (List.forall_mem_singleton.2 hconfig)
  refine takes_lookup (fun s hs => hs.get (m := Poller.moment now) _)
    (hact (hstill.fingerprint path))
    (fun s hs => hs.remove_leaf (m := Poller.moment now) hleaf hB) <|
    takes_ask_of (U := fun _ => P) (hact (hstill.changeToken? (Scene.course_still Q) path))
      (fun _ => hact (hstill.isFile path))
      (fun token => .bind (hguarded .missing token _ _) fun _ => .pure _) fun token =>
        takes_compile_of (U := fun _ => P) (hact (hstill.read path))
          (fun _ _ s hs => hs.scene (m := Poller.moment now) _ fun hworld => ⟨hworld, rfl⟩)
          (fun _ => hact (hstill.fingerprint path)) (fun _ _ hs => hs)
          (fun _ => .bind (hkeep .missing _ rfl nofun) fun _ => .pure _) ?_
  rintro _ template rfl - - -
  unfold rememberCompiled
  split
  · exact .pure _
  · exact .bind (hguarded (.compiled template) token _ _) fun _ => .pure _

end Lookup

/-! ## Requests for a path -/

end Engine

namespace KeySpace

/-- The entry is another than that for this path of the group, and it is not a note that has the key
of the group's partials or of a poller, which an earlier request for a reserved path has left. -/
structure Bystander (k : KeySpace) (g : Group.Made) (path : String) (key : String) (value : Entry) :
    Prop where
  other : key ≠ k.path g.1 path
  note : value = .missing → ∀ reserved, Reserved reserved → key ≠ k.path g.1 reserved

variable {k : KeySpace} {g : Group.Made} {path : String}

/-- Partials are bystanders of every path but their own. -/
theorem bystander_config (hpath : path ≠ "config") (c : GroupConfig) :
    k.Bystander g path (k.config g.1) (.config c) :=
  ⟨fun heq => hpath (k.path_injective g.2 g.2 heq).2.symm, nofun⟩

/-- What is kept under a path at which templates are looked for is a bystander of all other paths,
notes included. -/
theorem bystander_path {other : String} (hrooted : Rooted other) (hne : other ≠ path)
    (value : Entry) : k.Bystander g path (k.path g.1 other) value where
  other heq := hne (k.path_injective g.2 g.2 heq).2
  note _ reserved hreserved heq := by
    obtain ⟨-, rfl⟩ := k.path_injective g.2 g.2 heq
    rcases hreserved with hconfig | ⟨serial, hpoller⟩
    · exact hrooted.ne_config hconfig
    · exact hrooted.ne_config_append _ hpoller

end KeySpace

namespace Engine

variable {W : Type} {e : Engine W} {now : Instant} {g : Group.Made} {s : Session Entry (Poller W) W}
  {Q : W → Prop} {path : String}

/-- Where all entries are live there is a lull, in which what is kept under a path may be out of
date. -/
theorem lull_of_moors (h : e.Moors now s []) (hworld : Q s.scene.world)
    (hlive : ∀ key slot, s.cache.entries.get? key = some slot →
      slot.isLive s.cache.epoch now s.scene.signals = true) (hpath : path ≠ "config") :
    s.Lull (· = e.keys.path g.1 path) Q s.scene.signals.fired now where
  linked := h.1.linked
  barren key slot hget parent hparent heq := by
    have hunder := (h.1.stored key slot hget).keys parent hparent
    rw [heq] at hunder
    exact hpath hunder.eq_config
  quiet key slot hget := .inl (hlive key slot hget)
  touched := h.2.2
  world := hworld
  fired := rfl

/-- **A request for a path** leaves every bystander standing. -/
theorem resolvePath_abides (hstill : e.source.Follows (Scene.Still Q)) (h : e.Moors now s [])
    (hhangs : e.Hangs now (fun _ => False) s) (hworld : Q s.scene.world)
    (hlive : ∀ key slot, s.cache.entries.get? key = some slot →
      slot.isLive s.cache.epoch now s.scene.signals = true) (hpath : path ≠ "config") :
    Session.Abides (e.keys.Bystander g path) (· = e.keys.path g.1 path) Q s.scene.signals.fired now
      s (e.resolvePath now g.1 path s).2 := by
  have hconfig : e.keys.config g.1 ≠ e.keys.path g.1 path := fun heq =>
    hpath (e.keys.path_injective g.2 g.2 heq).2.symm
  let P : Session Entry (Poller W) W → Prop := Session.Abides (e.keys.Bystander g path)
    (· = e.keys.path g.1 path) Q s.scene.signals.fired now s
  have hstart : e.InOrder (e.keys.Bystander g path) (· = e.keys.path g.1 path) Q
      s.scene.signals.fired now s s :=
    ⟨⟨lull_of_moors h hworld hlive hpath, fun _ _ _ hstands => hstands⟩, h, hhangs⟩
  have hlookup : ∀ c, Takes P P (e.lookup now g.1 c path) := fun _ =>
    takes_lookup_abides hstill rfl hconfig fun _ hB => hB.other rfl
  exact takes_resolvePath (fun _ hs => hs.abides)
    (answers_config_abides hstill (e.keys.global_ne_path g.1 path) hconfig
      fun reserved hreserved hB => hB.note rfl reserved hreserved rfl) hlookup s hstart

end Engine

namespace Workshop

variable {W : Type}

/-- After any run the entries of a new engine are in order. -/
theorem run_in_order {source : Source W} {site : Template.Library} {options : EngineOptions}
    {start : Instant} {s₀ s₁ : Session Entry (Poller W) W} {e : Engine W}
    (hcreate : Engine.create source site options start s₀ = (.ok e, s₁))
    (hforeign : s₀.cache.Holds e.keys.Foreign []) (htimely : s₀.cache.Timely start)
    {moves : List (Move W)} (hmoves : ∀ move ∈ moves, move.Foreign e.keys) :
    let σ := (⟨e, start, s₁⟩ : Workshop W).run moves
    (∃ site, σ.engine = { e with site }) ∧ e.Moors σ.now σ.session [] ∧
      e.Hangs σ.now (fun _ => False) σ.session := by
  have hfree : ∀ key, e.keys.Owns key → s₀.cache.entries.get? key = none := by
    intro key howns
    cases hget : s₀.cache.entries.get? key with
    | none => rfl
    | some slot => exact absurd howns (hforeign.stored key slot hget).key
  obtain ⟨hsite, hhangs⟩ := run_hangs hcreate hforeign.linked hfree
    fun move hmove => (hmoves move hmove).within
  refine ⟨hsite, run_moored (σ := ⟨e, start, s₁⟩) ⟨e.site, rfl⟩ ?_ hmoves, hhangs⟩
  obtain ⟨-, scene, -, rfl⟩ := Engine.create_eq_ok hcreate
  exact (Engine.lasting_moored e start).insertIfAbsent Engine.moored_global _
    ⟨⟨hforeign.linked, fun key slot hget => (hforeign.stored key slot hget).moored, nofun⟩,
      hforeign.linked, htimely⟩

/-- **A request for a path touches no other entry.** After any run of a new engine over any source,
in a cache that others use for entries of their own, let every entry be live, so that none has
expired and no token has fired, and let the source fire none when it is asked. Then a request for a
path other than `config` leaves every other entry standing with its value, whatever the path may be:
the partials of the group, their poller, its other templates and notes, and what is not the group's.
Only a note that an earlier request for a reserved path has left may give way to the partials or the
poller whose key it has. -/
theorem bystanders_stand {source : Source W} {site : Template.Library} {options : EngineOptions}
    {start : Instant} {s₀ s₁ : Session Entry (Poller W) W} {e : Engine W}
    (hcreate : Engine.create source site options start s₀ = (.ok e, s₁))
    (hforeign : s₀.cache.Holds e.keys.Foreign []) (htimely : s₀.cache.Timely start)
    {moves : List (Move W)} (hmoves : ∀ move ∈ moves, move.Foreign e.keys) {Q : W → Prop}
    (hstill : source.Follows (Scene.Still Q)) :
    let σ := (⟨e, start, s₁⟩ : Workshop W).run moves
    Q σ.session.scene.world →
    (∀ key slot, σ.session.cache.entries.get? key = some slot →
      slot.isLive σ.session.cache.epoch σ.now σ.session.scene.signals = true) →
    ∀ (g : Group.Made) (path : String), path ≠ "config" →
      let after := (σ.engine.resolvePath σ.now g.1 path σ.session).2
      ∀ key value, e.keys.Bystander g path key value →
        σ.session.standing σ.now key = some value → after.standing σ.now key = some value := by
  intro σ hworld hlive g path hpath after
  obtain ⟨⟨site', hsite⟩, hmoors, hhangs⟩ := run_in_order hcreate hforeign htimely hmoves
  have hsource : σ.engine.source = source := by
    obtain ⟨⟨keys, rfl⟩, -⟩ := Engine.create_eq_ok hcreate
    rw [hsite]
  have hkeys : σ.engine.keys = e.keys := by rw [hsite]
  have habides := Engine.resolvePath_abides (e := σ.engine) (g := g) (by rw [hsource]; exact hstill)
    (by rw [hsite]; exact hmoors) (by rw [hsite]; exact hhangs) hworld hlive hpath
  rw [hkeys] at habides
  exact habides.stands

/-! ## The path of partials -/

/-- An engine over a source that has no file. -/
def stranger : Engine Nat :=
  { reader with source := { unreadable with isFile := fun _ => counted false } }

def awaiting : Workshop Nat := { opened with engine := stranger }

/-- How the note is kept that there is no page. -/
def missedOptions : Options (Poller Nat) :=
  stranger.guarded 0 home.1 (some ⟨0⟩) stranger.options.timings.missingSliding
    stranger.options.timings.missingRetry

/-- The session when the page was looked up. -/
def missed : Session Entry (Poller Nat) Nat where
  cache := gathered.cache.link 0 "p::Home:~/page.hbs" .missing missedOptions
  scene :=
    { gathered.scene with
      journal := .stored "p::Home:~/page.hbs" :: .miss "p::Home:~/page.hbs" ::
        gathered.scene.journal
      world := 6 }

/-- The partials and the note that there is no page are taken out. -/
def bereft : Cache Entry (Poller Nat) :=
  (missed.cache.unlink "p::Home:config").unlink "p::Home:~/page.hbs"

theorem config_stranger :
    stranger.config 0 home.1 awaiting.session = (⟨{}, [], []⟩, gathered) := by
  have hawaiting : awaiting.session = Session.settle (Poller.moment 0)
      ⟨blank.cache.link 0 "p:global" .global {}, { world := 0, journal := [.stored "p:global"] }⟩
      [] := rfl
  have hconfig : stranger.config 0 home.1 ⟨blank.cache.link 0 "p:global" .global {},
      { world := 0, journal := [.stored "p:global"] }⟩ = (⟨{}, [], []⟩,
        ((Session.note .built : Resolving Nat Unit) (Session.settle (Poller.moment 0)
          { gathered with
            scene := { gathered.scene with journal := gathered.scene.journal.tail } } [])).2) := rfl
  rw [hawaiting, Session.settle_nil, hconfig, Session.settle_nil]
  rfl

theorem lookup_stranger (c : GroupConfig) :
    stranger.lookup 0 home.1 c "~/page.hbs" gathered = (none, missed) := by
  have hlookup : stranger.lookup 0 home.1 c "~/page.hbs" gathered =
      (none, Session.settle (Poller.moment 0) missed []) := rfl
  rw [hlookup, Session.settle_nil]

theorem run_awaiting :
    awaiting.run [.resolvePath home "~/page.hbs"] = { awaiting with session := missed } := by
  have hrun : awaiting.run [.resolvePath home "~/page.hbs"] =
      { awaiting with
        session := (stranger.lookup 0 home.1 (stranger.config 0 home.1 awaiting.session).1
          "~/page.hbs" (stranger.config 0 home.1 awaiting.session).2).2 } := rfl
  rw [hrun, config_stranger, lookup_stranger]

theorem isLive_missed {key : String} {slot : Slot Entry (Poller Nat)}
    (h : missed.cache.entries.get? key = some slot) :
    slot.isLive missed.cache.epoch 0 missed.scene.signals = true := by
  have hlinks : missed.cache = ((blank.cache.link 0 "p:global" .global {}).link 0 "p::Home:config"
      gatheredSlot.value gatheredSlot.options).link 0 "p::Home:~/page.hbs" .missing
        missedOptions := rfl
  rw [hlinks] at h
  rcases Cache.get?_of_get?_link h with ⟨-, rfl⟩ | ⟨-, h⟩
  · rfl
  · rcases Cache.get?_of_get?_link h with ⟨-, rfl⟩ | ⟨-, h⟩
    · rfl
    · rcases Cache.get?_of_get?_link h with ⟨-, rfl⟩ | ⟨-, h⟩
      · rfl
      · cases h

/-- Before and after a request for another page the partials and the note of the first one stand. -/
theorem bystanders_stand_missed :
    let σ := awaiting.run [.resolvePath home "~/page.hbs"]
    let after := (σ.engine.resolvePath σ.now home.1 "~/other.hbs" σ.session).2
    let page := stranger.keys.path home.1 "~/page.hbs"
    let config := stranger.keys.config home.1
    (σ.session.standing σ.now page = some .missing ∧
      σ.session.standing σ.now config = some (.config ⟨{}, [], []⟩)) ∧
    after.standing σ.now page = some .missing ∧
      after.standing σ.now config = some (.config ⟨{}, [], []⟩) := by
  intro σ after page config
  have hcreate : Engine.create stranger.source {} { keyPrefix := some "p" } 0 blank =
      (.ok stranger, awaiting.session) := rfl
  have hmoves : ∀ move ∈ [(.resolvePath home "~/page.hbs" : Move Nat)],
      move.Foreign stranger.keys := List.forall_mem_singleton.2 trivial
  have hstill : stranger.source.Follows (Scene.Still fun _ => True) := by
    constructor <;> exact fun _ _ _ => ⟨trivial, rfl⟩
  have hσ : σ = { awaiting with session := missed } := run_awaiting
  have hlive : ∀ key slot, σ.session.cache.entries.get? key = some slot →
      slot.isLive σ.session.cache.epoch σ.now σ.session.scene.signals = true := by
    rw [hσ]
    exact fun _ _ => isLive_missed
  have hstands := bystanders_stand (Q := fun _ => True) hcreate
    ⟨.dropAll blank.cache, nofun, nofun⟩ nofun hmoves hstill trivial hlive home "~/other.hbs"
    (by decide)
  have hrooted : Rooted "~/page.hbs" := rfl
  have hbefore : σ.session.standing σ.now page = some .missing ∧
      σ.session.standing σ.now config = some (.config ⟨{}, [], []⟩) := by
    rw [hσ]
    exact ⟨rfl, rfl⟩
  exact ⟨hbefore, hstands page _ (KeySpace.bystander_path hrooted (by decide) _) hbefore.1,
    hstands config _ (KeySpace.bystander_config (by decide) _) hbefore.2⟩

theorem detach_missed : missed.cache.detach "p::Home:config" = some ⟨gatheredSlot, bereft,
    [⟨"p::Home:~/page.hbs", ⟨.missing, missedOptions, 0⟩, .dependencyChanged⟩]⟩ := by
  let rest := missed.cache.unlink "p::Home:config"
  have hdetach : missed.cache.detach "p::Home:config" = some ⟨gatheredSlot,
      (rest.cascade ["p::Home:~/page.hbs"]).1, (rest.cascade ["p::Home:~/page.hbs"]).2⟩ := rfl
  have hpage : rest.entries.get? "p::Home:~/page.hbs" = some ⟨.missing, missedOptions, 0⟩ := rfl
  have hcascade : rest.cascade ["p::Home:~/page.hbs"] = _ := Cache.cascade_cons_some hpage []
  have hnil : (rest.unlink "p::Home:~/page.hbs").cascade [] = _ := Cache.cascade.eq_1 _
  rw [hdetach, hcascade]
  change some (Cache.Detached.mk _ (Cache.cascade _ []).1 (_ :: (Cache.cascade _ []).2)) = _
  rw [hnil]
  rfl

/-- The note for the path would depend on itself. It is refused, and its place has been cleared. -/
theorem cache_missed : (stranger.resolvePath 0 home.1 "config" missed).2.cache = bereft := by
  let found : Scene Nat :=
    { missed.scene with
      journal := .hit "p::Home:config" :: .hit "p::Home:config" :: missed.scene.journal
      world := 8 }
  have hresolve : (stranger.resolvePath 0 home.1 "config" missed).2 = (Session.insert
      (Poller.moment 0) "p::Home:config" .missing missedOptions ⟨missed.cache, found⟩).2 := rfl
  have hplace : missed.cache.place 0 found.signals "p::Home:config" .missing missedOptions =
      ⟨bereft, found.signals,
        [⟨"p::Home:~/page.hbs", ⟨.missing, missedOptions, 0⟩, .dependencyChanged⟩], true,
          false⟩ := by
    unfold Cache.place
    rw [Cache.cleared_of_some detach_missed]
    rfl
  rw [hresolve]
  unfold Session.insert
  simp only [Poller.moment, hplace]
  rw [Session.consultAll_silent (List.forall_mem_singleton.2 rfl)]
  rfl

/-- **A path that has the key of the partials.** Everything is live, and a request for the path
`config`, where there is no file, drops the partials of the group and the note for another path. -/
theorem dropped_for_path :
    let σ := awaiting.run [.resolvePath home "~/page.hbs"]
    let after := (σ.engine.resolvePath σ.now home.1 "config" σ.session).2
    Engine.create stranger.source {} { keyPrefix := some "p" } 0 blank =
      (.ok stranger, awaiting.session) ∧
    (∀ key slot, σ.session.cache.entries.get? key = some slot →
      slot.isLive σ.session.cache.epoch σ.now σ.session.scene.signals = true) ∧
    stranger.keys.path home.1 "~/page.hbs" ≠ stranger.keys.path home.1 "config" ∧
    σ.session.standing σ.now (stranger.keys.path home.1 "~/page.hbs") = some .missing ∧
    σ.session.standing σ.now (stranger.keys.config home.1) = some (.config ⟨{}, [], []⟩) ∧
    after.standing σ.now (stranger.keys.path home.1 "~/page.hbs") = none ∧
    after.standing σ.now (stranger.keys.config home.1) = none := by
  rw [run_awaiting]
  have hnone : ∀ key, bereft.entries.get? key = none →
      (stranger.resolvePath 0 home.1 "config" missed).2.standing 0 key = none := by
    intro key hget
    rw [Session.standing, cache_missed, hget]
    rfl
  exact ⟨rfl, fun _ _ => isLive_missed, by decide, rfl, rfl, hnone _ rfl, hnone _ rfl⟩

end Workshop

end Templating
