import Templating.Proofs.Engine.Clearing
import Templating.Proofs.Engine.Filing

/-!
# Partials stand when they were asked for

What has a hook depends on partials and on the global entry, and on nothing else
(`Engine.Tended.hooked`). So where a group's partials are put together, no poller hangs off the
entry that they replace, which might take them out again, and they stand when they were asked for
(`Engine.standing_config`).
-/

namespace Templating

open Relation
open Work (Answers Takes)

namespace Engine

variable {W : Type} {e : Engine W} {now : Instant} {g : Group.Made} {c : GroupConfig}
  {push : Bool} {S : Scene W → Prop} {key : String} {value : Entry} {options : Options (Poller W)}

/-! ## The lull in which partials are put together -/

/-- There is a lull, all entries but notes hang off the global one, and every entry is filed. -/
structure Tended (e : Engine W) (push : Bool) (S : Scene W → Prop) (Q : W → Prop)
    (fired : List Token) (now : Instant) (s : Session Entry (Poller W) W) : Prop where
  lulls : e.Lulls Q fired now s []
  hangs : e.Hangs now (fun _ => False) s
  filing : e.Filing push S s []

namespace Tended

variable {Q : W → Prop} {fired : List Token} {s : Session Entry (Poller W) W}
  (h : e.Tended push S Q fired now s)

section Depends

include h

/-- The global entry depends on nothing. -/
theorem not_global_depends (key : String) : ¬TransGen s.cache.DependsOn e.keys.global key := by
  intro hdep
  have hlinked := h.lulls.lull.linked
  obtain ⟨parent, hparent, -⟩ := TransGen.head'_iff.1 hdep
  obtain ⟨slot, hslot⟩ := Option.isSome_iff_exists.1
    (hlinked.toConsistent.stored_of_dependsOn hparent)
  have hmem := (hlinked.recorded _ slot hslot parent).1 hparent
  rw [h.hangs.1.root slot hslot] at hmem
  cases hmem

/-- What stands under the key of partials depends on the global entry at most. -/
theorem eq_global_of_config (hdep : TransGen s.cache.DependsOn (e.keys.config g.1) key) :
    key = e.keys.global := by
  have hlinked := h.lulls.lull.linked
  obtain ⟨parent, hparent, hrest⟩ := TransGen.head'_iff.1 hdep
  obtain ⟨slot, hslot⟩ := Option.isSome_iff_exists.1
    (hlinked.toConsistent.stored_of_dependsOn hparent)
  have hmem := (hlinked.recorded _ slot hslot parent).1 hparent
  rcases ((h.filing.1.stored _ slot hslot).config g rfl).2 with ⟨-, hkeys⟩ | hself
  · rw [hkeys, List.mem_singleton] at hmem
    subst hmem
    exact (reflTransGen_iff_eq_or_transGen.1 hrest).resolve_right (h.not_global_depends key)
  · rw [hself parent hmem] at hparent
    exact absurd (.single hparent) (hlinked.acyclic _)

/-- **What has a hook** depends on partials and on the global entry, and on nothing else. -/
theorem hooked {other : String} {slot : Slot Entry (Poller W)}
    (hget : s.cache.entries.get? other = some slot) (hhook : slot.options.hook ≠ none)
    (hdep : TransGen s.cache.DependsOn other key) : key = e.keys.global ∨
      ∃ (g : Group.Made) (c : GroupConfig), key = e.keys.config g.1 ∧
        s.standing now key = some (.config c) := by
  have hlull := h.lulls.lull
  obtain ⟨p, hp⟩ := Option.ne_none_iff_exists'.1 hhook
  obtain ⟨-, howns, snap, hvalue⟩ := (h.filing.1.stored other slot hget).hook p hp
  have hguards := h.hangs.1.guards other slot snap howns hget hvalue
  obtain ⟨g, hconfig⟩ := hguards.configKey
  obtain ⟨parent, hparent, hreaches⟩ := hlull.linked.keys_of_transGen hget hdep
  have hdepends := (hlull.linked.recorded other slot hget parent).2 hparent
  rw [hguards.keys, List.mem_singleton] at hparent
  subst hparent
  rcases hreaches with rfl | hreaches
  · -- The partials beside a poller depend on something, and that is not themselves.
    obtain ⟨found, hfound⟩ := Option.isSome_iff_exists.1 (hlull.linked.parent_stored _ _ hdepends)
    have hgrown := h.hangs.1.grown_of_poll howns hget hvalue found hfound
    rcases ((h.filing.1.stored _ found hfound).config g hconfig).2 with ⟨⟨c, hc⟩, -⟩ | hself
    · refine .inr ⟨g, c, hconfig, Session.standing_eq_some.2 ⟨found, hfound, ?_, hc⟩⟩
      refine (hlull.quiet _ found hfound).resolve_right fun hleaf => ?_
      rw [hconfig] at hleaf
      exact e.keys.not_leaf_config g hleaf.1
    · obtain ⟨parent, hmem⟩ := List.exists_mem_of_ne_nil _ hgrown
      have hcycle := (hlull.linked.recorded _ found hfound parent).2 hmem
      rw [hself parent hmem] at hcycle
      exact absurd (.single hcycle) (hlull.linked.acyclic _)
  · rw [hconfig] at hreaches
    exact .inl (h.eq_global_of_config hreaches)

end Depends

/-! ### Operations -/

section Operations

variable (hstill : e.source.Follows (Scene.Still Q)) (hissues : e.source.Issues S push)

theorem takes_onScene {α : Type} {act : Act W α} (hact : act.Follows (Scene.Still Q))
    (hS : act.Follows fun a b => S a → S b) : Takes (e.Tended push S Q fired now)
      (e.Tended push S Q fired now) (Session.onScene act : Resolving W α) := by
  intro s h
  obtain ⟨hworld, hfired⟩ := hact s.scene h.lulls.lull.world
  exact ⟨⟨h.lulls.holds, (h.lulls.lull.scene _ hworld hfired).1⟩, ⟨h.hangs.1, trivial⟩,
    h.filing.1, hS s.scene h.filing.2⟩

include hstill hissues

theorem takes_get (key : String) : Takes (e.Tended push S Q fired now)
    (e.Tended push S Q fired now) (Session.get (Poller.moment now) key) := fun s h =>
  ⟨(lasting_lulls e now fired hstill).get key s h.lulls,
    (e.steady_hangs now (fun _ => False) nofun).get key s h.hangs,
    (lasting_filing now hissues).get key s h.filing⟩

include h

theorem insert (hlasts : e.Lasts now key value options) (hfiled : e.Filed push key value options)
    (hhangs : e.Hangs now (fun _ => False)
      (Session.insert (Poller.moment now) key value options s).2) :
    e.Tended push S Q fired now (Session.insert (Poller.moment now) key value options s).2 :=
  ⟨(lasting_lulls e now fired hstill).insert hlasts s h.lulls, hhangs,
    (lasting_filing now hissues).insert hfiled s h.filing⟩

/-- The global entry is there when this was made sure of, and nothing else has changed. -/
theorem ensureGlobal : let s' := (e.ensureGlobal now s).2
    e.Tended push S Q fired now s' ∧ (s'.cache.entries.get? e.keys.global).isSome = true ∧
      ∀ key, key ≠ e.keys.global → s'.standing now key = s.standing now key := by
  intro s'
  have hlull := h.lulls.lull
  rcases hlull.insertIfAbsent_cases (m := Poller.moment now) .global {} e.keys.not_leaf_global with
    ⟨hstored, heq⟩ | ⟨-, hchild, heq⟩
  · have hs' : s' = s := congrArg Prod.snd heq
    rw [hs']
    exact ⟨h, hstored, fun _ _ => rfl⟩
  · have hs' : s' = (Session.insert (Poller.moment now) e.keys.global .global {} s).2 :=
      congrArg Prod.snd heq
    have hnone : ∀ other, ¬TransGen s.cache.DependsOn other e.keys.global := by
      intro other hdep
      obtain ⟨child, -, hlast⟩ := TransGen.tail'_iff.1 hdep
      exact hchild child hlast
    obtain ⟨-, hstands, hothers⟩ := Session.insert_stands (m := Poller.moment now) .global {}
      hlull.linked (fun other _ _ hdep => absurd hdep (hnone other)) (List.forall_mem_nil _)
      (List.forall_mem_nil _) trivial
    rw [hs']
    refine ⟨h.insert hstill hissues ⟨⟨nofun, nofun⟩, fun _ _ => rfl⟩ filed_global ?_, ?_,
      fun key hne => hothers key hne (hnone key)⟩
    · exact (e.steady_hangs now (fun _ => False) nofun).insert (fun _ _ _ => .atGlobal id) s h.hangs
    · obtain ⟨slot, hslot, -⟩ := Session.standing_eq_some.1 hstands
      exact Option.isSome_iff_exists.2 ⟨slot, hslot⟩

/-- Partials are put in, beside the global entry. They stand. -/
theorem insert_config (hcold : ∀ c, s.standing now (e.keys.config g.1) ≠ some (.config c))
    (hglobal : (s.cache.entries.get? e.keys.global).isSome = true) {tokens : List Token}
    (htokens : ∀ t ∈ tokens, t ∉ fired) :
    let r := Session.insert (Poller.moment now) (e.keys.config g.1) (.config c)
      { keys := [e.keys.global], tokens } s
    r.1 = true ∧ e.Tended push S Q fired now r.2 ∧
      r.2.standing now (e.keys.config g.1) = some (.config c) := by
  intro r
  have hne := e.keys.global_ne_config g.1
  have hsilent : ∀ other slot, s.cache.entries.get? other = some slot →
      TransGen s.cache.DependsOn other (e.keys.config g.1) → slot.options.hook = none := by
    intro other slot hget hdep
    by_contra hhook
    rcases h.hooked hget hhook hdep with heq | ⟨-, v, -, hstands⟩
    · exact hne heq.symm
    · exact hcold v hstands
  obtain ⟨hstored, hstands, -⟩ := Session.insert_stands (m := Poller.moment now)
    (.config c) { keys := [e.keys.global], tokens } h.lulls.lull.linked
    hsilent (List.forall_mem_singleton.2 ⟨hne, hglobal, h.not_global_depends _⟩)
    (fun t ht => by
      rw [← h.lulls.lull.fired] at htokens
      simpa [Signals.hasFired] using htokens t ht) trivial
  refine ⟨hstored, h.insert hstill hissues ((admits_lasts e now g).config c tokens)
    ((admits_filed e now g push).config c tokens) ?_, hstands⟩
  refine (e.steady_hangs now (fun _ => False) fun _ => False.elim).insert
    (fun _ _ _ => .below rfl hne.symm (.inr (.inl rfl)) ?_) s h.hangs
  rintro snap ⟨⟩

/-- A poller is armed beside partials that stand. They stay. -/
theorem insert_poll (hstands : s.standing now (e.keys.config g.1) = some (.config c))
    (serial : Nat) {snap : Snapshot} (hkey : snap.configKey = e.keys.config g.1) :
    let s' := (Session.insert (Poller.moment now) (KeySpace.poller snap.configKey serial)
      (.poll snap) (e.poller.options now snap.configKey) s).2
    e.Tended push S Q fired now s' ∧
      s'.standing now (e.keys.config g.1) = some (.config c) := by
  intro s'
  obtain ⟨slot, hslot, -, hvalue⟩ := Session.standing_eq_some.1 hstands
  have hplace : KeySpace.poller snap.configKey serial =
      e.keys.path g.1 (KeySpace.pollerPath serial) := by
    rw [hkey, KeySpace.poller_eq_path]
  have hglobal : KeySpace.poller snap.configKey serial ≠ e.keys.global := by
    rw [hplace]
    exact (e.keys.global_ne_path g.1 _).symm
  have hconfig : ∀ g' : Group.Made, KeySpace.poller snap.configKey serial ≠
      e.keys.config g'.1 := by
    intro g' heq
    rw [hplace] at heq
    exact KeySpace.pollerPath_ne_config serial (e.keys.path_injective g.2 g'.2 heq).2
  have hapart : ¬TransGen s.cache.DependsOn (e.keys.config g.1)
      (KeySpace.poller snap.configKey serial) := fun hdep => hglobal (h.eq_global_of_config hdep)
  have hsilent : ∀ other slot, s.cache.entries.get? other = some slot →
      TransGen s.cache.DependsOn other (KeySpace.poller snap.configKey serial) →
        slot.options.hook = none := by
    intro other slot hget hdep
    by_contra hhook
    rcases h.hooked hget hhook hdep with heq | ⟨g', -, heq, -⟩
    · exact hglobal heq
    · exact hconfig g' heq
  have hparents : ∀ parent ∈ [snap.configKey], parent ≠ KeySpace.poller snap.configKey serial ∧
      (s.cache.entries.get? parent).isSome = true ∧
        ¬TransGen s.cache.DependsOn parent (KeySpace.poller snap.configKey serial) := by
    refine List.forall_mem_singleton.2 ?_
    rw [hkey] at hapart hconfig ⊢
    exact ⟨(hconfig g).symm, Option.isSome_iff_exists.2 ⟨slot, hslot⟩, hapart⟩
  have hlasts := (admits_lasts e now g).poll serial snap hkey
  obtain ⟨-, -, hothers⟩ := Session.insert_stands (m := Poller.moment now) (.poll snap)
    (e.poller.options now snap.configKey) h.lulls.lull.linked hsilent hparents
    (List.forall_mem_nil _) (Nat.lt_add_of_pos_right e.options.timings.poll_pos)
  refine ⟨h.insert hstill hissues hlasts ((admits_filed e now g push).poll serial snap hkey) ?_,
    (hothers _ (hconfig g).symm hapart).trans hstands⟩
  -- The poller hangs off the global entry, since its partials do.
  have hafter := e.steady_hangs now (· = e.keys.config g.1) fun key heq => by
    rw [heq]
    exact e.keys.owns_config g
  have hgrown : Hung e.keys (e.noteLimit now) (· = e.keys.config g.1) s.cache [] := by
    refine h.hangs.1.with_grown ?_
    rintro _ rfl
    exact h.hangs.1.grown_of_transGen (h.hangs.1.transGen_of_ne_missing (e.keys.owns_config g)
      (e.keys.global_ne_config g.1).symm hslot (by rw [hvalue]; nofun))
  refine (Takes.mono (hafter.insert fun cache hung _ => .below rfl hglobal (.inr (.inr ?_)) ?_)
    (fun _ hs => hs) fun _ hs => ⟨hs.1.mono (Nat.le_refl _) nofun, trivial⟩) s ⟨hgrown, trivial⟩
  · rw [hkey]
    exact ⟨e.keys.owns_config g, hung.grown _ rfl⟩
  · rintro _ ⟨⟩
    exact ⟨hglobal, ⟨g, hkey⟩, rfl⟩

end Operations

end Tended

section Config

variable {Q : W → Prop} {fired : List Token} (hstill : e.source.Follows (Scene.Still Q))
  (hissues : e.source.Issues S push)

include hstill hissues

/-- **A build** leaves the partials standing that it answers with. -/
theorem answers_build_standing : Answers
    (fun s => e.Tended push S Q fired now s ∧
      ∀ c, s.standing now (e.keys.config g.1) ≠ some (.config c))
    (fun c s => e.Tended push S Q fired now s ∧
      s.standing now (e.keys.config g.1) = some (.config c))
    (e.build now g.1) := by
  let A (s : Session Entry (Poller W) W) : Prop := e.Tended push S Q fired now s ∧
    (∀ c, s.standing now (e.keys.config g.1) ≠ some (.config c)) ∧
      (s.cache.entries.get? e.keys.global).isSome = true
  let D (found : Gathering) (s : Session Entry (Poller W) W) : Prop :=
    e.Tended push S Q fired now s ∧
      s.standing now (e.keys.config g.1) = some (.config found.config)
  have hscene : ∀ {α : Type} {act : Act W α}, act.Follows (Scene.Still Q) →
      act.Follows (fun a b => S a → S b) → ∀ s, e.Tended push S Q fired now s →
        e.Tended push S Q fired now (Session.onScene act s).2 ∧
          s.Same now (Session.onScene act s).2 := by
    intro α act hact hS s hs
    obtain ⟨hworld, hfired⟩ := hact s.scene hs.lulls.lull.world
    exact ⟨Tended.takes_onScene hact hS s hs, (hs.lulls.lull.scene _ hworld hfired).2⟩
  have hcourse := hissues.steadfast.course
  refine answers_build (A := A) (B := fun found s => A s ∧ ∀ t ∈ found.tokens, t ∉ fired)
    (C := fun found stored s => stored = true ∧ D found s) (D := fun found _ => D found)
    (R := fun c s => e.Tended push S Q fired now s ∧
      s.standing now (e.keys.config g.1) = some (.config c))
    (fun s hs => ?global) (fun s hs => ?gather) (fun found s hs => ?insert)
    (fun found _ s hs => ?fingerprints) (fun found fingerprints s hs => ?arm)
    (fun _ _ _ _ hs => hs.2) fun c s hs => ?note
  case global =>
    obtain ⟨htended, hglobal, hsame⟩ := hs.1.ensureGlobal hstill hissues
    refine ⟨htended, fun c hc => hs.2 c ?_, hglobal⟩
    rw [← hc]
    exact (hsame _ (e.keys.global_ne_config g.1).symm).symm
  case gather =>
    obtain ⟨htended, hsame⟩ := hscene (hstill.gather (Scene.course_still Q) _ _ _)
      (hissues.follows.gather hcourse _ _ _) s hs.1
    refine ⟨⟨htended, fun c hc => hs.2.1 c ((hsame _).symm.trans hc), hs.2.2⟩, ?_⟩
    rw [← hs.1.lulls.lull.fired]
    exact hissues.not_mem_gather hstill hs.1.filing.2 hs.1.lulls.lull.world _ _ _
  case insert =>
    obtain ⟨⟨htended, hcold, hglobal⟩, htokens⟩ := hs
    exact htended.insert_config hstill hissues hcold hglobal htokens
  case fingerprints =>
    obtain ⟨htended, hsame⟩ := hscene (hstill.fingerprints (Scene.course_still Q) found)
      (hissues.follows.fingerprints hcourse found) s hs.2.1
    exact ⟨htended, (hsame _).trans hs.2.2⟩
  case arm =>
    obtain ⟨htended, hsame⟩ := hscene (Scene.course_still Q).takeSerial hcourse.takeSerial s hs.1
    exact htended.insert_poll hstill hissues ((hsame _).trans hs.2) _ rfl
  case note =>
    obtain ⟨htended, hsame⟩ := hscene (.note (Scene.course_still Q) .built)
      (.note hcourse .built) s hs.1
    exact ⟨htended, (hsame _).trans hs.2⟩

/-- **The partials of a group stand** when they were asked for. -/
theorem standing_config {s : Session Entry (Poller W) W} (h : e.Watches now s [])
    (hhangs : e.Hangs now (fun _ => False) s) (hfiling : e.Filing push S s [])
    (hworld : Q s.scene.world) :
    let r := e.config now g.1 s
    e.Tended push S Q s.scene.signals.fired now r.2 ∧
      r.2.standing now (e.keys.config g.1) = some (.config r.1) := by
  obtain ⟨hlulls, hstands⟩ := lulls_get hstill h hworld (e.keys.config g.1)
  have hfirst : e.Tended push S Q s.scene.signals.fired now
      (Session.get (Poller.moment now) (e.keys.config g.1) s).2 :=
    ⟨hlulls, (e.steady_hangs now (fun _ => False) nofun).get _ s hhangs,
      (lasting_filing now hissues).get _ s hfiling⟩
  cases hcached : (e.cachedConfig? now g.1 s).1 with
  | some c =>
    rw [config_of_cached hcached]
    refine ⟨hfirst, hstands.trans ?_⟩
    rw [cachedConfig_eq] at hcached
    split at hcached
    · next heq =>
      cases hcached
      exact heq
    · cases hcached
  | none =>
    obtain ⟨-, hcold, hbuild⟩ := config_of_cold hstill h hworld hcached
    rw [hbuild]
    exact answers_build_standing hstill hissues _
      ⟨Tended.takes_get hstill hissues _ _ hfirst, hcold⟩

end Config

end Engine

end Templating
