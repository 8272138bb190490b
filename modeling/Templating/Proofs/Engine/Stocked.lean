import Templating.Proofs.Engine.Poised
import Templating.Proofs.Engine.Tended

/-!
# What was looked up is kept

An engine that keeps views, and that keeps whatever it keeps for a millisecond at least
(`EngineOptions.Patient`), has what it needs in its cache when a path was looked up: the next
look-up is settled by what stands under the path's key (`Engine.answers_lookup_stocked`). Then the
source is asked for nothing but a fingerprint, and for that only if a template is found and the
source hands out no tokens (`Engine.Stocked.lookup`).
-/

namespace Templating

open Relation
open Template (Compiled)
open Work (Answers Takes)

/-- Views are kept, and what is kept is kept for a millisecond at least. -/
structure EngineOptions.Patient (options : EngineOptions) : Prop where
  views : ∃ window, options.viewsSliding = some window ∧ Duration.ofMillis 1 ≤ window
  missingSliding : Duration.ofMillis 1 ≤ options.timings.missingSliding
  missingRetry : Duration.ofMillis 1 ≤ options.timings.missingRetry
  viewRecheck : Duration.ofMillis 1 ≤ options.timings.viewRecheck
  compileFailureRetry : Duration.ofMillis 1 ≤ options.timings.compileFailureRetry

/-- What is put in until some time later is not out of date at once. -/
theorem Expiration.lasts_absolute {now : Instant} {time : Duration}
    (h : Duration.ofMillis 1 ≤ time) : (Expiration.absolute (now + time)).Lasts now :=
  Nat.lt_add_of_pos_right (Nat.lt_of_lt_of_le (by decide) h)

namespace Engine

variable {W : Type} {e : Engine W} {now : Instant} {g : Group.Made} {c : GroupConfig} {r : Report}
  {Q : W → Prop} {fired : List Token} {look : String → Option Compiled} {push : Bool}
  {S : Scene W → Prop} {P P' : String → Prop} {s s' : Session Entry (Poller W) W} {path : String}
  {value : Entry} {options : Options (Poller W)}

/-- The engine is poised to answer look-ups, its entries are filed, and its partials stand. Where
paths are as `P` says, their look-up is settled. -/
structure Stocked (e : Engine W) (now : Instant) (g : Group.Made) (c : GroupConfig) (r : Report)
    (Q : W → Prop) (fired : List Token) (look : String → Option Compiled) (push : Bool)
    (S : Scene W → Prop) (P : String → Prop) (s : Session Entry (Poller W) W) : Prop
    extends e.Poised now g c r Q fired look s where
  filing : e.Filing push S s []
  partials : s.standing now (e.keys.config g.1) = some (.config c)
  settled : ∀ path, P path → Rooted path →
    r.Settles path (s.standing now (e.keys.path g.1 path))

theorem lasts_guarded (h : e.options.Patient) (token : Option Token) :
    (e.guarded now g.1 token e.options.timings.missingSliding
      e.options.timings.missingRetry).expiration.Lasts now ∧
    ∀ window, e.options.viewsSliding = some window → (e.guarded now g.1 token window
      e.options.timings.viewRecheck).expiration.Lasts now := by
  obtain ⟨window, hwindow, hle⟩ := h.views
  cases token with
  | none => exact ⟨Expiration.lasts_absolute h.missingRetry,
      fun _ _ => Expiration.lasts_absolute h.viewRecheck⟩
  | some t =>
    refine ⟨h.missingSliding, fun other hother => ?_⟩
    cases hwindow.symm.trans hother
    exact hle

namespace Stocked

section Changes

variable (h : e.Stocked now g c r Q fired look push S P s)

include h

theorem weaken (hfewer : ∀ path, P' path → P path) :
    e.Stocked now g c r Q fired look push S P' s :=
  { h with settled := fun path hpath => h.settled path (hfewer path hpath) }

theorem same (hlull : s'.Lull e.keys.Leaf Q fired now) (hsame : s.Same now s')
    (hfiling : e.Filing push S s' []) : e.Stocked now g c r Q fired look push S P s' where
  toPoised := h.toPoised.same hlull hsame
  filing := hfiling
  partials := (hsame _).trans h.partials
  settled path hpath hrooted := by
    rw [hsame]
    exact h.settled path hpath hrooted

theorem scene (scene : Scene W) (hstill : Scene.Still Q s.scene scene) (hS : S scene) :
    e.Stocked now g c r Q fired look push S P { s with scene } :=
  have ⟨hworld, hfired⟩ := hstill h.lull.world
  have ⟨hlull, hsame⟩ := h.lull.scene scene hworld hfired
  h.same hlull hsame ⟨h.filing.1, hS⟩

/-- A template that stands has a fingerprint unless the source pushes changes. -/
theorem marked (path : String) {t : Compiled}
    (hstands : s.standing now (e.keys.path g.1 path) = some (.compiled t)) :
    t.fingerprint.isNone = push := by
  obtain ⟨slot, hslot, -, hvalue⟩ := Session.standing_eq_some.1 hstands
  exact (h.filing.1.stored _ slot hslot).compiled (e.keys.owns_path g path) t hvalue

/-- What stands under one path's key may change. -/
theorem of_ne (hposed : e.Poised now g c r Q fired look s') (hfiling : e.Filing push S s' [])
    (hrooted : Rooted path)
    (hothers : ∀ key, key ≠ e.keys.path g.1 path → s'.standing now key = s.standing now key) :
    e.Stocked now g c r Q fired look push S (fun other => P other ∧ other ≠ path) s' where
  toPoised := hposed
  filing := hfiling
  partials := (hothers _ (e.keys.config_ne_path g hrooted)).trans h.partials
  settled other hother hrooted' := by
    rw [hothers _ fun heq => hother.2 (e.keys.path_injective g.2 g.2 heq).2]
    exact h.settled other hother.1 hrooted'

end Changes

/-! ## Entries are read, put in and taken out -/

variable (hissues : e.source.Issues S push)

include hissues

/-- A read changes nothing that can be seen. -/
theorem get (h : e.Stocked now g c r Q fired look push S P s) (key : String) :
    let a := Session.get (Poller.moment now) key s
    a.1 = s.standing now key ∧ s.Same now a.2 ∧
      e.Stocked now g c r Q fired look push S P a.2 ∧ a.2.scene.world = s.scene.world := by
  obtain ⟨hanswer, hlull, hsame⟩ := h.lull.get (m := Poller.moment now) key
  exact ⟨hanswer, hsame, h.same hlull hsame ((lasting_filing now hissues).get key s h.filing),
    h.lull.world_get (m := Poller.moment now) key⟩

variable (hrooted : Rooted path)

include hrooted

theorem remove (h : e.Stocked now g c r Q fired look push S P s)
    (htemplate : r.template c.library path = look path) :
    e.Stocked now g c r Q fired look push S (fun other => P other ∧ other ≠ path)
      (Session.remove (Poller.moment now) (e.keys.path g.1 path) s).2 :=
  h.of_ne (h.toPoised.remove hrooted htemplate) ((lasting_filing now hissues).remove _ s h.filing)
    hrooted (h.lull.remove_leaf (m := Poller.moment now) (e.keys.leaf_path g hrooted)).2.1

/-- What is put in for a path settles its look-up. -/
theorem insert (h : e.Stocked now g c r Q fired look push S (fun other => P other ∧ other ≠ path) s)
    (hvalue : r.judge c.library path (some value) = look path)
    (hsettles : r.Settles path (some value))
    (hfiled : e.Filed push (e.keys.path g.1 path) value options)
    (hkeys : ∀ parent ∈ options.keys, parent = e.keys.config g.1)
    (htokens : ∀ t ∈ options.tokens, t ∉ fired) (hlasts : options.expiration.Lasts now) :
    e.Stocked now g c r Q fired look push S (fun other => other = path ∨ P other)
      (Session.insert (Poller.moment now) (e.keys.path g.1 path) value options s).2 := by
  have hleaf := e.keys.leaf_path g hrooted
  have hne := e.keys.config_ne_path g hrooted
  have hhook : options.hook = none := by
    by_contra hsome
    obtain ⟨p, hp⟩ := Option.ne_none_iff_exists'.1 hsome
    obtain ⟨-, -, snap, rfl⟩ := hfiled.hook p hp
    exact hsettles
  obtain ⟨slot, hslot, -⟩ := Session.standing_eq_some.1 h.partials
  obtain ⟨-, hself, hothers⟩ := Session.insert_stands (m := Poller.moment now) value options
    h.lull.linked
    (fun other _ _ hdep => absurd hdep (h.lull.not_transGen_leaf (m := Poller.moment now) hleaf _))
    (fun parent hparent => by
      rw [hkeys parent hparent]
      exact ⟨hne, Option.isSome_iff_exists.2 ⟨slot, hslot⟩,
        h.lull.not_transGen_leaf (m := Poller.moment now) hleaf _⟩)
    (fun t ht => by
      have hnew := htokens t ht
      rw [← h.lull.fired] at hnew
      simpa [Signals.hasFired] using hnew) hlasts
  have hbarren : ∀ parent ∈ options.keys, ¬e.keys.Leaf parent := fun parent hparent => by
    rw [hkeys parent hparent]
    exact e.keys.not_leaf_config g
  have hlull := (h.lull.insert_leaf (m := Poller.moment now) hleaf value hhook hbarren).1
  have hothers : ∀ key, key ≠ e.keys.path g.1 path → _ := fun key hother =>
    hothers key hother (h.lull.not_transGen_leaf (m := Poller.moment now) hleaf key)
  have hposed : e.Poised now g c r Q fired look _ := h.toPoised.of_ne hlull hothers (by
    exact (congrArg (r.judge c.library path) hself).trans hvalue)
  have hstocked := h.of_ne hposed ((lasting_filing now hissues).insert hfiled s h.filing) hrooted
    hothers
  refine { hstocked with settled := fun other hother hrooted' => ?_ }
  by_cases heq : other = path
  · rw [heq]
    exact hself ▸ hsettles
  · have hbefore := hother.resolve_left heq
    exact hstocked.settled other ⟨⟨hbefore, heq⟩, heq⟩ hrooted'

end Stocked

/-! ## The first look-up -/

section First

variable (hreports : e.source.Reports Q r) (hissues : e.source.Issues S push)

include hreports hissues

theorem consults_stocked (path : String) : e.Consults r path
    (fun token => token.isSome = push ∧ ∀ t ∈ token.toList, t ∉ fired)
    (e.Stocked now g c r Q fired look push S P) := by
  have hcourse := hissues.steadfast.course
  have hcall : ∀ {α : Type} {act : Act W α} {R : α → Prop}, act.Follows (Scene.Still Q) →
      act.Follows (fun a b => S a → S b) →
      (∀ scene, S scene → Q scene.world → scene.signals.fired = fired → R (act scene).1) →
      Answers (e.Stocked now g c r Q fired look push S P)
        (fun a s => R a ∧ e.Stocked now g c r Q fired look push S P s)
        (Session.onScene act : Resolving W α) := fun hstill hS hanswer s hs =>
    ⟨hanswer s.scene hs.filing.2 hs.lull.world hs.lull.fired,
      hs.scene _ (hstill s.scene) (hS s.scene hs.filing.2)⟩
  refine
    { token := hcall (hreports.changeToken?_still path) (hissues.follows.changeToken? hcourse path)
        fun scene hS hQ hfired => ⟨hreports.isSome_changeToken? hQ path,
          hissues.pushes path scene hS, fun t ht => ?_⟩
      isFile := hcall (hreports.still.isFile path) (hissues.follows.isFile path)
        fun scene _ hQ _ => hreports.isFile path scene hQ
      read := hcall (hreports.still.read path) (hissues.follows.read path)
        fun scene _ hQ _ => hreports.read path scene hQ
      fingerprint := hcall (hreports.still.fingerprint path) (hissues.follows.fingerprint path)
        fun scene _ hQ _ => hreports.fingerprint path scene hQ
      note := fun event s hs => hs.scene _ (fun hworld => ⟨hworld, rfl⟩)
        (hcourse.note s.scene event hs.filing.2) }
  rw [← hfired]
  exact hissues.not_mem_changeToken? hS (Option.mem_toList.1 ht)

omit hreports in
/-- What is kept about a path settles its look-up. -/
theorem remembers_stocked (hpatient : e.options.Patient) (hrooted : Rooted path)
    (hdigest : ∀ source err, r.read path = .ok source → r.fingerprint path ≠ .error err)
    (htemplate : r.template c.library path = look path) :
    e.Remembers now g.1 r path (look path)
      (fun token => token.isSome = push ∧ ∀ t ∈ token.toList, t ∉ fired)
      (e.Stocked now g c r Q fired look push S fun other => P other ∧ other ≠ path)
      (e.Stocked now g c r Q fired look push S fun other => other = path ∨ P other) where
  compiled token t hV hnone hpath ht := by
    subst hpath
    have hconfirms := Report.judge_template (htemplate.trans ht)
    unfold rememberCompiled
    split
    · next hviews =>
      obtain ⟨window, hwindow, -⟩ := hpatient.views
      cases hviews.symm.trans hwindow
    · next window hviews =>
      refine .bind (fun s hs => hs.insert hissues hrooted (hconfirms.trans ht.symm)
        (Report.confirms_template (htemplate.trans ht)) (filed_guarded ?_)
        (fun _ => List.mem_singleton.1) hV.2 ((lasts_guarded hpatient token).2 _ hviews))
        fun _ => .pure _
      rintro _ ⟨⟩
      exact hnone.trans hV.1
  missing token hV hnone := by
    have hfiled : e.Filed push (e.keys.path g.1 path) .missing (e.guarded now g.1 token
        e.options.timings.missingSliding e.options.timings.missingRetry) := filed_guarded nofun
    exact .bind (fun s hs => hs.insert hissues hrooted hnone.symm trivial hfiled
      (fun _ => List.mem_singleton.1) hV.2 (lasts_guarded hpatient token).1) fun _ => .pure _
  broken hnone := .bind (fun s hs => hs.insert hissues hrooted hnone.symm trivial filed_broken
    (List.forall_mem_nil _) (List.forall_mem_nil _)
    (Expiration.lasts_absolute hpatient.compileFailureRetry)) fun _ => .pure _
  unkept source err hread herr := absurd herr (hdigest source err hread)

/-- **A look-up settles the next one** for its path, and leaves those settled that were. -/
theorem answers_lookup_stocked (hpatient : e.options.Patient) (hrooted : Rooted path)
    (hdigest : ∀ source err, r.read path = .ok source → r.fingerprint path ≠ .error err) :
    Answers (e.Stocked now g c r Q fired look push S P)
      (fun t? s => t? = look path ∧
        e.Stocked now g c r Q fired look push S (fun other => other = path ∨ P other) s)
      (e.lookup now g.1 c path) := by
  let T (found : Option Entry) (s : Session Entry (Poller W) W) : Prop :=
    e.Stocked now g c r Q fired look push S P s ∧
      s.standing now (e.keys.path g.1 path) = found
  refine answers_lookup_of (T := T)
    (B := e.Stocked now g c r Q fired look push S fun other => P other ∧ other ≠ path)
    (fun s hs => ?get) (fun found s hs => ?fingerprint) (fun found s hsettles hs => ?settled)
    (fun found htemplate s hs => hs.1.remove hissues hrooted htemplate)
    (fun found s hs => hs.1.weaken fun _ => And.left) (consults_stocked hreports hissues path)
    (remembers_stocked hissues hpatient hrooted hdigest)
  case get =>
    obtain ⟨hanswer, hsame, hstocked, -⟩ := hs.get hissues (e.keys.path g.1 path)
    refine ⟨?_, hstocked, (hsame _).trans hanswer.symm⟩
    rw [hanswer]
    exact hs.sees path hrooted
  case fingerprint =>
    obtain ⟨hanswer, hstocked⟩ := (consults_stocked hreports hissues path).fingerprint s hs.1
    obtain ⟨hworld, hfired⟩ := hreports.still.fingerprint path s.scene hs.1.lull.world
    exact ⟨hanswer, hstocked, ((hs.1.lull.scene _ hworld hfired).2 _).trans hs.2⟩
  case settled =>
    refine { hs.1 with settled := fun other hother hrooted' => ?_ }
    rcases hother with rfl | hother
    · rw [hs.2]
      exact hsettles
    · exact hs.1.settled other hother hrooted'

end First

/-! ## The next look-up -/

section Next

variable {pay : W → W} (hreports : e.source.Reports Q r) (hissues : e.source.Issues S push)
  (hpay : e.source.Charges Q pay)

include hreports hissues

/-- What looking up settled paths costs: a fingerprint for each template that is found, unless the
source pushes changes. -/
def fees (push : Bool) (answers : List (Option Compiled)) : Nat :=
  if push then 0 else answers.countP Option.isSome

omit hreports hissues in
theorem fees_append (push : Bool) (first rest : List (Option Compiled)) :
    fees push (first ++ rest) = fees push rest + fees push first := by
  unfold fees
  cases push with
  | true => rfl
  | false =>
    rw [if_neg Bool.false_ne_true, if_neg Bool.false_ne_true, if_neg Bool.false_ne_true,
      List.countP_append, Nat.add_comm]

include hpay

/-- Where a fingerprint is confirmed, the source is asked for it and for nothing else. -/
theorem hasFingerprint_settled (path : String)
    (h : e.Stocked now g c r Q fired look push S P s) {t : Compiled}
    {expected : String} (hexpected : t.fingerprint = some expected) :
    let a := e.hasFingerprint path expected s
    a.1 = r.confirms path t ∧ e.Stocked now g c r Q fired look push S P a.2 ∧
      a.2.scene.world = pay s.scene.world := by
  intro a
  obtain ⟨hanswer, hstocked⟩ := answers_hasFingerprint_of hexpected
    (consults_stocked hreports hissues path).fingerprint s h
  refine ⟨hanswer, hstocked, ?_⟩
  have hscene : a.2.scene = (e.source.fingerprint path s.scene).2 := by
    change (e.hasFingerprint path expected s).2.scene = _
    unfold hasFingerprint
    rw [bind_apply]
    cases (Session.onScene (e.source.fingerprint path) s).1 <;> rfl
  rw [hscene, hpay path s.scene h.lull.world]

/-- **A look-up that is settled** costs a fingerprint at most. -/
theorem Stocked.lookup (h : e.Stocked now g c r Q fired look push S P s) (hpath : P path)
    (hrooted : Rooted path) :
    let a := e.lookup now g.1 c path s
    a.1 = look path ∧ e.Stocked now g c r Q fired look push S P a.2 ∧
      a.2.scene.world = pay^[fees push [look path]] s.scene.world := by
  obtain ⟨hanswer, -, hstocked, hworld⟩ := h.get hissues (e.keys.path g.1 path)
  have hsees := h.sees path hrooted
  have hsettles := h.settled path hpath hrooted
  have hmarked := fun t => h.marked path (t := t)
  rw [← hanswer] at hsees hsettles
  simp only [← hanswer] at hmarked
  unfold Engine.lookup
  rw [bind_apply]
  generalize Session.get (Poller.moment now) (e.keys.path g.1 path) s = a at *
  obtain ⟨found, s'⟩ := a
  rw [← hsees]
  obtain _ | _ | _ | t | _ | _ := found
  case some.missing => exact ⟨rfl, hstocked, by cases push <;> exact hworld⟩
  case some.compiled =>
    have hconfirms : r.confirms path t = true := hsettles
    have hpush : t.fingerprint.isNone = push := hmarked t rfl
    simp only [Report.judge, hconfirms, if_true]
    cases hexpected : t.fingerprint with
    | none =>
      rw [hexpected] at hpush
      subst hpush
      exact ⟨rfl, hstocked, hworld⟩
    | some expected =>
      rw [hexpected] at hpush
      subst hpush
      obtain ⟨hsame, hpaid, hcost⟩ :=
        hasFingerprint_settled hreports hissues hpay path hstocked hexpected
      simp only
      rw [bind_apply, hsame, hconfirms]
      refine ⟨rfl, hpaid, ?_⟩
      rw [← hworld]
      exact hcost
  all_goals exact hsettles.elim

omit hpay hreports in
/-- The partials are there. -/
theorem Stocked.config (h : e.Stocked now g c r Q fired look push S P s) :
    let a := e.config now g.1 s
    a.1 = c ∧ e.Stocked now g c r Q fired look push S P a.2 ∧
      a.2.scene.world = s.scene.world := by
  obtain ⟨hanswer, -, hstocked, hworld⟩ := h.get hissues (e.keys.config g.1)
  have hcached : (e.cachedConfig? now g.1 s).1 = some c := by
    rw [cachedConfig_eq, hanswer, h.partials]
  rw [config_of_cached hcached]
  exact ⟨rfl, hstocked, hworld⟩

end Next

end Engine

end Templating
