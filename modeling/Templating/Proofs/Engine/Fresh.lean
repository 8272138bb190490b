import Templating.Proofs.Engine.Service

/-!
# Compared with a fresh service

A service that has just started has nothing cached, and so its answers are what the files say. Those
of a service that has been at work for long are the same once its past is settled
(`Terms.Sound.answers`): where changes are signalled, if no view failed to compile for a while
(`Service.resolve_eq_fresh`), and where they are not, if no file changed for a while
(`Service.answers_eq_fresh`).
-/

namespace Templating

namespace Terms

variable {T : Terms} {σ : Service}

/-! ## Services that have just started -/

/-- A service as it starts. -/
structure Started (T : Terms) (files : List (String × String)) (site : Template.Library)
    (options : EngineOptions) (now : Instant) (σ : Service) : Prop where
  sound : T.Sound σ
  site : σ.site = site
  options : σ.options = options
  now : σ.now = now
  failures : σ.failures = []
  changed : σ.changed = none
  files : σ.files = Sorted.ofList files

theorem Started.past {files : List (String × String)} {site : Template.Library}
    {options : EngineOptions} {now : Instant} (h : T.Started files site options now σ) :
    σ.Past where
  failures t ht := by
    rw [h.failures] at ht
    cases ht
  changed t ht := by
    rw [h.changed] at ht
    cases ht

/-- To create an engine is to choose its keys and to store its global entry. -/
theorem create_eq {options : EngineOptions} (hoptions : Engine.checkOptions options = .ok ())
    (site : Template.Library) (now : Instant) (s : EngineSession) :
    ∃ (keys : KeySpace) (scene : Scene Memory), Memory.Undisturbed s.scene scene ∧
      Engine.create Memory.source site options now s =
        (.ok ⟨Memory.source, site, options, keys⟩,
          (Engine.ensureGlobal ⟨Memory.source, site, options, keys⟩ now { s with scene }).2) := by
  unfold Engine.create
  rw [hoptions]
  cases hprefix : options.keyPrefix with
  | some text => exact ⟨⟨text⟩, s.scene, .refl _, rfl⟩
  | none =>
    refine ⟨.unique s.scene.serial, s.scene.takeSerial.2, ⟨⟨rfl, rfl, fun _ hw => hw, fun _ => rfl,
      List.suffix_refl _⟩, .refl _⟩, rfl⟩

/-- In an empty cache the global entry is stored, and nothing else happens. -/
theorem scene_ensureGlobal (e : Engine Memory) (now : Instant) (c : EngineCache)
    (scene : Scene Memory) :
    (e.ensureGlobal now ⟨c.dropAll, scene⟩).2.scene = scene.note (.stored e.keys.global) := by
  change (Session.settle (Poller.moment now) _ []).scene = _
  rw [Session.settle_nil]
  rfl

theorem started {options : EngineOptions} (hoptions : Engine.checkOptions options = .ok ())
    {files : List (String × String)} (hcontents : ∀ f ∈ files, f.2 ∈ T.contents)
    (site : Template.Library) (now : Instant) :
    ∃ σ, Service.start T.push files site options now = .ok σ ∧
      T.Started files site options now σ := by
  let world : Memory := { files := Sorted.ofList files, push := T.push }
  let cache : EngineCache := { epoch := now, flag := ({} : Signals).issueFlag.1 }
  obtain ⟨keys, scene, hundisturbed, hcreate⟩ := create_eq hoptions site now
    ⟨cache, { signals := ({} : Signals).issueFlag.2, world }⟩
  let σ : Service := { site, options, keys, now, session := ⟨cache, scene⟩ }
  have hempty : T.Sound σ := by
    refine Ledger.Sound.empty cache hundisturbed.push ?_ ?_ <;> rw [hundisturbed.files]
    · exact Sorted.ascending_ofList files
    · exact fun path source hfile => hcontents _ (Sorted.mem_of_lookup_ofList hfile)
  obtain ⟨hensured, hcalm⟩ := hempty.begun.ensureGlobal
  refine ⟨{ σ with session := (σ.engine.ensureGlobal now σ.session).2 }, ?_, ?_, rfl, rfl, rfl, rfl,
    rfl, ?_⟩
  · unfold Service.start
    simp only
    rw [hcreate]
    rfl
  · refine Ledger.Sound.later hensured.sound ⟨Nat.le_refl _, ?_⟩
    intro t ht
    rcases ht with ht | ⟨-, hcount⟩
    · cases ht
    · have hscene := scene_ensureGlobal σ.engine now cache scene
      have hsame : viewFailures (scene.note (.stored σ.engine.keys.global)).journal =
          viewFailures scene.journal := List.count_cons_of_ne (fun heq => (by cases heq))
      have hlt : viewFailures scene.journal <
          viewFailures (σ.engine.ensureGlobal now ⟨cache.dropAll, scene⟩).2.scene.journal := hcount
      rw [hscene, hsame] at hlt
      exact absurd hlt (Nat.lt_irrefl _)
  · exact hcalm.files.trans hundisturbed.files

theorem checkOptions_of_start {push : Bool} {files : List (String × String)}
    {site : Template.Library} {options : EngineOptions} {now : Instant}
    (h : Service.start push files site options now = .ok σ) :
    Engine.checkOptions options = .ok () := by
  unfold Service.start Engine.create at h
  cases hoptions : Engine.checkOptions options with
  | error err =>
    rw [hoptions] at h
    cases h
  | ok _ => rfl

theorem started_of_start {files : List (String × String)} {site : Template.Library}
    {options : EngineOptions} {now : Instant}
    (h : Service.start T.push files site options now = .ok σ)
    (hcontents : ∀ f ∈ files, f.2 ∈ T.contents) : T.Started files site options now σ := by
  obtain ⟨σ', hstart, hstarted⟩ := started (checkOptions_of_start h) hcontents site now
  cases h.symm.trans hstart
  exact hstarted

/-! ## Compared with a service that has just started -/

/-- A service that has just started over the files of another, with its templates. -/
theorem Sound.started (h : T.Sound σ) (hoptions : Engine.checkOptions σ.options = .ok ()) :
    ∃ fresh, Service.start T.push σ.files σ.site σ.options σ.now = .ok fresh ∧ T.Sound fresh ∧
      (T.ledger fresh).Settled ∧ fresh.files = σ.files ∧
      fresh.engine = { σ.engine with keys := fresh.keys } := by
  have hascending : Sorted.Ascending σ.files := Ledger.Sound.ascending h
  have hcontents : ∀ f ∈ σ.files, f.2 ∈ T.contents := fun f hf =>
    Ledger.Sound.contents h f.1 f.2
      (lookup_of_mem (hascending.pairwise_keys.imp fun hlt => ne_of_lt hlt) hf)
  obtain ⟨fresh, hstart, hfresh⟩ := Terms.started hoptions hcontents σ.site σ.now
  refine ⟨fresh, hstart, hfresh.sound, ⟨?_, ?_⟩, ?_, ?_⟩
  · intro _ t ht
    have hnone : t ∈ fresh.failures := ht
    rw [hfresh.failures] at hnone
    cases hnone
  · intro _ t ht
    have hnone : fresh.changed = some t := ht
    rw [hfresh.changed] at hnone
    cases hnone
  · rw [hfresh.files, Sorted.ofList_of_ascending hascending]
  · unfold Service.engine
    rw [hfresh.site, hfresh.options]

section Answers

variable (h : T.Sound σ) (hsettled : (T.ledger σ).Settled) (g : Group.Made)

include h hsettled

theorem Sound.resolve_eq (name : String) (layout : Option String) :
    (σ.resolve g name layout).1 = Plain.resolve σ.engine T.push σ.files g.1 name layout := by
  rw [Service.resolve, Service.act_fst]
  exact (h.begun.resolve g.2 name layout).answer hsettled

theorem Sound.resolvePartial_eq (name : String) :
    (σ.resolvePartial g name).1 = Plain.resolvePartial σ.engine T.push σ.files g.1 name := by
  rw [Service.resolvePartial, Service.act_fst]
  exact (h.begun.resolvePartial g.2 name).answer hsettled

theorem Sound.config_eq : (σ.config g).1 = Plain.config σ.engine σ.files g.1 := by
  rw [Service.config, Service.act_fst]
  exact (h.begun.outcome_config g.2).answer hsettled

end Answers

/-- **Once the past is settled**, a service answers as one that has just started. -/
theorem Sound.answers (h : T.Sound σ) (hsettled : (T.ledger σ).Settled)
    (hoptions : Engine.checkOptions σ.options = .ok ()) :
    ∃ fresh, Service.start T.push σ.files σ.site σ.options σ.now = .ok fresh ∧
      ∀ g : Group.Made,
        (∀ name layout, (σ.resolve g name layout).1 = (fresh.resolve g name layout).1) ∧
        (∀ name, (σ.resolvePartial g name).1 = (fresh.resolvePartial g name).1) ∧
        (σ.config g).1 = (fresh.config g).1 := by
  obtain ⟨fresh, hstart, hfresh, hnew, hfiles, hengine⟩ := h.started hoptions
  refine ⟨fresh, hstart, fun g => ⟨?_, ?_, ?_⟩⟩
  · intro name layout
    rw [h.resolve_eq hsettled, hfresh.resolve_eq hnew, hfiles, hengine]
    rfl
  · intro name
    rw [h.resolvePartial_eq hsettled, hfresh.resolvePartial_eq hnew, hfiles, hengine]
    rfl
  · rw [h.config_eq hsettled, hfresh.config_eq hnew, hfiles, hengine]
    rfl

end Terms

namespace Service

/-- The contents that files have at the start or are given later. -/
def contents (files : List (String × String)) (requests : List Request) : Set String :=
  { content | (∃ path, (path, content) ∈ files) ∨ ∃ path, .write path content ∈ requests }

/-- A request leaves the keys of pollers alone: it takes out none of their entries, and asks for no
path under whose key it would put another in their place. Pollers are numbered as they are set, and
nobody is told the numbers. -/
def Request.Spares (keys : KeySpace) : Request → Prop
  | .evict key => keys.Spares key
  | .resolvePath g path => keys.Spares (keys.path g.1 path)
  | _ => True

/-- The terms of a run. -/
def terms (push : Bool) (files : List (String × String)) (requests : List Request)
    (hdistinct : push = false → Set.InjOn Memory.digest (contents files requests)) : Terms :=
  ⟨push, contents files requests, hdistinct⟩

section Start

variable {push : Bool} {files : List (String × String)} {site : Template.Library}
  {options : EngineOptions} {now : Instant} {σ₀ : Service} (requests : List Request)
  (h : start push files site options now = .ok σ₀)
  (hdistinct : push = false → Set.InjOn Memory.digest (contents files requests))

include h

/-- **Runs keep to their terms**, and to the options of their start. -/
theorem sound_of_start (hspared : push = false → ∀ r ∈ requests, r.Spares σ₀.keys) :
    (terms push files requests hdistinct).Sound (σ₀.run requests) ∧
      (σ₀.run requests).options = options := by
  have hstarted := Terms.started_of_start (T := terms push files requests hdistinct) h
    fun f hf => .inl ⟨f.1, hf⟩
  refine ⟨Terms.sound_run hstarted.sound ?_, ?_⟩
  · intro r hr
    cases r with
    | write path content => exact .inr ⟨path, hr⟩
    | evict key => exact fun hpush => hspared hpush _ hr
    | resolvePath g path => exact fun hpush => hspared hpush _ hr
    | _ => exact trivial
  · rw [options_run, hstarted.options]

end Start

/-- **Caching is transparent where changes are signalled.** Whatever was requested before, a view is
resolved as by a service that has just started over the files as they are, unless a view did not
compile so short a time ago that this is still remembered. -/
theorem resolve_eq_fresh {files : List (String × String)} {site : Template.Library}
    {options : EngineOptions} {now : Instant} {σ₀ : Service}
    (h : start true files site options now = .ok σ₀) (requests : List Request)
    (hcompiled : ∀ t ∈ (σ₀.run requests).failures,
      t + options.timings.compileFailureRetry ≤ (σ₀.run requests).now)
    (g : Group.Made) (name : String) (layout : Option String) :
    ∃ fresh, start true (σ₀.run requests).files (σ₀.run requests).site options
        (σ₀.run requests).now = .ok fresh ∧
      ((σ₀.run requests).resolve g name layout).1 = (fresh.resolve g name layout).1 := by
  obtain ⟨hsound, rfl⟩ := sound_of_start requests h (fun hpush => (by cases hpush))
    fun hpush => (by cases hpush)
  obtain ⟨fresh, hstart, hanswers⟩ := hsound.answers
    ⟨fun _ => hcompiled, fun hpush => (by cases hpush)⟩ (Terms.checkOptions_of_start h)
  exact ⟨fresh, hstart, (hanswers g).1 name layout⟩

theorem checkOptions_default : Engine.checkOptions {} = .ok () := rfl

/-- The group of a controller called Home. -/
def home : Group.Made := ⟨⟨"", "Home"⟩, "", "Home", rfl⟩

/-- A view is written, asked for and removed. -/
def visit : List Request :=
  [.write "~/Views/Home/Index.hbs" "text", .resolve home "Index" none,
    .remove "~/Views/Home/Index.hbs"]

/-- Then nothing happens for a while. -/
def visited : List Request := visit ++ [.advance (.ofSeconds 5)]

/-- Five seconds are long enough with the timings as they come. -/
theorem rested_visited {σ₀ : Service} (h : σ₀.Past) :
    (∀ t ∈ (σ₀.run visited).failures,
      t + Timings.compileFailureRetry {} ≤ (σ₀.run visited).now) ∧
    ∀ t, (σ₀.run visited).changed = some t →
      t + max (Timings.poll {}) (max (Timings.missingRetry {}) (Timings.compileFailureRetry {})) ≤
        (σ₀.run visited).now := by
  have hretry : Timings.compileFailureRetry {} ≤ Duration.ofSeconds 5 := by decide
  have hspan : max (Timings.poll {}) (max (Timings.missingRetry {})
      (Timings.compileFailureRetry {})) ≤ Duration.ofSeconds 5 := by decide
  have hpast := h.run visit
  rw [visited, run_rest]
  generalize σ₀.run visit = σ at hpast ⊢
  exact ⟨fun t ht => Nat.add_le_add (hpast.failures t ht) hretry,
    fun t ht => Nat.add_le_add (hpast.changed t ht) hspan⟩

theorem resolve_eq_fresh_visited : ∃ σ₀ fresh, start true [] {} {} 0 = .ok σ₀ ∧
    (∀ t ∈ (σ₀.run visited).failures,
      t + Timings.compileFailureRetry {} ≤ (σ₀.run visited).now) ∧
    start true (σ₀.run visited).files (σ₀.run visited).site {} (σ₀.run visited).now = .ok fresh ∧
    ((σ₀.run visited).resolve home "Index" none).1 = (fresh.resolve home "Index" none).1 := by
  obtain ⟨σ₀, hstart, hstarted⟩ := Terms.started (T := terms true [] visited fun h => (by cases h))
    checkOptions_default (fun _ (hf : _ ∈ []) => (by cases hf)) {} 0
  obtain ⟨hcompiled, -⟩ := rested_visited hstarted.past
  obtain ⟨fresh, hfresh, hsame⟩ := resolve_eq_fresh hstart visited hcompiled home "Index" none
  exact ⟨σ₀, fresh, hstart, hcompiled, hfresh, hsame⟩

end Service

end Templating
