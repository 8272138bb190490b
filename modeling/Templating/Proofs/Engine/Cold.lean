import Templating.Proofs.Engine.Clearing
import Templating.Proofs.Engine.Poised

/-!
# Requests of a new engine

An engine that has cached nothing yet answers from the files alone: a group's partials are those
that its files make, each look-up answers with the template at the path, and a request for a view
with the first templates in the order of the folders (`Engine.resolve_cold_iff`).
-/

namespace Templating.Engine

open Session.Steady (Rests)
open Work (Answers Takes)

variable {W : Type} {e : Engine W} {now : Instant} {g : Group.Made} {r : Report} {Q : W → Prop}
  {s : Session Entry (Poller W) W}

/-- Nothing is kept but a global entry. -/
def Empty (_ : String) (value : Entry) (_ : Options (Poller W)) : Prop := value = .global

/-- No look-up was kept. -/
def Untried (_ : String) (value : Entry) (_ : Options (Poller W)) : Prop :=
  value ≠ .missing ∧ ∀ t, value ≠ .compiled t

theorem steady_empty (now : Instant) : Session.Steady (Poller.moment now)
    (fun _ _ => Empty (W := W)) (Cache.Holds Empty) Q := by
  refine Session.steady_holds (fun x hook scene h _ hQ => ?_) fun x hook scene value options h _
    haction => ?_
  · have hvalue : x.slot.value = .global := h
    rw [hvalue]
    exact hQ
  · obtain ⟨snap, hsnap, -⟩ := Poller.of_reinsert haction
    cases hsnap.symm.trans h

theorem steady_untried (now : Instant) : Session.Steady (Poller.moment now)
    (fun _ _ => Untried (W := W)) (Cache.Holds Untried) fun _ => True := by
  refine Session.steady_holds (fun _ _ _ _ _ _ => trivial) fun _ _ _ _ _ _ _ haction => ?_
  obtain ⟨snap, -, -, rfl, -⟩ := Poller.of_reinsert haction
  exact ⟨nofun, nofun⟩

variable (hreports : e.source.Reports Q r)

include hreports

/-- The partials of a group are those that its files make. -/
theorem config_cold (h : Rests (Cache.Holds Empty) Q s) :
    (e.config now g.1 s).1 =
      r.config e.options.extension e.site (e.options.folders.partialFolders g.1) := by
  have k : Session.Steady (Poller.moment now) (fun _ _ => Empty (W := W)) (Cache.Holds Empty) Q :=
    steady_empty now
  have hglobal : Takes (Rests (Cache.Holds Empty) Q) (Rests (Cache.Holds Empty) Q)
      (e.ensureGlobal now) := .bind (k.insertIfAbsent fun _ _ => rfl) fun _ => .pure _
  refine answers_config (P := Rests (Cache.Holds Empty) Q) (R := fun c _ =>
      c = r.config e.options.extension e.site (e.options.folders.partialFolders g.1))
    (k.get _) (fun s c hs hfound => ?_) ?_ s h
  · obtain ⟨slot, hslot, hvalue⟩ := Session.stored_of_get hfound
    cases ((k.get _ s hs).1.stored _ slot hslot).symm.trans hvalue
  · refine answers_build (B := fun found _ => found.config = _)
      (C := fun found _ _ => found.config = _) (D := fun found _ _ => found.config = _) hglobal
      (fun s hs => hreports.gather hs.2 e.site _) (fun _ _ hfound => hfound)
      (fun _ _ _ hfound => hfound) (fun _ _ _ hfound => hfound) (fun _ _ _ _ hfound => hfound)
      fun _ _ hfound => hfound

/-- A new engine is poised to answer each look-up with the template at the path. -/
theorem poised_cold (hwatches : e.Watches now s []) (h : Rests (Cache.Holds Empty) Q s) :
    e.Poised now g (e.config now g.1 s).1 r Q s.scene.signals.fired
      (r.template (e.config now g.1 s).1.library) (e.config now g.1 s).2 := by
  refine ⟨(lull_config hreports.still hwatches h.2).lull, fun path _ => ?_⟩
  have huntried : (e.config now g.1 s).2.cache.Holds Untried [] := by
    refine (takes_config_holds (steady_untried now) (.trivial e.source) ⟨nofun, nofun⟩
      (fun _ _ => ⟨nofun, nofun⟩) (fun _ _ => ⟨nofun, nofun⟩) s
      ⟨⟨h.1.linked, fun key slot hget => ?_, List.forall_mem_nil _⟩, trivial⟩).1
    have hvalue : slot.value = .global := h.1.stored key slot hget
    rw [hvalue]
    exact ⟨nofun, nofun⟩
  cases hstands : (e.config now g.1 s).2.standing now (e.keys.path g.1 path) with
  | none => rfl
  | some value =>
    obtain ⟨slot, hslot, -, hvalue⟩ := Session.standing_eq_some.1 hstands
    obtain ⟨hmissing, hcompiled⟩ := huntried.stored _ slot hslot
    rw [hvalue] at hmissing hcompiled
    unfold Report.judge
    split
    · exact absurd rfl (Option.some.inj ‹_› ▸ hmissing)
    · exact absurd (Option.some.inj ‹_›) (hcompiled _)
    · rfl

/-- What the first look-up of a path answers. -/
theorem sight_cold (hwatches : e.Watches now s []) (h : Rests (Cache.Holds Empty) Q s)
    {path : String} (hrooted : Rooted path) :
    e.sight now g.1 s path = r.template (r.config e.options.extension e.site
      (e.options.folders.partialFolders g.1)).library path := by
  rw [← config_cold hreports h, ← (poised_cold hreports hwatches h).sees path hrooted,
    (poised_config hwatches hreports h.2).sees path hrooted]

/-- **The first request for a view** finds what the files make. -/
theorem resolve_iff_template (hwatches : e.Watches now s []) (h : Rests (Cache.Holds Empty) Q s)
    (g : Group.Made) (name : String) (layout : Option String) (a : Except ViewError Resolution) :
    (e.resolve now g.1 name layout s).1 = a ↔ e.Resolves (r.template
      (r.config e.options.extension e.site (e.options.folders.partialFolders g.1)).library)
        g.1 name layout a := by
  rw [← config_cold hreports h]
  exact resolve_iff (poised_cold hreports hwatches h) (fun _ => answers_lookup_known hreports)
    (fun _ hs => hs.declared hreports) name layout a

omit hreports

/-- A cache in which nothing was stored. -/
theorem watches_empty (now epoch : Instant) (flag : Flag) (scene : Scene W) (hQ : Q scene.world) :
    e.Watches now ⟨{ epoch, flag }, scene⟩ [] ∧
      Rests (C := Poller W) (Cache.Holds Empty) Q ⟨{ epoch, flag }, scene⟩ :=
  ⟨⟨⟨.dropAll { epoch, flag }, nofun, nofun⟩, .dropAll { epoch, flag } now scene.signals⟩,
    ⟨.dropAll { epoch, flag }, nofun, nofun⟩, hQ⟩

/-- A cache in which a new engine has made sure of its global entry. -/
theorem watches_ensureGlobal (hsource : e.source.Follows fun a b => a.signals.Leads b.signals)
    (hwatches : e.Watches now s []) (h : Rests (Cache.Holds Empty) Q s) :
    e.Watches now (e.ensureGlobal now s).2 [] ∧
      Rests (Cache.Holds Empty) Q (e.ensureGlobal now s).2 := by
  have hglobal : Takes (e.Watches now · []) (e.Watches now · []) (e.ensureGlobal now) :=
    .bind ((Watches.lasting e now hsource).insertIfAbsent ⟨nofun, nofun⟩) fun _ => .pure _
  have hempty : Takes (Rests (Cache.Holds Empty) Q) (Rests (Cache.Holds Empty) Q)
      (e.ensureGlobal now) :=
    .bind ((steady_empty now).insertIfAbsent fun _ _ => rfl) fun _ => .pure _
  exact ⟨hglobal s hwatches, hempty s h⟩

/-- **What an engine answers when it has cached nothing**, over files in memory or in a folder, with
an empty cache as well as right after it was made. The view and each layout are the template at the
first path, in the order of the folders, at which a file exists and compiles; the first layout is
the one asked for, unless it is empty, or else the one that the view declares, and each layout is
followed by the one it declares. When a template is not found the paths are told that were tried, up
to the hit for each template found before and all of them for the missing one. -/
theorem resolve_cold_iff (site : Template.Library) (options : EngineOptions) (keys : KeySpace)
    (epoch start : Instant) (time : Duration) (flag : Flag) (scene : Scene Files) (g : Group.Made)
    (name : String) (layout : Option String) (answer : Except ViewError Resolution) :
    let e : Engine Files := ⟨Files.store.toSource, site, options, keys⟩
    let partials := scene.world.report.config options.extension site
      (options.folders.partialFolders g.1)
    let look := scene.world.report.template partials.library
    let fresh : Session Entry (Poller Files) Files := ⟨{ epoch, flag }, scene⟩
    ((e.resolve start g.1 name layout fresh).1 = answer ↔
      e.Resolves look g.1 name layout answer) ∧
    ((e.resolve (start + time) g.1 name layout (e.ensureGlobal start fresh).2).1 = answer ↔
      e.Resolves look g.1 name layout answer) := by
  intro e partials look fresh
  have hreports : e.source.Reports scene.world.Same scene.world.report := Files.reports _
  obtain ⟨hwatches, hempty⟩ := watches_empty (e := e) start epoch flag scene
    (Files.Same.refl scene.world)
  obtain ⟨hwatches', hempty'⟩ := watches_ensureGlobal Files.leads_store hwatches hempty
  exact ⟨resolve_iff_template hreports hwatches hempty g name layout answer,
    resolve_iff_template hreports (hwatches'.later time (.refl _)) hempty' g name layout answer⟩

end Templating.Engine
