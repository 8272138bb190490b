import Templating.Proofs.Engine.Consulting
import Templating.Proofs.Engine.Proper
import Templating.Proofs.Engine.Stacks

/-!
# One look-up does not change the others

A look-up may change what stands under its path's key; but what it puts in is judged as the files
are (`Report.judge`). So behind a group's partials every path is looked up with the same answer,
however often and in whichever order (`Engine.answers_lookup_known`), and a request for a view
answers what is to be answered (`Engine.resolve_iff_sight`).
-/

namespace Templating

open Template (Compiled)
open Work (Answers Takes)

namespace Engine

variable {W : Type} {e : Engine W} {now : Instant} {g : Group.Made} {c : GroupConfig} {r : Report}
  {Q : W → Prop} {fired : List Token} {look : String → Option Compiled}
  {s s' : Session Entry (Poller W) W} {path : String}

/-- There is a lull, and each path is looked up with the answer that is known. -/
structure Poised (e : Engine W) (now : Instant) (g : Group.Made) (c : GroupConfig) (r : Report)
    (Q : W → Prop) (fired : List Token) (look : String → Option Compiled)
    (s : Session Entry (Poller W) W) : Prop where
  lull : s.Lull e.keys.Leaf Q fired now
  sees : ∀ path, Rooted path →
    r.judge c.library path (s.standing now (e.keys.path g.1 path)) = look path

namespace Poised

variable (h : e.Poised now g c r Q fired look s)

include h

theorem same (hlull : s'.Lull e.keys.Leaf Q fired now) (hsame : s.Same now s') :
    e.Poised now g c r Q fired look s' :=
  ⟨hlull, fun path hrooted => by rw [hsame, h.sees path hrooted]⟩

theorem scene (scene : Scene W) (hstill : Scene.Still Q s.scene scene) :
    e.Poised now g c r Q fired look { s with scene } :=
  have ⟨hworld, hfired⟩ := hstill h.lull.world
  have ⟨hlull, hsame⟩ := h.lull.scene scene hworld hfired
  h.same hlull hsame

/-- What stands under one path's key may change, if it is judged the same. -/
theorem of_ne (hlull : s'.Lull e.keys.Leaf Q fired now)
    (hothers : ∀ key, key ≠ e.keys.path g.1 path → s'.standing now key = s.standing now key)
    (hself : r.judge c.library path (s'.standing now (e.keys.path g.1 path)) = look path) :
    e.Poised now g c r Q fired look s' := by
  refine ⟨hlull, fun other hrooted => ?_⟩
  by_cases hne : other = path
  · rw [hne]
    exact hself
  · rw [hothers _ fun heq => hne (e.keys.path_injective g.2 g.2 heq).2, h.sees other hrooted]

theorem insert (hrooted : Rooted path) (htemplate : r.template c.library path = look path)
    (value : Entry) (hvalue : r.judge c.library path (some value) = look path)
    {options : Options (Poller W)} (hhook : options.hook = none)
    (hkeys : ∀ parent ∈ options.keys, ¬e.keys.Leaf parent) :
    e.Poised now g c r Q fired look
      (Session.insert (Poller.moment now) (e.keys.path g.1 path) value options s).2 := by
  obtain ⟨hlull, hothers, hself⟩ := h.lull.insert_leaf (m := Poller.moment now)
    (e.keys.leaf_path g hrooted) value hhook hkeys
  refine h.of_ne hlull hothers ?_
  rcases hself with hself | hself
  · exact (congrArg (r.judge c.library path) hself).trans htemplate
  · exact (congrArg (r.judge c.library path) hself).trans hvalue

theorem remove (hrooted : Rooted path) (htemplate : r.template c.library path = look path) :
    e.Poised now g c r Q fired look
      (Session.remove (Poller.moment now) (e.keys.path g.1 path) s).2 := by
  obtain ⟨hlull, hothers, hself⟩ := h.lull.remove_leaf (m := Poller.moment now)
    (e.keys.leaf_path g hrooted)
  exact h.of_ne hlull hothers ((congrArg (r.judge c.library path) hself).trans htemplate)

end Poised

/-! ## Look-ups -/

section Lookup

theorem answers_onScene {α : Type} {act : Act W α} {R : α → Prop}
    (hstill : act.Follows (Scene.Still Q)) (hanswer : ∀ scene, Q scene.world → R (act scene).1) :
    Answers (e.Poised now g c r Q fired look)
      (fun a s => R a ∧ e.Poised now g c r Q fired look s)
      (Session.onScene act : Resolving W α) :=
  fun s hs => ⟨hanswer s.scene hs.lull.world, hs.scene _ (hstill s.scene)⟩

variable (hreports : e.source.Reports Q r)

include hreports in
theorem consults_poised (path : String) :
    e.Consults r path (fun _ => True) (e.Poised now g c r Q fired look) where
  token := answers_onScene (hreports.changeToken?_still path)
    fun _ hQ => ⟨hreports.isSome_changeToken? hQ path, trivial⟩
  isFile := answers_onScene (hreports.still.isFile path) (hreports.isFile path)
  read := answers_onScene (hreports.still.read path) (hreports.read path)
  fingerprint := answers_onScene (hreports.still.fingerprint path) (hreports.fingerprint path)
  note _ _ hs := hs.scene _ fun hworld => ⟨hworld, rfl⟩

variable (hrooted : Rooted path)

include hrooted

/-- The answer for a path may be kept. -/
theorem remembers_poised (htemplate : r.template c.library path = look path) :
    e.Remembers now g.1 r path (look path) (fun _ => True) (e.Poised now g c r Q fired look)
      (e.Poised now g c r Q fired look) where
  compiled token t _ _ hpath ht := by
    unfold rememberCompiled
    split
    · exact .pure _
    · refine .bind (fun s hs => ?_) fun _ => .pure _
      rw [hpath]
      exact hs.insert hrooted htemplate _
        ((Report.judge_template (htemplate.trans ht)).trans ht.symm) rfl
        (proper_guarded "" .missing token _ _).barren
  missing token _ hnone := .bind (fun _ hs => hs.insert hrooted htemplate .missing hnone.symm rfl
    (proper_guarded "" .missing token _ _).barren) fun _ => .pure _
  broken hnone := .bind (fun _ hs => hs.insert hrooted htemplate .missing hnone.symm rfl
    (List.forall_mem_nil _)) fun _ => .pure _
  unkept _ _ _ _ _ hs := hs

/-- What is read from the cache is judged to be what is known. -/
theorem answers_get_known : Answers (e.Poised now g c r Q fired look)
    (fun found s => r.judge c.library path found = look path ∧ e.Poised now g c r Q fired look s)
    (Session.get (Poller.moment now) (e.keys.path g.1 path)) := by
  intro s hs
  obtain ⟨hanswer, hlull, hsame⟩ := hs.lull.get (m := Poller.moment now) (e.keys.path g.1 path)
  refine ⟨?_, hs.same hlull hsame⟩
  rw [hanswer]
  exact hs.sees path hrooted

include hreports

/-- **A look-up** answers what is known, and leaves it to be known for all paths. -/
theorem answers_lookup_known : Answers (e.Poised now g c r Q fired look)
    (fun t? s => t? = look path ∧ e.Poised now g c r Q fired look s)
    (e.lookup now g.1 c path) :=
  have hconsults := consults_poised hreports path
  answers_lookup_of (T := fun _ => e.Poised now g c r Q fired look) (answers_get_known hrooted)
    (fun _ => hconsults.fingerprint) (fun _ _ _ hs => hs)
    (fun _ htemplate _ hs => hs.remove hrooted htemplate) (fun _ _ hs => hs) hconsults
    (remembers_poised hrooted)

end Lookup

/-! ## Requests -/

/-- The names that templates declare are fewer than the layouts that are allowed for: each is
declared in a text of the source or by a template in the cache. -/
theorem Poised.declared (h : e.Poised now g c r Q fired look s) (hreports : e.source.Reports Q r) :
    ∃ declared : List String, (∀ path, Rooted path → ∀ t next, look path = some t →
      t.layout = some next → next ∈ declared) ∧ declared.length + 1 < e.chainBound g.1 s := by
  obtain ⟨texts, hlength, hread⟩ := hreports.bounded s.scene.world h.lull.world
  let named := texts.filterMap fun text => (Template.Declaration.scan text).name?
  let cached := s.cache.entries.rows.filterMap fun row =>
    match row.2.value with
    | .compiled t => t.layout
    | _ => none
  refine ⟨named ++ cached, fun path hrooted t next hlook hnext => ?_, ?_⟩
  · rw [← h.sees path hrooted] at hlook
    rcases Report.judge_eq_some hlook with hstands | htemplate
    · obtain ⟨slot, hslot, -, hvalue⟩ := Session.standing_eq_some.1 hstands
      refine List.mem_append_right _ (List.mem_filterMap.2 ⟨_, Table.mem_rows_of_get? hslot, ?_⟩)
      simp only [hvalue]
      exact hnext
    · obtain ⟨-, source, hsource, hlayout⟩ := Report.template_eq_some htemplate
      exact List.mem_append_left _ (List.mem_filterMap.2
        ⟨source, hread path source hsource, hlayout.symm.trans hnext⟩)
  · have hnamed : named.length ≤ texts.length := List.length_filterMap_le ..
    have hcached : cached.length ≤ s.cache.size := List.length_filterMap_le ..
    have hfolders : 0 < (e.options.folders.layoutFolders g.1).length :=
      List.length_pos_iff.2 (e.options.folders.special_ne_nil g.1 _)
    have hcapacity := Nat.le_mul_of_pos_left (e.source.capacity s.scene.world) hfolders
    rw [List.length_append]
    unfold chainBound
    omega

/-- What the engine answers when it looks up a path now. -/
def sight (e : Engine W) (now : Instant) (g : Group) (s : Session Entry (Poller W) W)
    (path : String) : Option Compiled :=
  ((e.config now g >>= fun c => e.lookup now g c path) s).1

/-- Behind a group's partials the engine is poised to answer each look-up as it would now. -/
theorem poised_config (h : e.Watches now s []) (hreports : e.source.Reports Q r)
    (hworld : Q s.scene.world) :
    e.Poised now g (e.config now g.1 s).1 r Q s.scene.signals.fired (e.sight now g.1 s)
      (e.config now g.1 s).2 := by
  have hlull := (lull_config (g := g) hreports.still h hworld).lull
  refine ⟨hlull, fun path hrooted => ?_⟩
  have hself : e.Poised now g (e.config now g.1 s).1 r Q s.scene.signals.fired
      (fun path => r.judge (e.config now g.1 s).1.library path
        ((e.config now g.1 s).2.standing now (e.keys.path g.1 path))) (e.config now g.1 s).2 :=
    ⟨hlull, fun _ _ => rfl⟩
  exact (answers_lookup_known hreports hrooted _ hself).1.symm

/-- **A request for a view** answers what is to be answered, given what the look-up of each path
would answer now. -/
theorem resolve_iff_sight (h : e.Watches now s []) (hreports : e.source.Reports Q r)
    (hworld : Q s.scene.world) (g : Group.Made) (name : String) (layout : Option String)
    (a : Except ViewError Resolution) :
    (e.resolve now g.1 name layout s).1 = a ↔
      e.Resolves (e.sight now g.1 s) g.1 name layout a :=
  resolve_iff (poised_config h hreports hworld)
    (fun _ => answers_lookup_known hreports) (fun _ hs => hs.declared hreports) name layout a

end Engine

end Templating
