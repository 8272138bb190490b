import Templating.Composition
import Templating.Proofs.Bindings

/-!
# Views with layouts, one after the other

What a template does when it is rendered is a `Behaviour`: from the data and the sections that it
finds it makes an output, and on the way defines sections, or it fails. A view with layouts then
renders as a left fold over their behaviours (`render_eq_fold`). All that goes from one template to
the next is the output so far, which a layout finds in the data in place of what was called `body`
before, and the definitions made so far.
-/

namespace Templating

/-! ## Definitions of sections -/

/-- One definition of a section. -/
structure Definition where
  name : String
  content : String
  mode : SectionMode

namespace Sections

/-- The sections after some definitions, made in order. One without a name is refused and changes
nothing. -/
def defineAll (s : Sections) (made : List Definition) : Sections :=
  made.foldl (fun s d => (s.define d.name d.content d.mode).toOption.getD s) s

theorem defineAll_append (s : Sections) (made more : List Definition) :
    s.defineAll (made ++ more) = (s.defineAll made).defineAll more :=
  List.foldl_append

end Sections

/-! ## The data of a layout -/

namespace Bindings

/-- The data with `output` as `body`: in place of the entry that is called so in any spelling, or
behind all others if there is none. -/
def withBody (data : Bindings Json) (output : String) : Bindings Json :=
  data.rebind bodyName (.str output)

/-- A layout finds the caller's data, whatever was the output before. -/
theorem Distinct.insert_withBody {data : Bindings Json} (h : data.Distinct)
    (output later : String) :
    (data.withBody output).insert bodyName (.str later) = data.withBody later := by
  have hdistinct : (data.withBody output).Distinct := by
    rw [withBody, ← h.insert_eq_rebind]
    exact h.insert ..
  rw [hdistinct.insert_eq_rebind, withBody, rebind_rebind, withBody]

end Bindings

/-! ## Rendering -/

namespace Template

/-- What a template makes of the data and the sections that it finds: an output and the
definitions that it makes, in order, or a failure. -/
abbrev Behaviour := Bindings Json → Sections → Except TemplateError (String × List Definition)

def Behaviour.render (b : Behaviour) : RenderFn := fun context => do
  let (output, made) ← b context.data context.sections
  return (output, context.sections.defineAll made)

end Template

namespace Composition

open Template (Behaviour Compiled)

/-- The output and the definitions so far, after one more layout. -/
def layer (data : Bindings Json) (soFar : String × List Definition) (layout : Behaviour) :
    Except TemplateError (String × List Definition) := do
  let (output, made) ← layout (data.withBody soFar.1) (Sections.defineAll .empty soFar.2)
  return (output, soFar.2 ++ made)

/-- Wrapping folds the layouts, as long as the data at hand differs from the caller's in `body`
only. -/
theorem wrap_eq_foldlM {data here : Bindings Json}
    (hhere : ∀ output, here.insert Bindings.bodyName (.str output) = data.withBody output)
    (hdata : data.Distinct) {layouts : List Compiled} {behaviours : List Behaviour}
    (hlayouts : layouts.map Compiled.render = behaviours.map Behaviour.render) (output : String)
    (made : List Definition) :
    wrap output ⟨here, Sections.defineAll .empty made⟩ layouts =
      (behaviours.foldlM (layer data) (output, made)).map Prod.fst := by
  induction behaviours generalizing layouts here output made with
  | nil =>
    obtain rfl : layouts = [] := List.map_eq_nil_iff.1 hlayouts
    rfl
  | cons behaviour behaviours ih =>
    obtain ⟨layout, layouts, rfl, hlayout, hrest⟩ := List.map_eq_cons_iff.1 hlayouts
    rw [wrap, hhere, hlayout, List.foldlM_cons, layer, Behaviour.render]
    cases behaviour (data.withBody output) (Sections.defineAll .empty made) with
    | error e => rfl
    | ok answer =>
      obtain ⟨output', more⟩ := answer
      have hnext := ih (fun later => hdata.insert_withBody output later) hrest output' (made ++ more)
      rw [Sections.defineAll_append] at hnext
      exact hnext

/-- **Rendering is a left fold.** The view renders first, with the caller's data and no sections.
Each layout, in order, finds the caller's data with the output so far as `body`, in place of the
entry called so in any spelling or behind all others, and the sections that the templates before it
have defined. The first template that fails ends the rendering with its failure, whatever comes
behind it. Nothing else enters: rendered again with the same data, the chain gives the same. -/
theorem render_eq_fold (c : Composition) {view : Behaviour} {layouts : List Behaviour}
    (hview : c.view.render = view.render)
    (hlayouts : c.layouts.map Compiled.render = layouts.map Behaviour.render)
    {data : Bindings Json} (hdata : data.Distinct) :
    c.render data = ((view data .empty).bind (layouts.foldlM (layer data))).map Prod.fst ∧
    (∀ e, view data .empty = .error e → c.render data = .error e) ∧
    ∀ before failing after output made e, layouts = before ++ failing :: after →
      (view data .empty).bind (before.foldlM (layer data)) = .ok (output, made) →
      failing (data.withBody output) (Sections.defineAll .empty made) = .error e →
      c.render data = .error e := by
  have hfold : c.render data =
      ((view data .empty).bind (layouts.foldlM (layer data))).map Prod.fst := by
    rw [render, hview, Behaviour.render]
    cases view data .empty with
    | error e => rfl
    | ok answer =>
      obtain ⟨output, made⟩ := answer
      exact wrap_eq_foldlM (hdata.insert_eq_rebind _ <| .str ·) hdata hlayouts output made
  refine ⟨hfold, ?_, ?_⟩
  · intro e hfails
    rw [hfold, hfails]
    rfl
  · rintro before failing after output made e rfl hbefore hfails
    have hlayer : layer data (output, made) failing = .error e := by
      rw [layer, hfails]
      rfl
    cases hfirst : view data .empty with
    | error e' =>
      rw [hfirst] at hbefore
      cases hbefore
    | ok first =>
      rw [hfirst] at hbefore
      have hreached : before.foldlM (layer data) first = .ok (output, made) := hbefore
      have hstops : (before ++ failing :: after).foldlM (layer data) first = .error e := by
        rw [List.foldlM_append, hreached]
        show (failing :: after).foldlM (layer data) (output, made) = .error e
        rw [List.foldlM_cons, hlayer]
        rfl
      rw [hfold, hfirst]
      show ((before ++ failing :: after).foldlM (layer data) first).map Prod.fst = .error e
      rw [hstops]
      rfl

/-- A layout that puts marks around the body, places what the section `notes` holds so far, and adds
the name of the body's entry to it. -/
def framing (mark : String) : Behaviour := fun data sections =>
  match data.get? "BODY", data.entries.find? fun e => Text.sameIgnoringCase e.1 "body" with
  | some (.str body), some (name, _) =>
    .ok (mark ++ body ++ mark ++ (sections.get? "notes").getD "", [⟨"notes", name, .append⟩])
  | _, _ => .error (.render mark "no body")

theorem render_eq_fold_framed :
    (⟨[("Body", .str "text"), ("title", .null)]⟩ : Bindings Json).Distinct ∧
      (⟨⟨"view", (framing "'").render, none, none⟩,
        [⟨"inner", (framing "|").render, none, none⟩,
          ⟨"outer", (framing "+").render, none, none⟩]⟩ : Composition).render
        ⟨[("Body", .str "text"), ("title", .null)]⟩ = .ok "+|'text'|Body+Bodybody" := by
  have hdistinct : (⟨[("Body", .str "text"), ("title", .null)]⟩ : Bindings Json).Distinct :=
    List.pairwise_pair.2 rfl
  have hfold := @render_eq_fold
    ⟨⟨"view", (framing "'").render, none, none⟩,
      [⟨"inner", (framing "|").render, none, none⟩, ⟨"outer", (framing "+").render, none, none⟩]⟩
    (framing "'") [framing "|", framing "+"] rfl rfl _ hdistinct
  exact ⟨hdistinct, hfold.1.trans rfl⟩

end Composition

end Templating
