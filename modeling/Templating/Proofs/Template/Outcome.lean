import Templating.Proofs.Template.Lines
import Templating.Template.Library

/-!
# Rendering on other lines

Lines only tell where a template fails. Rendering nodes on other lines therefore fails in the same
cases and else gives the same output and sections: the faults differ, and faults are what
`Except.toOption` forgets. The nodes of each template of a library may be on other lines of their
own (`Library.toOption_renderNodes_relined`), since templates embed each other.
-/

namespace Templating.Template

variable (f : Nat → Nat)

theorem toOption_eq_some_iff {ε α : Type} {x : Except ε α} {a : α} :
    x.toOption = some a ↔ x = .ok a := by
  cases x with
  | error fault => exact ⟨nofun, nofun⟩
  | ok b => exact ⟨fun h => congrArg Except.ok (Option.some.inj h), fun h => h ▸ rfl⟩

/-- Computations that differ in their faults only both succeed or both fail. -/
theorem of_toOption_eq {ε α : Type} {x y : Except ε α} (h : x.toOption = y.toOption) :
    (∃ a, x = .ok a ∧ y = .ok a) ∨ ∃ fault fault', x = .error fault ∧ y = .error fault' := by
  cases x with
  | ok a => exact .inl ⟨a, rfl, toOption_eq_some_iff.1 h.symm⟩
  | error fault =>
    cases y with
    | ok b => cases h
    | error fault' => exact .inr ⟨fault, fault', rfl, rfl⟩

theorem toOption_bind_congr {ε α β : Type} {x y : Except ε α} {k m : α → Except ε β}
    (h : x.toOption = y.toOption) (hk : ∀ a, (k a).toOption = (m a).toOption) :
    (x >>= k).toOption = (y >>= m).toOption := by
  rcases of_toOption_eq h with ⟨a, rfl, rfl⟩ | ⟨fault, fault', rfl, rfl⟩
  · exact hk a
  · rfl

/-! ## Expressions -/

/-- What a computation comes to: its result and the sections, without the line that it reached. -/
def outcome {α : Type} (x : Located (α × Course)) : Option (α × Sections) :=
  x.toOption.map (Prod.map id Course.sections)

theorem of_outcome_eq {α : Type} {x y : Located (α × Course)} (h : outcome x = outcome y) :
    (∃ a c d, x = .ok (a, c) ∧ y = .ok (a, d) ∧ c.sections = d.sections) ∨
      ∃ fault fault', x = .error fault ∧ y = .error fault' := by
  rcases x with fault | ⟨a, c⟩ <;> rcases y with fault' | ⟨b, d⟩
  · exact .inr ⟨fault, fault', rfl, rfl⟩
  · cases h
  · cases h
  · obtain ⟨rfl, hsections⟩ := Prod.mk.inj (Option.some.inj h)
    exact .inl ⟨a, c, d, rfl, rfl, hsections⟩

theorem outcome_bind_congr {α β : Type} {x y : Located (α × Course)}
    {k m : α × Course → Located (β × Course)} (h : outcome x = outcome y)
    (hk : ∀ a {c d : Course}, c.sections = d.sections → outcome (k (a, c)) = outcome (m (a, d))) :
    outcome (x >>= k) = outcome (y >>= m) := by
  rcases of_outcome_eq h with ⟨a, c, d, rfl, rfl, hsections⟩ | ⟨fault, fault', rfl, rfl⟩
  · exact hk a hsections
  · rfl

theorem outcome_withValue {c d : Course} (h : c.sections = d.sections) (x : Except Problem Value) :
    outcome (c.withValue x) = outcome (d.withValue x) := by
  cases x with
  | error problem => rfl
  | ok v => exact congrArg (fun sections => some (v, sections)) h

theorem outcome_withSections {c d : Course} (x : Except Problem (Value × Sections)) :
    outcome (c.withSections x) = outcome (d.withSections x) := by
  cases x <;> rfl

namespace Expr

variable (scope : Scope) (block : Value)

mutual

/-- The value of an expression and the sections behind it depend on the sections in front of it, not
on lines. -/
theorem outcome_eval_relined : ∀ (e : Expr) {c d : Course}, c.sections = d.sections →
    outcome (eval scope block c (e.relined f)) = outcome (eval scope block d e)
  | .literal _ value, _, _, h => congrArg (fun sections => some (Value.data value, sections)) h
  | .name _ id, _, _, h => congrArg (fun sections => some (scope.get id, sections)) h
  | .captured, _, _, h => congrArg (fun sections => some (block, sections)) h
  | .attr of field, _, _, h => by
    rw [relined, eval, eval]
    refine outcome_bind_congr (outcome_eval_relined of h) fun v c d h => ?_
    cases v with
    | undefined => rfl
    | _ => exact congrArg (fun sections => some (_, sections)) h
  | .call function args keywords, _, _, h => by
    rw [relined, eval, eval]
    refine outcome_bind_congr (outcome_evalAll_relined args h) fun vs c d h => ?_
    refine outcome_bind_congr (outcome_evalKeywords_relined keywords h) fun ks c d h => ?_
    dsimp only
    rw [h]
    exact outcome_withValue h _
  | .callMember of member args keywords, _, _, h => by
    rw [relined, eval, eval]
    refine outcome_bind_congr (outcome_eval_relined of h) fun v c d h => ?_
    refine outcome_bind_congr (outcome_evalAll_relined args h) fun vs c d h => ?_
    exact outcome_bind_congr (outcome_evalKeywords_relined keywords h) fun _ _ _ _ => rfl
  | .callValue callee args keywords, _, _, h => by
    rw [relined, eval, eval]
    refine outcome_bind_congr (outcome_eval_relined callee h) fun v c d h => ?_
    refine outcome_bind_congr (outcome_evalAll_relined args h) fun vs c d h => ?_
    exact outcome_bind_congr (outcome_evalKeywords_relined keywords h) fun _ _ _ _ => rfl
  | .filter of function args keywords, _, _, h => by
    rw [relined, eval, eval]
    refine outcome_bind_congr (outcome_eval_relined of h) fun v c d h => ?_
    refine outcome_bind_congr (outcome_evalAll_relined args h) fun vs c d h => ?_
    refine outcome_bind_congr (outcome_evalKeywords_relined keywords h) fun ks c d h => ?_
    dsimp only
    rw [h]
    exact outcome_withSections _

theorem outcome_evalAll_relined : ∀ (es : List Expr) {c d : Course}, c.sections = d.sections →
    outcome (evalAll scope block c (relinedAll f es)) = outcome (evalAll scope block d es)
  | [], _, _, h => congrArg (fun sections => some ([], sections)) h
  | e :: es, _, _, h => by
    rw [relinedAll, evalAll, evalAll]
    refine outcome_bind_congr (outcome_eval_relined e h) fun v c d h => ?_
    refine outcome_bind_congr (outcome_evalAll_relined es h) fun vs c d h => ?_
    exact congrArg (fun sections => some (v :: vs, sections)) h

theorem outcome_evalKeywords_relined : ∀ (keywords : List (String × Expr)) {c d : Course},
    c.sections = d.sections →
      outcome (evalKeywords scope block c (relinedKeywords f keywords)) =
        outcome (evalKeywords scope block d keywords)
  | [], _, _, h => congrArg (fun sections => some ([], sections)) h
  | (key, e) :: rest, _, _, h => by
    rw [relinedKeywords, evalKeywords, evalKeywords]
    refine outcome_bind_congr (outcome_eval_relined e h) fun v c d h => ?_
    refine outcome_bind_congr (outcome_evalRest_relined rest h) fun vs c d h => ?_
    -- which line is reached differs, and with it the branch taken on either side
    dsimp only [pure, Except.pure]
    split <;> split <;> exact congrArg (fun sections => some ((key, v) :: vs, sections)) h

theorem outcome_evalRest_relined : ∀ (keywords : List (String × Expr)) {c d : Course},
    c.sections = d.sections →
      outcome (evalRest scope block c (relinedKeywords f keywords)) =
        outcome (evalRest scope block d keywords)
  | [], _, _, h => congrArg (fun sections => some ([], sections)) h
  | (key, e) :: rest, _, _, h => by
    rw [relinedKeywords, evalRest, evalRest]
    refine outcome_bind_congr (outcome_eval_relined e h) fun v c d h => ?_
    refine outcome_bind_congr (outcome_evalRest_relined rest h) fun vs c d h => ?_
    exact congrArg (fun sections => some ((key, v) :: vs, sections)) h

end

end Expr

/-! ## Nodes -/

namespace Setting

/-- That two settings differ at most in the lines of the templates that they find. -/
structure SameButLines (f : String → Nat → Nat) (e d : Setting) : Prop where
  template : e.template = d.template
  data : e.data = d.data
  globals : e.globals = d.globals
  find : ∀ name, e.find name = (d.find name).map (Node.relinedAll (f name))
  embed : ∀ name nodes p,
    (e.embed name (Node.relinedAll (f name) nodes) p).toOption = (d.embed name nodes p).toOption

variable {f} {g : String → Nat → Nat} {e d : Setting} (h : SameButLines g e d)

include h

theorem SameButLines.toOption_eval (line line' : Nat) (block : Value) (expr : Expr) (p : Progress) :
    (e.eval line block (expr.relined f) p).toOption = (d.eval line' block expr p).toOption := by
  have heval := Expr.outcome_eval_relined f ⟨p.locals, d.data, d.globals⟩ block expr
    (c := ⟨p.sections, line⟩) (d := ⟨p.sections, line'⟩) rfl
  rw [Setting.eval, Setting.eval, h.data, h.globals]
  -- where the expression fails, so do both, each with a fault of its own
  rcases of_outcome_eq heval with ⟨v, c, d, hexpr, hexpr', hsections⟩ |
    ⟨fault, fault', hexpr, hexpr'⟩
  · rw [hexpr, hexpr']
    exact congrArg (fun sections => some (v, { p with sections })) hsections
  · rw [hexpr, hexpr']
    rfl

theorem SameButLines.print_eq (v : Value) (p : Progress) : e.print v p = d.print v p := by
  rw [print, print, isMarkup, isMarkup, h.template]

theorem SameButLines.capturedValue_eq (output : String) :
    e.capturedValue output = d.capturedValue output := by
  rw [capturedValue, capturedValue, isMarkup, isMarkup, h.template]

theorem SameButLines.toOption_embedFirst (line line' step step' : Nat) (ignoreMissing : Bool)
    (tried : List String) (p : Progress) (vs : List Value) :
    (e.embedFirst line step ignoreMissing tried p vs).toOption =
      (d.embedFirst line' step' ignoreMissing tried p vs).toOption := by
  induction vs generalizing tried with
  | nil =>
    rw [embedFirst, embedFirst]
    split <;> rfl
  | cons v vs ih =>
    rw [embedFirst, embedFirst]
    cases v.string? with
    | none => rfl
    | some inner =>
      dsimp only
      rw [h.find inner]
      cases d.find inner with
      | none => exact ih _
      | some nodes =>
        dsimp only [Option.map_some]
        split
        · rfl
        · rcases of_toOption_eq (h.embed inner nodes { p with depth := p.depth + embedCost }) with
            ⟨after, hembed, hembed'⟩ | ⟨fault, fault', hembed, hembed'⟩
          · rw [hembed, hembed']
          · rw [hembed, hembed']
            rfl

omit h

theorem toOption_repeatFor {body body' : Progress → Except Fault Progress}
    (hbody : ∀ p, (body p).toOption = (body' p).toOption) (target : String) (p : Progress)
    (items : List Value) :
    (repeatFor target p items body).toOption = (repeatFor target p items body').toOption := by
  have hitems : ∀ inner : Progress,
      (items.foldlM (fun inner v => body { inner with locals := (target, v) :: p.locals })
        inner).toOption =
      (items.foldlM (fun inner v => body' { inner with locals := (target, v) :: p.locals })
        inner).toOption := by
    induction items with
    | nil => exact fun _ => rfl
    | cons v items ih =>
      intro inner
      rw [List.foldlM_cons, List.foldlM_cons]
      exact toOption_bind_congr (hbody _) ih
  rw [repeatFor, repeatFor]
  exact toOption_bind_congr (hitems _) fun _ => rfl

mutual

/-- A node on other lines fails in the same cases and else does the same, behind whatever trail. -/
theorem toOption_renderNode_relined (h : SameButLines g e d) : ∀ (node : Node) (t t' : Trail)
    (p : Progress), (e.renderNode t p (node.relined f)).toOption = (d.renderNode t' p node).toOption
  | .text _ content, _, _, _ => rfl
  | .output line value, t, t', p => by
    rw [Node.relined, renderNode, renderNode]
    refine toOption_bind_congr (h.toOption_eval _ _ _ value p) fun (v, p) => ?_
    exact congrArg some (h.print_eq v p)
  | .branch line condition yes no, t, t', p => by
    rw [Node.relined, renderNode, renderNode]
    refine toOption_bind_congr (h.toOption_eval _ _ _ condition p) fun (v, p) => ?_
    dsimp only
    split
    · exact toOption_renderNodes_relined h yes _ _ p
    · exact toOption_renderNodes_relined h no _ _ p
  | .loop line target sequence body, t, t', p => by
    rw [Node.relined, renderNode, renderNode]
    refine toOption_bind_congr (h.toOption_eval _ _ _ sequence p) fun (v, p) => ?_
    dsimp only
    cases v.items? with
    | none => rfl
    | some items =>
      dsimp only
      split
      · rfl
      · exact toOption_repeatFor (fun p => toOption_renderNodes_relined h body _ _ p) target p items
  | .embed line template ignoreMissing, t, t', p => by
    rw [Node.relined, renderNode, renderNode]
    refine toOption_bind_congr (h.toOption_eval _ _ _ template p) fun (v, p) => ?_
    exact h.toOption_embedFirst _ _ _ _ _ _ p (choices v)
  | .filtered line body filter, t, t', p => by
    rw [Node.relined, renderNode, renderNode]
    refine toOption_bind_congr (toOption_renderNodes_relined h body _ _ _) fun inner => ?_
    rw [h.capturedValue_eq]
    refine toOption_bind_congr (h.toOption_eval _ _ _ filter inner) fun (v, inner) => ?_
    exact congrArg some (h.print_eq v _)

theorem toOption_renderNodes_relined (h : SameButLines g e d) : ∀ (nodes : List Node)
    (t t' : Trail) (p : Progress),
    (e.renderNodes t p (Node.relinedAll f nodes)).toOption = (d.renderNodes t' p nodes).toOption
  | [], _, _, _ => rfl
  | node :: nodes, t, t', p => by
    rw [Node.relinedAll, renderNodes, renderNodes]
    exact toOption_bind_congr (toOption_renderNode_relined h node t t' p) fun p =>
      toOption_renderNodes_relined h nodes _ _ p

end

end Setting

namespace Library

/-- **Nodes on other lines fail in the same cases and else render the same**, also when the templates
of the library are each on other lines. -/
theorem toOption_renderNodes_relined {l l' : Library} {f : String → Nat → Nat}
    (hglobals : l.globals = l'.globals)
    (htemplates : ∀ name, l.templates.get? name =
      (l'.templates.get? name).map (Node.relinedAll (f name)))
    (data : Bindings Json) (room : Nat) (name : String) (nodes : List Node) (p : Progress) :
    (l.renderNodes data room name (Node.relinedAll (f name) nodes) p).toOption =
      (l'.renderNodes data room name nodes p).toOption := by
  -- with one level less of embedding the templates that this one embeds are rendered
  induction room generalizing name nodes p with
  | zero => rw [renderNodes, renderNodes]
  | succ room ih =>
    rw [renderNodes, renderNodes]
    refine Setting.toOption_renderNodes_relined (g := f) ?_ nodes {} {} p
    exact
      { template := rfl
        data := rfl
        globals := hglobals
        find := htemplates
        embed := ih }

end Library

end Templating.Template
