import Templating.Template.Eval
import Templating.Template.Node

/-!
# Rendering nodes

Rendering goes through the nodes of a template, keeping the output so far, the sections, and how
deep loops and embedded templates are nested. Embedding costs ten levels and a loop costs one; no
more than five hundred may be in use, so that templates which embed each other come to an end. The
trail up to each node is at hand, which says on what line a problem is reported.
-/

namespace Templating.Template

structure Progress where
  output : String := ""
  sections : Sections
  /-- The variables of the loops around, innermost first. -/
  locals : List (String × Value) := []
  depth : Nat := 1

def maxDepth : Nat := 500

/-- The levels that an embedded template costs. -/
def embedCost : Nat := 10

/-- What the nodes of one template are rendered in. -/
structure Setting where
  /-- The name of the template. -/
  template : String
  data : Bindings Json
  globals : Table String
  /-- The nodes of another template. -/
  find : String → Option (List Node)
  /-- Renders the nodes of another template. -/
  embed : String → List Node → Progress → Except Fault Progress

namespace Setting

def isMarkup (e : Setting) : Bool := Value.isMarkupName e.template

/-- The value of an expression that is reached on the given line. -/
def eval (e : Setting) (line : Nat) (block : Value) (expr : Expr) (p : Progress) :
    Except Fault (Value × Progress) :=
  match expr.eval ⟨p.locals, e.data, e.globals⟩ block ⟨p.sections, line⟩ with
  | .ok (v, course) => .ok (v, { p with sections := course.sections })
  | .error (problem, line) => .error (.at problem e.template line)

def print (e : Setting) (v : Value) (p : Progress) : Progress :=
  { p with output := p.output ++ v.printed e.isMarkup }

def capturedValue (e : Setting) (output : String) : Value :=
  if e.isMarkup then .markup output else .data (.str output)

/-- The names that a value to embed gives, in order of preference: the items of a list or the names
in a map. -/
def choices (v : Value) : List Value := if v.isContainer then v.items?.getD [] else [v]

/-- That the template `inner` with the given nodes goes too deep: reported there, on the line of the
step whose number is that of the step which embeds it. -/
def tooDeep (inner : String) (nodes : List Node) (step : Nat) : Fault :=
  match (Node.trailOfAll {} nodes).lineOf? step with
  | some line => .at .recursionLimit inner line
  | none => .unplaced .recursionLimit

/-- Embeds the first of the given templates that is there, in the given step of this template. -/
def embedFirst (e : Setting) (line step : Nat) (ignoreMissing : Bool) (tried : List String)
    (p : Progress) : List Value → Except Fault Progress
  | [] =>
    if tried.isEmpty || ignoreMissing then .ok p
    else .error (.at (.templateMissing tried) e.template line)
  | v :: vs =>
    match v.string? with
    | none => .error (.at .templateNotNamed e.template line)
    | some inner =>
      match e.find inner with
      | none => embedFirst e line step ignoreMissing (tried ++ [inner]) p vs
      | some nodes =>
        if maxDepth < p.depth + embedCost then .error (tooDeep inner nodes step)
        else
          match e.embed inner nodes { p with depth := p.depth + embedCost } with
          | .ok after => .ok { after with depth := p.depth }
          | .error cause => .error (.within inner e.template line cause)

/-- Renders something once for each item, with the item bound to a name. -/
def repeatFor (target : String) (p : Progress) (items : List Value)
    (body : Progress → Except Fault Progress) : Except Fault Progress := do
  let after ← items.foldlM
    (fun inner v => body { inner with locals := (target, v) :: p.locals })
    { p with depth := p.depth + 1 }
  return { after with locals := p.locals, depth := p.depth }

mutual

def renderNode (e : Setting) (t : Trail) (p : Progress) : Node → Except Fault Progress
  | .text _ content => .ok { p with output := p.output ++ content }
  | .output line value => do
    let (v, p) ← e.eval line .undefined value p
    return e.print v p
  | .branch line condition yes no => do
    let (v, p) ← e.eval line .undefined condition p
    let t := (condition.trail (t.goTo line)).step
    if v.isTrue then renderNodes e t p yes else renderNodes e (Node.trailOfAll t yes).step p no
  | .loop line target sequence body => do
    let (v, p) ← e.eval line .undefined sequence p
    let t := sequence.trail (t.goTo line)
    match v.items? with
    | none => .error (.at (.notIterable v.kind) e.template t.line)
    | some items =>
      if maxDepth < p.depth then .error (.at .recursionLimit e.template t.line)
      else repeatFor target p items fun p => renderNodes e t.step.step.step p body
  | .embed line template ignoreMissing => do
    let (v, p) ← e.eval line .undefined template p
    let t := template.trail (t.goTo line)
    e.embedFirst line t.count ignoreMissing [] p (choices v)
  | .filtered line body filter => do
    let t := (t.goTo line).step
    let inner ← renderNodes e t { p with output := "" } body
    let t := Node.trailOfAll t body
    let (v, inner) ← e.eval t.line (e.capturedValue inner.output) filter inner
    return e.print v { inner with output := p.output }

/-- Renders nodes one after the other, behind the given trail. -/
def renderNodes (e : Setting) (t : Trail) (p : Progress) : List Node → Except Fault Progress
  | [] => .ok p
  | node :: nodes => do
    let p ← renderNode e t p node
    renderNodes e (node.trail t) p nodes

end

end Setting

end Templating.Template
