import Templating.Template.Node

/-!
# The trail of a template

Rendering takes one step after the other, and each step is counted to a line of the source: the
line reached by the last literal, name, text or tag in front of it. A `Trail` is what lies behind:
the lines of the steps so far and the line reached. `Expr.trail` and `Node.trail` go on through an
expression or a node, whether or not its steps are taken when it is rendered, so the number of a
step is its place in the source.
-/

namespace Templating.Template

/-- How far one has come in a template. -/
structure Trail where
  /-- The line reached. -/
  line : Nat := 0
  /-- The lines of the steps, last first. -/
  steps : List Nat := []

namespace Trail

def goTo (t : Trail) (line : Nat) : Trail := { t with line }

def step (t : Trail) : Trail := { t with steps := t.line :: t.steps }

/-- A step that is counted to another line. -/
def stepOn (t : Trail) (line : Nat) : Trail := { t with steps := line :: t.steps }

def count (t : Trail) : Nat := t.steps.length

/-- The line of the step with the given number, counted from 0, or else of the last step. -/
def lineOf? (t : Trail) (step : Nat) : Option Nat :=
  (t.steps.reverse[step]?).or t.steps.head?

@[simp] theorem count_goTo (t : Trail) (line : Nat) : (t.goTo line).count = t.count := rfl

@[simp] theorem count_step (t : Trail) : t.step.count = t.count + 1 := rfl

@[simp] theorem count_stepOn (t : Trail) (line : Nat) : (t.stepOn line).count = t.count + 1 := rfl

end Trail

namespace Expr

mutual

def trail (t : Trail) : Expr → Trail
  | literal line _ | name line _ => (t.goTo line).step
  | captured => t
  | attr of _ => (trail t of).step
  | call _ args keywords => (trailOfKeywords (trailOfAll t args) keywords).step
  | callMember e _ args keywords | callValue e args keywords | filter e _ args keywords =>
    (trailOfKeywords (trailOfAll (trail t e) args) keywords).step

def trailOfAll (t : Trail) : List Expr → Trail
  | [] => t
  | e :: es => trailOfAll (trail t e) es

/-- The trail behind keyword arguments. When all are literals they make one step, which leaves the
line as it is; else each keyword is a step of its own in front of its value. -/
def trailOfKeywords (t : Trail) : List (String × Expr) → Trail
  | [] => t
  | (key, e) :: rest =>
    if ((key, e) :: rest).all fun k => k.2.isLiteral then t.step
    else (trailOfRest (trail t.step e) rest).step

def trailOfRest (t : Trail) : List (String × Expr) → Trail
  | [] => t
  | (_, e) :: rest => trailOfRest (trail t.step e) rest

end

end Expr

namespace Node

mutual

def trail (t : Trail) : Node → Trail
  | text line _ => (t.goTo line).step
  | output line value => (value.trail (t.goTo line)).step
  | branch line condition yes no =>
    let t := trailOfAll (condition.trail (t.goTo line)).step yes
    if no.isEmpty then t else trailOfAll t.step no
  | loop line _ sequence body =>
    (trailOfAll (sequence.trail (t.goTo line)).step.step.step body).step.step
  | embed line template _ => (template.trail (t.goTo line)).stepOn line
  | filtered line body filter => (filter.trail (trailOfAll (t.goTo line).step body).step).step

def trailOfAll (t : Trail) : List Node → Trail
  | [] => t
  | node :: nodes => trailOfAll (trail t node) nodes

end

end Node

end Templating.Template
