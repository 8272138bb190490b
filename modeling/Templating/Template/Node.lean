import Templating.Template.Expr
import Templating.Template.Segment

/-!
# The nodes of a template

Statements enclose the segments between their opening and their closing tag. Reading goes through
the segments with a stack of the statements that are open; a template is well formed when each is
closed by its own tag and none is left open, and when statements and expressions are not nested too
deep.
-/

namespace Templating.Template

/-- A part of a template, with the line on which it starts. -/
inductive Node
  | text (line : Nat) (content : String)
  /-- Prints a value. -/
  | output (line : Nat) (value : Expr)
  | branch (line : Nat) (condition : Expr) (yes no : List Node)
  /-- Renders the body once for each item. -/
  | loop (line : Nat) (target : String) (sequence : Expr) (body : List Node)
  /-- Renders another template in its place. -/
  | embed (line : Nat) (template : Expr) (ignoreMissing : Bool)
  /-- Renders the body, and prints what a filter makes of that. -/
  | filtered (line : Nat) (body : List Node) (filter : Expr)

/-- What a statement tag does to the nesting. -/
inductive Statement
  | opening (block : Node)
  | otherwise
  | closing (keyword : String)
  | plain (node : Node)

namespace Statement

/-- Names that a loop cannot bind. -/
def isReserved (id : String) : Bool :=
  ["in", "true", "True", "false", "False", "none", "None", "loop", "self"].contains id

/-- The template named behind the word `include`, which stands on the given line, and whether it
may be missing. -/
def ofInclude (line : Nat) (ts : List Token) : Option Statement := do
  let (e, r) ← Expr.parse ts
  match r.1 with
  | [] => some (.plain (.embed line e false))
  | [⟨.name "ignore", _⟩, ⟨.name "missing", _⟩] => some (.plain (.embed line e true))
  | _ => none

/-- Reads the code of a statement. Blocks that it opens have no body yet. -/
def ofTokens : List Token → Option Statement
  | ⟨.name "if", line⟩ :: ts => (Expr.ofTokens ts).map fun e => .opening (.branch line e [] [])
  | ⟨.name "for", line⟩ :: ⟨.name target, _⟩ :: ⟨.name "in", _⟩ :: ts =>
    if isReserved target then none
    else (Expr.ofTokens ts).map fun e => .opening (.loop line target e [])
  | ⟨.name "filter", line⟩ :: ts =>
    (Expr.ofFilterChain ts).map fun e => .opening (.filtered line [] e)
  | ⟨.name "include", line⟩ :: ts => ofInclude line ts
  | [⟨.name "else", _⟩] => some .otherwise
  | [⟨.name keyword, _⟩] =>
    if ["endif", "endfor", "endfilter"].contains keyword then some (.closing keyword) else none
  | _ => none

end Statement

namespace Node

/-- A statement that was opened and not closed yet. -/
structure Open where
  /-- The statement, with the first branch of its body if the second was begun. -/
  block : Node
  /-- Whether the second branch was begun. -/
  second : Bool
  /-- What stands in front of the statement at its own level, last first. -/
  before : List Node

def closer : Node → String
  | branch .. => "endif"
  | loop .. => "endfor"
  | filtered .. => "endfilter"
  | _ => ""

/-- A statement with the rest of its body. -/
def withBody (body : List Node) (second : Bool) : Node → Node
  | branch line c yes no => if second then branch line c yes body else branch line c body no
  | loop line target sequence _ => loop line target sequence body
  | filtered line _ f => filtered line body f
  | node => node

/-- What was read: the open statements, innermost first, and the nodes since the last tag that
opened one, last first. -/
structure Reading where
  stack : List Open := []
  nodes : List Node := []

def advance (r : Reading) : Statement → Option Reading
  | .plain node => some { r with nodes := node :: r.nodes }
  | .opening block => some ⟨⟨block, false, r.nodes⟩ :: r.stack, []⟩
  | .otherwise =>
    match r.stack with
    | ⟨branch line c yes no, false, before⟩ :: stack =>
      some ⟨⟨(branch line c yes no).withBody r.nodes.reverse false, true, before⟩ :: stack, []⟩
    | _ => none
  | .closing keyword =>
    match r.stack with
    | ⟨block, second, before⟩ :: stack =>
      if block.closer = keyword then
        some ⟨stack, block.withBody r.nodes.reverse second :: before⟩
      else none
    | [] => none

def read (r : Reading) : Segment → Option Reading
  | .text line content => some { r with nodes := text line content :: r.nodes }
  | .output line code =>
    (Expr.ofTokens code).map fun e => { r with nodes := output line e :: r.nodes }
  | .statement code => (Statement.ofTokens code).bind (advance r)

def ofSegments (segments : List Segment) : Option (List Node) := do
  let r ← segments.foldlM read {}
  if r.stack.isEmpty then some r.nodes.reverse else none

mutual

/-- How deep a node is nested: one for itself, and what the deepest of its parts adds. -/
def nesting : Node → Nat
  | text .. => 0
  | output _ value => value.nesting + 1
  | branch _ condition yes no =>
    max condition.nesting (max (nestingOfAll yes) (nestingOfAll no)) + 1
  | loop _ _ sequence body => max sequence.nesting (nestingOfAll body) + 1
  | embed _ template _ => template.nesting + 2
  | filtered _ body filter => max filter.nesting (nestingOfAll body) + 1

def nestingOfAll : List Node → Nat
  | [] => 0
  | node :: nodes => max node.nesting (nestingOfAll nodes)

end

def maxNesting : Nat := 150

/-- The nodes of a template source, if it is well formed. -/
def ofSource? (source : String) : Option (List Node) :=
  ((Segment.ofSource source).bind ofSegments).filter fun nodes =>
    decide (nestingOfAll nodes ≤ maxNesting)

end Node

end Templating.Template
