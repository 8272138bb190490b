import Templating.Json.Basic
import Templating.Template.Lexeme

/-!
# Expressions

An expression is a literal, a name, an attribute, a call, or a filter applied to another
expression. What is called may be a function by its name, a member of a value, or any value.
Arguments may be nested, and `nesting` says how deep.
-/

namespace Templating.Template

/-- An expression. Literals and names carry the line on which they stand. -/
inductive Expr
  | literal (line : Nat) (value : Json)
  | name (line : Nat) (id : String)
  | attr (of : Expr) (field : String)
  | call (function : String) (args : List Expr) (keywords : List (String × Expr))
  | callMember (of : Expr) (member : String) (args : List Expr) (keywords : List (String × Expr))
  | callValue (callee : Expr) (args : List Expr) (keywords : List (String × Expr))
  | filter (of : Expr) (function : String) (args : List Expr) (keywords : List (String × Expr))
  /-- What the enclosing filter block has put out. -/
  | captured

inductive Argument
  | positional (value : Expr)
  | keyword (name : String) (value : Expr)

namespace Expr

def isLiteral : Expr → Bool
  | literal .. => true
  | _ => false

mutual

/-- How deep an expression is nested. -/
def nesting : Expr → Nat
  | literal .. | name .. => 1
  | captured => 0
  | attr of _ => of.nesting
  | call _ args keywords => max 1 (max (nestingOfAll args) (nestingOfKeywords keywords))
  | callMember e _ args keywords | callValue e args keywords | filter e _ args keywords =>
    max e.nesting (max (nestingOfAll args) (nestingOfKeywords keywords))

def nestingOfAll : List Expr → Nat
  | [] => 0
  | e :: es => max (e.nesting + 1) (nestingOfAll es)

/-- How deep keyword arguments are nested. The keyword itself counts like an argument. -/
def nestingOfKeywords : List (String × Expr) → Nat
  | [] => 0
  | (_, e) :: rest => max (max 2 e.nesting) (nestingOfKeywords rest)

end

/-- Words that stand for values. -/
def constant? : String → Option Json
  | "true" | "True" => some (.bool true)
  | "false" | "False" => some (.bool false)
  | "none" | "None" => some .null
  | _ => none

def isVariable (id : String) : Bool := id != "not" && (constant? id).isNone

def atom? : Token → Option Expr
  | ⟨.str value, line⟩ => some (.literal line (.str value))
  | ⟨.int value, line⟩ => some (.literal line (.int value))
  | ⟨.name id, line⟩ =>
    match constant? id with
    | some value => some (.literal line value)
    | none => if isVariable id then some (.name line id) else none
  | _ => none

/-- The most arguments of a call or filter. -/
def maxArguments : Nat := 2000

/-- Positional arguments may not follow keyword arguments. -/
def separate : List Argument → Option (List Expr × List (String × Expr))
  | [] => some ([], [])
  | .positional value :: rest =>
    (separate rest).map fun (args, keywords) => (value :: args, keywords)
  | .keyword key value :: rest =>
    match separate rest with
    | some ([], keywords) => some ([], (key, value) :: keywords)
    | _ => none

/-- The arguments between parentheses, in order. -/
def arranged (arguments : List Argument) : Option (List Expr × List (String × Expr)) :=
  if maxArguments < arguments.length then none else separate arguments

/-- The application of a filter to some expression. -/
def filteredBy (of : Expr) (function : String) (arguments : List Argument) : Option Expr :=
  (arranged arguments).map fun (args, keywords) => .filter of function args keywords

/-- The call of a function by its name, of a member, or of any other value. -/
def calledWith (arguments : List Argument) (callee : Expr) : Option Expr :=
  (arranged arguments).map fun (args, keywords) =>
    match callee with
    | name _ id => .call id args keywords
    | attr of field => .callMember of field args keywords
    | e => .callValue e args keywords

/-- What is left of some lexemes once a part was read. -/
abbrev Rest (ts : List Token) := { rest : List Token // rest.length ≤ ts.length }

/-- What is left of some lexemes once at least one was read. -/
abbrev Tail (ts : List Token) := { rest : List Token // rest.length < ts.length }

mutual

def parse (ts : List Token) : Option (Expr × Tail ts) :=
  match ts with
  | [] => none
  | t :: ts => do
    let atom ← atom? t
    let (e, r) ← parseSuffixes atom ts
    let (e, r') ← parseFilters e r.1
    some (e, ⟨r'.1, Nat.lt_succ_of_le (Nat.le_trans r'.2 r.2)⟩)
termination_by (ts.length, 2)

/-- Reads the attributes and calls behind an expression. -/
def parseSuffixes (e : Expr) (ts : List Token) : Option (Expr × Rest ts) :=
  match ts with
  | ⟨.dot, _⟩ :: ⟨.name field, _⟩ :: ts => do
    let (e, r) ← parseSuffixes (.attr e field) ts
    some (e, ⟨r.1, Nat.le_succ_of_le (Nat.le_succ_of_le r.2)⟩)
  | ⟨.openParen, _⟩ :: ts => do
    let (arguments, r) ← parseArguments ts
    let call ← calledWith arguments e
    let (e, r') ← parseSuffixes call r.1
    some (e, ⟨r'.1, Nat.le_succ_of_le (Nat.le_trans r'.2 (Nat.le_of_lt r.2))⟩)
  | ts => some (e, ⟨ts, Nat.le_refl _⟩)
termination_by (ts.length, 0)
decreasing_by
  all_goals exact Prod.Lex.left _ _ (by simp only [List.length_cons]; omega)

def parseFilters (e : Expr) (ts : List Token) : Option (Expr × Rest ts) :=
  match ts with
  | ⟨.pipe, _⟩ :: ⟨.name function, _⟩ :: ⟨.openParen, _⟩ :: ts => do
    let (arguments, r) ← parseArguments ts
    let applied ← filteredBy e function arguments
    let (e, r') ← parseFilters applied r.1
    some (e, ⟨r'.1, by have := r.2; have := r'.2; simp only [List.length_cons]; omega⟩)
  | ⟨.pipe, _⟩ :: ⟨.name function, _⟩ :: ts => do
    let applied ← filteredBy e function []
    let (e, r) ← parseFilters applied ts
    some (e, ⟨r.1, Nat.le_succ_of_le (Nat.le_succ_of_le r.2)⟩)
  | ts => some (e, ⟨ts, Nat.le_refl _⟩)
termination_by (ts.length, 0)
decreasing_by
  all_goals exact Prod.Lex.left _ _ (by simp only [List.length_cons]; omega)

/-- Reads arguments up to the closing parenthesis. A comma may stand in front of it. -/
def parseArguments (ts : List Token) : Option (List Argument × Tail ts) :=
  match ts with
  | ⟨.closeParen, _⟩ :: ts => some ([], ⟨ts, Nat.lt_succ_self _⟩)
  | ts => do
    let (argument, r) ← parseArgument ts
    match _h : r.1 with
    | ⟨.closeParen, _⟩ :: rest =>
      some ([argument], ⟨rest, by have := r.2; simp only [_h, List.length_cons] at this; omega⟩)
    | ⟨.comma, _⟩ :: rest =>
      let (arguments, r') ← parseArguments rest
      some (argument :: arguments,
        ⟨r'.1, by have := r.2; have := r'.2; simp only [_h, List.length_cons] at *; omega⟩)
    | _ => none
termination_by (ts.length, 4)
decreasing_by
  · exact Prod.Lex.right _ (by omega)
  · exact Prod.Lex.left _ _ (by have := r.2; simp only [_h, List.length_cons] at this; omega)

/-- Reads an argument. A keyword is a word that could be the name of a variable. -/
def parseArgument (ts : List Token) : Option (Argument × Tail ts) :=
  match ts with
  | ⟨.name key, _⟩ :: ⟨.assign, _⟩ :: ts => do
    if isVariable key then
      let (value, r) ← parse ts
      some (.keyword key value, ⟨r.1, Nat.lt_succ_of_lt (Nat.lt_succ_of_lt r.2)⟩)
    else none
  | ts => do
    let (value, r) ← parse ts
    some (.positional value, r)
termination_by (ts.length, 3)
decreasing_by
  · exact Prod.Lex.left _ _ (by simp only [List.length_cons]; omega)
  · exact Prod.Lex.right _ (by omega)

end

def ofTokens (ts : List Token) : Option Expr := do
  let (e, r) ← parse ts
  if r.1.isEmpty then some e else none

/-- A chain of filters on the output of a block, which starts with the name of a filter. -/
def ofFilterChain (ts : List Token) : Option Expr :=
  match ts with
  | [] => none
  | t :: _ => do
    let (e, r) ← parseFilters .captured (⟨.pipe, t.line⟩ :: ts)
    if r.1.isEmpty then some e else none

end Expr

end Templating.Template
