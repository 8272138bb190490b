import Templating.Bindings
import Templating.Sections
import Templating.Table
import Templating.Template.Problem
import Templating.Template.Trail

/-!
# Evaluating expressions

Names are looked up among the variables of loops, then in the data, then among the values and
functions that the engine knows. Templates reach the sections by two functions and a filter:
`rendersection`, `issectiondefined` and `definesection`.
-/

namespace Templating.Template

structure Scope where
  /-- The variables of loops, innermost first. -/
  locals : List (String × Value) := []
  data : Bindings Json
  globals : Table String := .empty

namespace Scope

/-- The name under which the sections are found. It reads as a map without members. -/
def sectionsName : String := "__vellum_sections"

def functions : List String := ["rendersection", "issectiondefined"]

def get (s : Scope) (id : String) : Value :=
  match s.locals.lookup id with
  | some v => v
  | none =>
    if id = sectionsName then .data (.obj [])
    else
      match s.data.get? id, s.globals.get? id with
      | some v, _ => .data v
      | none, some text => .data (.str text)
      | none, none => if functions.contains id then .function id else .undefined

/-- Refuses to reach for the sections where a loop has taken their name. -/
def requireSections (s : Scope) : Except Problem Unit :=
  if (s.locals.lookup sectionsName).isSome then .error .sectionsHidden else .ok ()

end Scope

structure Arguments where
  positional : List Value
  keywords : List (String × Value)

namespace Arguments

/-- The only positional argument, as a text. -/
def name (a : Arguments) : Except Problem String :=
  match a.positional with
  | [v] => .ok v.text
  | [] => .error .missingArgument
  | _ => .error .tooManyArguments

/-- The value of a keyword that stands for its default when undefined or none. -/
def keyword? (a : Arguments) (key : String) : Option Value :=
  match a.keywords.reverse.lookup key with
  | none | some .undefined | some (.data .null) => none
  | some v => some v

def onlyKeywords (a : Arguments) (known : List String) : Except Problem Unit :=
  let unknown := (a.keywords.map Prod.fst).filter fun key => !known.contains key
  match unknown.mergeSort fun x y => decide (x ≤ y) with
  | [] => .ok ()
  | key :: _ => .error (.unknownKeyword key)

end Arguments

/-- The filter `definesection(name, mode=..)`: adds its input to a section and prints nothing. -/
def defineSection (scope : Scope) (sections : Sections) (content : Value) (a : Arguments) :
    Except Problem (Value × Sections) := do
  let name ← a.name
  let mode := (a.keyword? "mode").map Value.text
  a.onlyKeywords ["mode"]
  let mode ← ((mode.map SectionMode.read).getD (.ok .replace)).mapError .domain
  scope.requireSections
  let sections ← (sections.define name content.text mode).mapError .domain
  return (.data (.str ""), sections)

/-- The function `rendersection(name, required=..)`: the content of a section, as markup. -/
def renderSection (scope : Scope) (sections : Sections) (a : Arguments) : Except Problem Value := do
  let name ← a.name
  let required ←
    match a.keyword? "required" with
    | none => .ok true
    | some (.data (.bool b)) => .ok b
    | some v => .error (.notConvertible v.kind "bool")
  a.onlyKeywords ["required"]
  scope.requireSections
  let content ← (sections.content name required).mapError .domain
  return .markup (content.getD "")

def isSectionDefined (scope : Scope) (sections : Sections) (a : Arguments) :
    Except Problem Value := do
  match a.positional, a.keywords with
  | [v], [] =>
    scope.requireSections
    return .data (.bool (sections.isDefined v.text))
  | [], [] => throw .missingArgument
  | [], _ => throw (.notConvertible "kwargs" "string")
  | _, _ => throw .tooManyArguments

/-- What is wrong with calling a value: values are no functions. -/
def notCallable (v : Value) : Problem :=
  if v.isContainer then .containerNotCallable else .notCallable v.kind

/-- What is wrong with calling a member of a value. -/
def memberNotCallable (v : Value) (member : String) : Problem :=
  match v.attr member with
  | .undefined => .unknownMethod v.kind member
  | found => notCallable found

/-- A call of the function that a name stands for. -/
def callFunction (scope : Scope) (sections : Sections) (function : String) (a : Arguments) :
    Except Problem Value :=
  match scope.get function with
  | .undefined => .error (.unknownFunction function)
  | .function name =>
    if name = "rendersection" then renderSection scope sections a
    else isSectionDefined scope sections a
  | v => .error (notCallable v)

def filterValue (scope : Scope) (sections : Sections) (filter : String) (input : Value)
    (a : Arguments) : Except Problem (Value × Sections) :=
  if filter = "definesection" then defineSection scope sections input a
  else .error (.unknownFilter filter)

/-- What evaluation goes on with: the sections, and the line reached. -/
structure Course where
  sections : Sections
  line : Nat

/-- A computation that may fail with a problem on some line. -/
abbrev Located := Except (Problem × Nat)

namespace Course

/-- Attaches the line reached to a problem. -/
def fail {α : Type} (c : Course) (problem : Problem) : Located α := .error (problem, c.line)

/-- Goes on with a value, or fails at the line reached. -/
def withValue (c : Course) : Except Problem Value → Located (Value × Course)
  | .ok v => .ok (v, c)
  | .error problem => c.fail problem

/-- Goes on with a value and sections, or fails at the line reached. -/
def withSections (c : Course) : Except Problem (Value × Sections) → Located (Value × Course)
  | .ok (v, sections) => .ok (v, { c with sections })
  | .error problem => c.fail problem

end Course

namespace Expr

mutual

/-- The value of an expression. `block` is what the enclosing filter block has put out. -/
def eval (scope : Scope) (block : Value) (c : Course) : Expr → Located (Value × Course)
  | literal line value => .ok (.data value, { c with line })
  | captured => .ok (block, c)
  | name line id => .ok (scope.get id, { c with line })
  | attr of field => do
    let (v, c) ← eval scope block c of
    match v with
    | .undefined => c.fail .undefinedValue
    | v => .ok (v.attr field, c)
  | call function args keywords => do
    let (positional, c) ← evalAll scope block c args
    let (keywords, c) ← evalKeywords scope block c keywords
    c.withValue (callFunction scope c.sections function ⟨positional, keywords⟩)
  | callMember of member args keywords => do
    let (v, c) ← eval scope block c of
    let (_, c) ← evalAll scope block c args
    let (_, c) ← evalKeywords scope block c keywords
    c.fail (memberNotCallable v member)
  | callValue callee args keywords => do
    let (v, c) ← eval scope block c callee
    let (_, c) ← evalAll scope block c args
    let (_, c) ← evalKeywords scope block c keywords
    c.fail (notCallable v)
  | filter of function args keywords => do
    let (input, c) ← eval scope block c of
    let (positional, c) ← evalAll scope block c args
    let (keywords, c) ← evalKeywords scope block c keywords
    c.withSections (filterValue scope c.sections function input ⟨positional, keywords⟩)

/-- The values of positional arguments, from the first on. -/
def evalAll (scope : Scope) (block : Value) (c : Course) : List Expr → Located (List Value × Course)
  | [] => .ok ([], c)
  | e :: es => do
    let (v, c) ← eval scope block c e
    let (vs, c) ← evalAll scope block c es
    return (v :: vs, c)

/-- The values of keyword arguments. When all are literals the line stays as it is. -/
def evalKeywords (scope : Scope) (block : Value) (c : Course) :
    List (String × Expr) → Located (List (String × Value) × Course)
  | [] => .ok ([], c)
  | (key, e) :: rest => do
    let (v, after) ← eval scope block c e
    let (vs, after) ← evalRest scope block after rest
    let still := ((key, e) :: rest).all fun k => k.2.isLiteral
    return ((key, v) :: vs, if still then { after with line := c.line } else after)

/-- The values of further keyword arguments, from the first on. -/
def evalRest (scope : Scope) (block : Value) (c : Course) :
    List (String × Expr) → Located (List (String × Value) × Course)
  | [] => .ok ([], c)
  | (key, e) :: rest => do
    let (v, c) ← eval scope block c e
    let (vs, c) ← evalRest scope block c rest
    return ((key, v) :: vs, c)

end

end Expr

end Templating.Template
