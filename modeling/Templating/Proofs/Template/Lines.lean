import Templating.Template.Node

/-!
# Lines of a template

Tokens, expressions and nodes carry lines of the source, which only tell where something went wrong.
`relined f` counts each line as `f` says. Reading looks at no line, so it commutes with that: tokens
on other lines give the same expressions and nodes on these lines (`Node.ofSegments_relined`).
-/

namespace Templating.Template

variable (f : Nat → Nat)

/-! ## Other lines -/

def Token.relined (t : Token) : Token := { t with line := f t.line }

namespace Expr

mutual

def relined : Expr → Expr
  | literal line value => literal (f line) value
  | name line id => name (f line) id
  | attr of field => attr (relined of) field
  | call function args keywords => call function (relinedAll args) (relinedKeywords keywords)
  | callMember of member args keywords =>
    callMember (relined of) member (relinedAll args) (relinedKeywords keywords)
  | callValue callee args keywords =>
    callValue (relined callee) (relinedAll args) (relinedKeywords keywords)
  | filter of function args keywords =>
    filter (relined of) function (relinedAll args) (relinedKeywords keywords)
  | captured => captured

def relinedAll : List Expr → List Expr
  | [] => []
  | e :: es => relined e :: relinedAll es

def relinedKeywords : List (String × Expr) → List (String × Expr)
  | [] => []
  | (key, e) :: rest => (key, relined e) :: relinedKeywords rest

end

mutual

theorem relined_id : ∀ e : Expr, e.relined id = e
  | literal .. | name .. | captured => rfl
  | attr of _ => by rw [relined, relined_id of]
  | call _ args keywords => by rw [relined, relinedAll_id args, relinedKeywords_id keywords]
  | callMember of _ args keywords => by
    rw [relined, relined_id of, relinedAll_id args, relinedKeywords_id keywords]
  | callValue callee args keywords => by
    rw [relined, relined_id callee, relinedAll_id args, relinedKeywords_id keywords]
  | filter of _ args keywords => by
    rw [relined, relined_id of, relinedAll_id args, relinedKeywords_id keywords]

theorem relinedAll_id : ∀ es : List Expr, relinedAll id es = es
  | [] => rfl
  | e :: es => by rw [relinedAll, relined_id e, relinedAll_id es]

theorem relinedKeywords_id : ∀ keywords : List (String × Expr), relinedKeywords id keywords = keywords
  | [] => rfl
  | (_, e) :: rest => by rw [relinedKeywords, relined_id e, relinedKeywords_id rest]

end

end Expr

def Argument.relined : Argument → Argument
  | .positional value => .positional (value.relined f)
  | .keyword name value => .keyword name (value.relined f)

namespace Expr

/-! ## Reading expressions -/

theorem atom?_relined (t : Token) : atom? (t.relined f) = (atom? t).map (relined f) := by
  obtain ⟨lexeme, line⟩ := t
  cases lexeme with
  | name id =>
    simp only [Token.relined, atom?]
    cases constant? id with
    | some value => rfl
    | none => cases isVariable id <;> rfl
  | _ => rfl

theorem separate_relined (arguments : List Argument) :
    separate (arguments.map (Argument.relined f)) =
      (separate arguments).map (Prod.map (relinedAll f) (relinedKeywords f)) := by
  induction arguments with
  | nil => rfl
  | cons argument arguments ih =>
    cases argument with
    | positional value =>
      rw [List.map_cons, Argument.relined, separate, separate, ih]
      cases separate arguments <;> rfl
    | keyword name value =>
      rw [List.map_cons, Argument.relined, separate, separate, ih]
      rcases separate arguments with _ | ⟨_ | ⟨e, es⟩, keywords⟩ <;> rfl

theorem arranged_relined (arguments : List Argument) :
    arranged (arguments.map (Argument.relined f)) =
      (arranged arguments).map (Prod.map (relinedAll f) (relinedKeywords f)) := by
  rw [arranged, arranged, List.length_map, separate_relined]
  split <;> rfl

theorem filteredBy_relined (of : Expr) (function : String) (arguments : List Argument) :
    filteredBy (of.relined f) function (arguments.map (Argument.relined f)) =
      (filteredBy of function arguments).map (relined f) := by
  rw [filteredBy, filteredBy, arranged_relined]
  cases arranged arguments <;> rfl

theorem calledWith_relined (arguments : List Argument) (callee : Expr) :
    calledWith (arguments.map (Argument.relined f)) (callee.relined f) =
      (calledWith arguments callee).map (relined f) := by
  rw [calledWith, calledWith, arranged_relined]
  cases arranged arguments with
  | none => rfl
  | some parts => cases callee <;> rfl

/-! ### One step of each reader

The readers give what is left together with the proof that it has become shorter; here they are
without it. -/

/-- What was read and what is left. -/
def bare {α : Type} {P : List Token → Prop} (p : Option (α × { rest : List Token // P rest })) :
    Option (α × List Token) :=
  p.map fun q => (q.1, q.2.1)

theorem of_bare {α : Type} {P : List Token → Prop} {p : Option (α × { rest : List Token // P rest })}
    {a : α} {rest : List Token} (h : bare p = some (a, rest)) : P rest := by
  obtain ⟨⟨_, rest', hrest'⟩, -, heq⟩ := Option.map_eq_some_iff.1 h
  cases heq
  exact hrest'

def whole (ts : List Token) : Option (Expr × List Token) := bare (parse ts)

def suffixes (e : Expr) (ts : List Token) : Option (Expr × List Token) := bare (parseSuffixes e ts)

def filters (e : Expr) (ts : List Token) : Option (Expr × List Token) := bare (parseFilters e ts)

def arguments (ts : List Token) : Option (List Argument × List Token) := bare (parseArguments ts)

def argument (ts : List Token) : Option (Argument × List Token) := bare (parseArgument ts)

theorem whole_cons (t : Token) (ts : List Token) :
    whole (t :: ts) =
      (atom? t).bind fun atom => (suffixes atom ts).bind fun p => filters p.1 p.2 := by
  rw [whole, parse]
  cases atom? t with
  | none => rfl
  | some atom =>
    change bare ((parseSuffixes atom ts).bind _) = (bare (parseSuffixes atom ts)).bind _
    rcases parseSuffixes atom ts with _ | ⟨e, r⟩
    · rfl
    · change bare ((parseFilters e r.1).bind _) = bare (parseFilters e r.1)
      cases parseFilters e r.1 <;> rfl

theorem suffixes_attr (e : Expr) (line line' : Nat) (field : String) (ts : List Token) :
    suffixes e (⟨.dot, line⟩ :: ⟨.name field, line'⟩ :: ts) = suffixes (.attr e field) ts := by
  rw [suffixes, parseSuffixes, suffixes]
  cases parseSuffixes (.attr e field) ts <;> rfl

theorem suffixes_call (e : Expr) (line : Nat) (ts : List Token) :
    suffixes e (⟨.openParen, line⟩ :: ts) =
      (arguments ts).bind fun p => (calledWith p.1 e).bind fun call => suffixes call p.2 := by
  rw [suffixes, parseSuffixes, arguments]
  rcases parseArguments ts with _ | ⟨args, r⟩
  · rfl
  · change bare ((calledWith args e).bind _) = (calledWith args e).bind _
    cases calledWith args e with
    | none => rfl
    | some call =>
      change bare ((parseSuffixes call r.1).bind _) = bare (parseSuffixes call r.1)
      cases parseSuffixes call r.1 <;> rfl

theorem suffixes_none {e : Expr} {ts : List Token}
    (hattr : ∀ line field line' rest, ts ≠ ⟨.dot, line⟩ :: ⟨.name field, line'⟩ :: rest)
    (hcall : ∀ line rest, ts ≠ ⟨.openParen, line⟩ :: rest) : suffixes e ts = some (e, ts) := by
  rw [suffixes, parseSuffixes]
  · rfl
  · exact hattr
  · exact hcall

theorem filters_applied (e : Expr) (line line' line'' : Nat) (function : String)
    (ts : List Token) :
    filters e (⟨.pipe, line⟩ :: ⟨.name function, line'⟩ :: ⟨.openParen, line''⟩ :: ts) =
      (arguments ts).bind fun p =>
        (filteredBy e function p.1).bind fun applied => filters applied p.2 := by
  rw [filters, parseFilters, arguments]
  rcases parseArguments ts with _ | ⟨args, r⟩
  · rfl
  · change bare ((filteredBy e function args).bind _) = (filteredBy e function args).bind _
    cases filteredBy e function args with
    | none => rfl
    | some applied =>
      change bare ((parseFilters applied r.1).bind _) = bare (parseFilters applied r.1)
      cases parseFilters applied r.1 <;> rfl

theorem filters_plain (e : Expr) (line line' : Nat) (function : String) {ts : List Token}
    (h : ∀ line'' rest, ts ≠ ⟨.openParen, line''⟩ :: rest) :
    filters e (⟨.pipe, line⟩ :: ⟨.name function, line'⟩ :: ts) =
      (filteredBy e function []).bind fun applied => filters applied ts := by
  rw [filters, parseFilters]
  · change bare ((filteredBy e function []).bind _) = (filteredBy e function []).bind _
    cases filteredBy e function [] with
    | none => rfl
    | some applied =>
      change bare ((parseFilters applied ts).bind _) = bare (parseFilters applied ts)
      cases parseFilters applied ts <;> rfl
  · exact h

theorem filters_none {e : Expr} {ts : List Token}
    (h : ∀ line function line' rest, ts ≠ ⟨.pipe, line⟩ :: ⟨.name function, line'⟩ :: rest) :
    filters e ts = some (e, ts) := by
  rw [filters, parseFilters]
  · rfl
  · exact fun line function line' line'' rest => h line function line' (⟨.openParen, line''⟩ :: rest)
  · exact h

/-- Goes on behind an argument: with the closing parenthesis or a comma and further arguments. -/
def behindArgument (first : Argument) : List Token → Option (List Argument × List Token)
  | ⟨.closeParen, _⟩ :: rest => some ([first], rest)
  | ⟨.comma, _⟩ :: rest => (arguments rest).map fun p => (first :: p.1, p.2)
  | _ => none

theorem arguments_close (line : Nat) (ts : List Token) :
    arguments (⟨.closeParen, line⟩ :: ts) = some ([], ts) := by
  rw [arguments, parseArguments]
  rfl

theorem arguments_more {ts : List Token} (h : ∀ line rest, ts ≠ ⟨.closeParen, line⟩ :: rest) :
    arguments ts = (argument ts).bind fun p => behindArgument p.1 p.2 := by
  rw [arguments, parseArguments, argument]
  · rcases parseArgument ts with _ | ⟨first, rest, hrest⟩
    · rfl
    · rcases rest with _ | ⟨⟨lexeme, line⟩, rest⟩
      · rfl
      · cases lexeme with
        | comma =>
          change bare ((parseArguments rest).bind _) = (bare (parseArguments rest)).map _
          rcases parseArguments rest with _ | ⟨args, r⟩ <;> rfl
        | _ => rfl
  · exact h

theorem argument_keyword (key : String) (line line' : Nat) (ts : List Token) :
    argument (⟨.name key, line⟩ :: ⟨.assign, line'⟩ :: ts) =
      if isVariable key then (whole ts).map fun p => (.keyword key p.1, p.2) else none := by
  rw [argument, parseArgument, whole]
  cases isVariable key with
  | false => rfl
  | true => rcases parse ts with _ | ⟨value, r⟩ <;> rfl

theorem argument_positional {ts : List Token}
    (h : ∀ key line line' rest, ts ≠ ⟨.name key, line⟩ :: ⟨.assign, line'⟩ :: rest) :
    argument ts = (whole ts).map fun p => (.positional p.1, p.2) := by
  rw [argument, parseArgument, whole]
  · rcases parse ts with _ | ⟨value, r⟩ <;> rfl
  · exact h

/-! ### All steps -/

/-- What was read and the tokens left, on other lines. -/
abbrev relinedRest {α : Type} (g : α → α) : α × List Token → α × List Token :=
  Prod.map g (List.map (Token.relined f))

/-- Tokens on other lines start with a lexeme only if they do on their own. -/
theorem of_map_relined_eq_cons {f : Nat → Nat} {ts rest : List Token} {lexeme : Lexeme} {line : Nat}
    (h : ts.map (Token.relined f) = ⟨lexeme, line⟩ :: rest) :
    ∃ line' rest', ts = ⟨lexeme, line'⟩ :: rest' ∧ rest'.map (Token.relined f) = rest := by
  obtain ⟨⟨lexeme', line'⟩, rest', rfl, htoken, hrest⟩ := List.map_eq_cons_iff.1 h
  cases htoken
  exact ⟨line', rest', rfl, hrest⟩

theorem map_relined_ne {lexeme : Lexeme} {ts : List Token}
    (h : ¬∃ line rest, ts = ⟨lexeme, line⟩ :: rest) (line : Nat) (rest : List Token) :
    ts.map (Token.relined f) ≠ ⟨lexeme, line⟩ :: rest := by
  intro heq
  obtain ⟨line', rest', hts, -⟩ := of_map_relined_eq_cons heq
  exact h ⟨line', rest', hts⟩

theorem map_relined_ne_pair {first second : Lexeme} {ts : List Token}
    (h : ¬∃ line line' rest, ts = ⟨first, line⟩ :: ⟨second, line'⟩ :: rest) (line line' : Nat)
    (rest : List Token) :
    ts.map (Token.relined f) ≠ ⟨first, line⟩ :: ⟨second, line'⟩ :: rest := by
  intro heq
  obtain ⟨line₁, rest₁, rfl, hrest⟩ := of_map_relined_eq_cons heq
  obtain ⟨line₂, rest₂, rfl, -⟩ := of_map_relined_eq_cons hrest
  exact h ⟨line₁, line₂, rest₂, rfl⟩

-- By the number of tokens left; the second number is for readers that hand on all their tokens:
-- arguments to the first argument, and that to a whole expression.
mutual

theorem whole_relined (ts : List Token) :
    whole (ts.map (Token.relined f)) = (whole ts).map (relinedRest f (relined f)) := by
  match ts with
  | [] => rw [List.map_nil, whole, parse]; rfl
  | t :: ts =>
    rw [List.map_cons, whole_cons, whole_cons, atom?_relined]
    cases atom? t with
    | none => rfl
    | some atom =>
      simp only [Option.map_some, Option.bind_some]
      rw [suffixes_relined atom ts]
      match hsuffixes : suffixes atom ts with
      | none => rfl
      | some (e, rest) =>
        have hrest : rest.length ≤ ts.length := of_bare hsuffixes
        exact filters_relined e rest
termination_by (ts.length, 2)
decreasing_by
  · exact Prod.Lex.left _ _ (Nat.lt_succ_self _)
  · exact Prod.Lex.left _ _ (Nat.lt_succ_of_le hrest)

theorem suffixes_relined (e : Expr) (ts : List Token) :
    suffixes (e.relined f) (ts.map (Token.relined f)) =
      (suffixes e ts).map (relinedRest f (relined f)) := by
  by_cases hattr : ∃ field line line' rest, ts = ⟨.dot, line⟩ :: ⟨.name field, line'⟩ :: rest
  · obtain ⟨field, line, line', rest, hts⟩ := hattr
    simp only [hts, List.map_cons, Token.relined, suffixes_attr]
    exact suffixes_relined (.attr e field) rest
  by_cases hcall : ∃ line rest, ts = ⟨.openParen, line⟩ :: rest
  · obtain ⟨line, rest, hts⟩ := hcall
    simp only [hts, List.map_cons, Token.relined, suffixes_call]
    rw [arguments_relined rest]
    match harguments : arguments rest with
    | none => rfl
    | some (args, behind) =>
      have hbehind : behind.length < rest.length := of_bare harguments
      simp only [Option.map_some, Option.bind_some, relinedRest, Prod.map_apply,
        calledWith_relined]
      match calledWith args e with
      | none => rfl
      | some called => exact suffixes_relined called behind
  · have hattr' : ∀ line field line' rest,
        ts ≠ ⟨.dot, line⟩ :: ⟨.name field, line'⟩ :: rest := fun line field line' rest hts =>
      hattr ⟨field, line, line', rest, hts⟩
    rw [suffixes_none hattr' fun line rest hts => hcall ⟨line, rest, hts⟩, suffixes_none]
    · rfl
    · exact fun line field line' rest => map_relined_ne_pair f
        (fun ⟨line, line', rest, hts⟩ => hattr ⟨field, line, line', rest, hts⟩) line line' rest
    · exact map_relined_ne f hcall
termination_by (ts.length, 0)
decreasing_by
  · exact Prod.Lex.left _ _ (by simp only [hts, List.length_cons]; omega)
  · exact Prod.Lex.left _ _ (by simp only [hts, List.length_cons]; omega)
  · exact Prod.Lex.left _ _ (by simp only [hts, List.length_cons]; omega)

theorem filters_relined (e : Expr) (ts : List Token) :
    filters (e.relined f) (ts.map (Token.relined f)) =
      (filters e ts).map (relinedRest f (relined f)) := by
  by_cases hpipe : ∃ function line line' rest, ts = ⟨.pipe, line⟩ :: ⟨.name function, line'⟩ :: rest
  · obtain ⟨function, line, line', rest, hts⟩ := hpipe
    by_cases hopen : ∃ line'' rest', rest = ⟨.openParen, line''⟩ :: rest'
    · obtain ⟨line'', rest', hrest⟩ := hopen
      simp only [hts, hrest, List.map_cons, Token.relined, filters_applied]
      rw [arguments_relined rest']
      match harguments : arguments rest' with
      | none => rfl
      | some (args, behind) =>
        have hbehind : behind.length < rest'.length := of_bare harguments
        simp only [Option.map_some, Option.bind_some, relinedRest, Prod.map_apply,
          filteredBy_relined]
        match filteredBy e function args with
        | none => rfl
        | some applied => exact filters_relined applied behind
    · have hplain := filteredBy_relined f e function []
      simp only [hts, List.map_cons, Token.relined]
      rw [filters_plain e line line' function fun line'' rest' h => hopen ⟨line'', rest', h⟩,
        filters_plain _ _ _ function (map_relined_ne f hopen)]
      rw [List.map_nil] at hplain
      rw [hplain]
      match filteredBy e function [] with
      | none => rfl
      | some applied => exact filters_relined applied rest
  · have hpipe' : ∀ line function line' rest,
        ts ≠ ⟨.pipe, line⟩ :: ⟨.name function, line'⟩ :: rest := fun line function line' rest hts =>
      hpipe ⟨function, line, line', rest, hts⟩
    rw [filters_none hpipe', filters_none]
    · rfl
    · exact fun line function line' rest => map_relined_ne_pair f
        (fun ⟨line, line', rest, hts⟩ => hpipe ⟨function, line, line', rest, hts⟩) line line' rest
termination_by (ts.length, 0)
decreasing_by
  · exact Prod.Lex.left _ _ (by simp only [hts, hrest, List.length_cons]; omega)
  · exact Prod.Lex.left _ _ (by simp only [hts, hrest, List.length_cons]; omega)
  · exact Prod.Lex.left _ _ (by simp only [hts, List.length_cons]; omega)

theorem arguments_relined (ts : List Token) :
    arguments (ts.map (Token.relined f)) =
      (arguments ts).map (relinedRest f (List.map (Argument.relined f))) := by
  by_cases hclose : ∃ line rest, ts = ⟨.closeParen, line⟩ :: rest
  · obtain ⟨line, rest, rfl⟩ := hclose
    simp only [List.map_cons, Token.relined, arguments_close]
    rfl
  · rw [arguments_more (map_relined_ne f hclose),
      arguments_more fun line rest hts => hclose ⟨line, rest, hts⟩, argument_relined ts]
    match hargument : argument ts with
    | none => rfl
    | some (first, behind) =>
      have hbehind : behind.length < ts.length := of_bare hargument
      exact behindArgument_relined first behind
termination_by (ts.length, 4)
decreasing_by
  · exact Prod.Lex.right _ (by omega)
  · exact Prod.Lex.left _ _ hbehind

theorem behindArgument_relined (first : Argument) (ts : List Token) :
    behindArgument (first.relined f) (ts.map (Token.relined f)) =
      (behindArgument first ts).map (relinedRest f (List.map (Argument.relined f))) := by
  match ts with
  | [] => rfl
  | ⟨.comma, line⟩ :: rest =>
    simp only [List.map_cons, Token.relined, behindArgument]
    rw [arguments_relined rest]
    cases arguments rest <;> rfl
  | ⟨.closeParen, line⟩ :: rest => rfl
  | ⟨.name id, line⟩ :: rest => rfl
  | ⟨.str value, line⟩ :: rest => rfl
  | ⟨.int value, line⟩ :: rest => rfl
  | ⟨.dot, line⟩ :: rest => rfl
  | ⟨.assign, line⟩ :: rest => rfl
  | ⟨.pipe, line⟩ :: rest => rfl
  | ⟨.openParen, line⟩ :: rest => rfl
termination_by (ts.length, 0)
decreasing_by exact Prod.Lex.left _ _ (Nat.lt_succ_self _)

theorem argument_relined (ts : List Token) :
    argument (ts.map (Token.relined f)) =
      (argument ts).map (relinedRest f (Argument.relined f)) := by
  by_cases hkeyword : ∃ key line line' rest, ts = ⟨.name key, line⟩ :: ⟨.assign, line'⟩ :: rest
  · obtain ⟨key, line, line', rest, hts⟩ := hkeyword
    simp only [hts, List.map_cons, Token.relined, argument_keyword]
    rw [whole_relined rest]
    cases isVariable key with
    | false => rfl
    | true => cases whole rest <;> rfl
  · have hkeyword' : ∀ key line line' rest,
        ts ≠ ⟨.name key, line⟩ :: ⟨.assign, line'⟩ :: rest := fun key line line' rest hts =>
      hkeyword ⟨key, line, line', rest, hts⟩
    rw [argument_positional hkeyword', argument_positional, whole_relined ts]
    · cases whole ts <;> rfl
    · exact fun key line line' rest => map_relined_ne_pair f
        (fun ⟨line, line', rest, hts⟩ => hkeyword ⟨key, line, line', rest, hts⟩) line line' rest
termination_by (ts.length, 3)
decreasing_by
  · exact Prod.Lex.left _ _ (by simp only [hts, List.length_cons]; omega)
  · exact Prod.Lex.right _ (by omega)

end

mutual

theorem nesting_relined : ∀ e : Expr, (e.relined f).nesting = e.nesting
  | .literal .. | .name .. | .captured => rfl
  | .attr of _ => nesting_relined of
  | .call _ args keywords => by
    rw [relined, nesting, nesting, nestingOfAll_relined args, nestingOfKeywords_relined keywords]
  | .callMember e _ args keywords => by
    rw [relined, nesting, nesting, nesting_relined e, nestingOfAll_relined args,
      nestingOfKeywords_relined keywords]
  | .callValue e args keywords => by
    rw [relined, nesting, nesting, nesting_relined e, nestingOfAll_relined args,
      nestingOfKeywords_relined keywords]
  | .filter e _ args keywords => by
    rw [relined, nesting, nesting, nesting_relined e, nestingOfAll_relined args,
      nestingOfKeywords_relined keywords]

theorem nestingOfAll_relined : ∀ es : List Expr, nestingOfAll (relinedAll f es) = nestingOfAll es
  | [] => rfl
  | e :: es => by
    rw [relinedAll, nestingOfAll, nestingOfAll, nesting_relined e, nestingOfAll_relined es]

theorem nestingOfKeywords_relined : ∀ keywords : List (String × Expr),
    nestingOfKeywords (relinedKeywords f keywords) = nestingOfKeywords keywords
  | [] => rfl
  | (_, e) :: rest => by
    rw [relinedKeywords, nestingOfKeywords, nestingOfKeywords, nesting_relined e,
      nestingOfKeywords_relined rest]

end

end Expr

/-! ## Reading nodes -/

namespace Node

mutual

def relined : Node → Node
  | text line content => text (f line) content
  | output line value => output (f line) (value.relined f)
  | branch line condition yes no =>
    branch (f line) (condition.relined f) (relinedAll yes) (relinedAll no)
  | loop line target sequence body =>
    loop (f line) target (sequence.relined f) (relinedAll body)
  | embed line template ignoreMissing => embed (f line) (template.relined f) ignoreMissing
  | filtered line body filter => filtered (f line) (relinedAll body) (filter.relined f)

def relinedAll : List Node → List Node
  | [] => []
  | node :: nodes => relined node :: relinedAll nodes

end

mutual

theorem relined_id : ∀ node : Node, node.relined id = node
  | text .. => rfl
  | output _ value => by rw [relined, Expr.relined_id]; rfl
  | branch _ condition yes no => by
    rw [relined, Expr.relined_id, relinedAll_id yes, relinedAll_id no]; rfl
  | loop _ _ sequence body => by rw [relined, Expr.relined_id, relinedAll_id body]; rfl
  | embed _ template _ => by rw [relined, Expr.relined_id]; rfl
  | filtered _ body filter => by rw [relined, Expr.relined_id, relinedAll_id body]; rfl

theorem relinedAll_id : ∀ nodes : List Node, relinedAll id nodes = nodes
  | [] => rfl
  | node :: nodes => by rw [relinedAll, relined_id node, relinedAll_id nodes]

end

end Node

def Segment.relined : Segment → Segment
  | .text line content => .text (f line) content
  | .output line code => .output (f line) (code.map (Token.relined f))
  | .statement code => .statement (code.map (Token.relined f))

namespace Statement

def relined : Statement → Statement
  | .opening block => .opening (block.relined f)
  | .otherwise => .otherwise
  | .closing keyword => .closing keyword
  | .plain node => .plain (node.relined f)

end Statement

namespace Node

def Open.relined (o : Open) : Open :=
  { o with block := o.block.relined f, before := relinedAll f o.before }

def Reading.relined (r : Reading) : Reading where
  stack := r.stack.map (Open.relined f)
  nodes := relinedAll f r.nodes

mutual

theorem nesting_relined : ∀ node : Node, (node.relined f).nesting = node.nesting
  | text .. => rfl
  | output _ value => by rw [relined, nesting, nesting, Expr.nesting_relined]
  | branch _ condition yes no => by
    rw [relined, nesting, nesting, Expr.nesting_relined, nestingOfAll_relined yes,
      nestingOfAll_relined no]
  | loop _ _ sequence body => by
    rw [relined, nesting, nesting, Expr.nesting_relined, nestingOfAll_relined body]
  | embed _ template _ => by rw [relined, nesting, nesting, Expr.nesting_relined]
  | filtered _ body filter => by
    rw [relined, nesting, nesting, Expr.nesting_relined, nestingOfAll_relined body]

theorem nestingOfAll_relined : ∀ nodes : List Node,
    nestingOfAll (relinedAll f nodes) = nestingOfAll nodes
  | [] => rfl
  | node :: nodes => by
    rw [relinedAll, nestingOfAll, nestingOfAll, nesting_relined node, nestingOfAll_relined nodes]

end

end Node

end Templating.Template
