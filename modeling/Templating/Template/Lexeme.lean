import Templating.Template.Declaration
import Templating.Template.Literal

/-!
# The lexemes of template code

The code between the delimiters of a tag is made of names, strings, whole numbers and a few marks,
with ASCII blanks between them. The code ends at a closing delimiter. Some of these carry a sign: a
hyphen removes the blanks behind the tag.
-/

namespace Templating.Template

inductive Lexeme
  | name (id : String)
  | str (value : String)
  | int (value : Nat)
  | dot
  | comma
  | assign
  | pipe
  | openParen
  | closeParen
  deriving DecidableEq

/-- A lexeme and the line on which it starts. -/
structure Token where
  lexeme : Lexeme
  line : Nat

namespace Lexeme

def isSpace (c : Char) : Bool :=
  c == ' ' || c == '\t' || c == '\n' || c == '\r' || c.toNat == 12

def mark? : Char → Option Lexeme
  | '.' => some .dot
  | ',' => some .comma
  | '=' => some .assign
  | '|' => some .pipe
  | '(' => some .openParen
  | ')' => some .closeParen
  | _ => none

def decimal (digits : List Char) : Nat :=
  digits.foldl (fun n d => n * 10 + (d.toNat - '0'.toNat)) 0

/-- The lexeme at the start of a text that starts with `c`, and what is behind it. -/
def next? (c : Char) (rest : List Char) : Option (Lexeme × List Char) :=
  if c = '"' ∨ c = '\'' then
    (Literal.read? c rest).map fun (s, rest) => (.str s, rest)
  else if c.isDigit then
    let n := decimal (c :: rest.takeWhile Char.isDigit)
    if n < Nat.pow 2 128 then some (.int n, rest.dropWhile Char.isDigit) else none
  else if Declaration.isNameStart c then
    some (.name (String.ofList (c :: rest.takeWhile Declaration.isNameChar)),
      rest.dropWhile Declaration.isNameChar)
  else (mark? c).map fun mark => (mark, rest)

theorem length_of_next? {c : Char} {rest after : List Char} {l : Lexeme}
    (h : next? c rest = some (l, after)) : after.length ≤ rest.length := by
  unfold next? at h
  split at h
  · simp only [Option.map_eq_some_iff, Prod.mk.injEq, Prod.exists] at h
    obtain ⟨s, r, hs, -, rfl⟩ := h
    exact Nat.le_of_lt (Literal.length_of_read? hs)
  · split at h
    · dsimp only at h
      split at h
      · simp only [Option.some.injEq, Prod.mk.injEq] at h
        rw [← h.2]
        exact (List.dropWhile_sublist _).length_le
      · simp at h
    · split at h
      · simp only [Option.some.injEq, Prod.mk.injEq] at h
        rw [← h.2]
        exact (List.dropWhile_sublist _).length_le
      · simp only [Option.map_eq_some_iff, Prod.mk.injEq] at h
        obtain ⟨_, -, -, rfl⟩ := h
        exact Nat.le_refl _

end Lexeme

/-- The lines that a text goes down. -/
def newlines (cs : List Char) : Nat := cs.count '\n'

/-- The lines that `cs` goes down before its end part `after`. -/
def passed (cs after : List Char) : Nat := newlines (cs.take (cs.length - after.length))

structure Code where
  tokens : List Token
  /-- Whether blanks behind the tag are removed. -/
  trim : Bool
  /-- The line of the closing delimiter. -/
  line : Nat
  rest : List Char

namespace Code

/-- A closing delimiter, and whether it removes the blanks behind the tag. -/
structure Closer where
  mark : List Char
  trim : Bool

/-- Whether a text starts with a closing delimiter that removes blanks, and what is behind it. -/
def closed? (closers : List Closer) (cs : List Char) : Option (Bool × List Char) :=
  closers.findSome? fun closer => (Text.dropMark closer.mark cs).map fun rest => (closer.trim, rest)

/-- Reads code that starts on the given line, up to a closing delimiter. -/
def read? (closers : List Closer) (line : Nat) (cs : List Char) : Option Code :=
  match cs with
  | [] => none
  | c :: rest =>
    if Lexeme.isSpace c then read? closers (line + newlines [c]) rest
    else
      match closed? closers (c :: rest) with
      | some (trim, rest) => some ⟨[], trim, line, rest⟩
      | none =>
        match _h : Lexeme.next? c rest with
        | none => none
        | some (lexeme, after) =>
          (read? closers (line + passed (c :: rest) after) after).map fun code =>
            { code with tokens := ⟨lexeme, line⟩ :: code.tokens }
termination_by cs.length
decreasing_by
  · simp
  · have := Lexeme.length_of_next? _h
    simp only [List.length_cons]
    omega

theorem length_of_closed? {closers : List Closer} {cs rest : List Char} {trim : Bool}
    (h : closed? closers cs = some (trim, rest)) : rest.length ≤ cs.length := by
  obtain ⟨closer, -, h⟩ := List.exists_of_findSome?_eq_some h
  simp only [Option.map_eq_some_iff, Prod.mk.injEq] at h
  obtain ⟨_, hd, -, rfl⟩ := h
  rw [Text.dropMark_eq_some.1 hd, List.length_append]
  exact Nat.le_add_left ..

theorem length_of_read? {closers : List Closer} {line : Nat} {cs : List Char} {code : Code}
    (h : read? closers line cs = some code) : code.rest.length ≤ cs.length := by
  fun_induction read? closers line cs generalizing code with
  | case1 => simp at h
  | case2 _ _ _ _ ih => exact Nat.le_succ_of_le (ih h)
  | case3 _ _ _ _ _ _ hc =>
    simp only [Option.some.injEq] at h
    exact h ▸ length_of_closed? hc
  | case4 => simp at h
  | case5 _ _ _ _ _ _ _ hn ih =>
    simp only [Option.map_eq_some_iff] at h
    obtain ⟨inner, hi, rfl⟩ := h
    have := ih hi
    have := Lexeme.length_of_next? hn
    simp only [List.length_cons]
    omega

end Code

end Templating.Template
