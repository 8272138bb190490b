import Templating.Json.Number
import Templating.Text.Escape

/-!
# The tokens of JSON text

`tokens?` splits a text into brackets, separators, strings and plain values. A string may hold any
character but quotes, backslashes and control characters as it is; a character beyond the basic
plane may be escaped as a pair of surrogates, and a surrogate outside a pair is refused.
-/

namespace Templating.Json

inductive Token
  | openObj
  | closeObj
  | openArr
  | closeArr
  | colon
  | comma
  | str (value : String)
  /-- A number or one of the three words. -/
  | plain (value : Json)

/-- The characters of a string up to its closing quote, and the text behind that. -/
def string? (cs : List Char) : Option (List Char × List Char) :=
  match cs with
  | [] => none
  | c :: rest =>
    if c = '"' then some ([], rest)
    else if c = '\\' then
      match _h : Text.escape? rest with
      | none => none
      | some (e, rest') => (string? rest').map fun (s, rest) => (e :: s, rest)
    else if c.toNat < 0x20 then none
    else (string? rest).map fun (s, rest) => (c :: s, rest)
termination_by cs.length
decreasing_by
  · have := Text.length_of_escape? _h
    simp only [List.length_cons]
    omega
  · simp

theorem length_of_string? {cs s rest : List Char} (h : string? cs = some (s, rest)) :
    rest.length < cs.length := by
  fun_induction string? cs generalizing s with
  | case1 => simp at h
  | case2 =>
    simp only [Option.some.injEq, Prod.mk.injEq] at h
    obtain ⟨-, rfl⟩ := h
    simp
  | case3 => simp at h
  | case4 _ _ _ he _ ih =>
    simp only [Option.map_eq_some_iff, Prod.mk.injEq, Prod.exists] at h
    obtain ⟨s', r, hs, -, rfl⟩ := h
    have := ih hs
    have := Text.length_of_escape? he
    simp only [List.length_cons]
    omega
  | case5 => simp at h
  | case6 _ _ _ _ _ ih =>
    simp only [Option.map_eq_some_iff, Prod.mk.injEq, Prod.exists] at h
    obtain ⟨s', r, hs, -, rfl⟩ := h
    have := ih hs
    simp only [List.length_cons]
    omega

def isSpace (c : Char) : Bool := c == ' ' || c == '\n' || c == '\r' || c == '\t'

def mark? : Char → Option Token
  | '\x7b' => some .openObj
  | '\x7d' => some .closeObj
  | '[' => some .openArr
  | ']' => some .closeArr
  | ':' => some .colon
  | ',' => some .comma
  | _ => none

/-- The characters that words and numbers are made of. -/
def isPlain (c : Char) : Bool := c.isAlphanum || c == '-' || c == '+' || c == '.'

def plain? (cs : List Char) : Option Json :=
  if cs = ['n', 'u', 'l', 'l'] then some .null
  else if cs = ['t', 'r', 'u', 'e'] then some (.bool true)
  else if cs = ['f', 'a', 'l', 's', 'e'] then some (.bool false)
  else number? cs

def tokens? (cs : List Char) : Option (List Token) :=
  match cs with
  | [] => some []
  | c :: rest =>
    if isSpace c then tokens? rest
    else if c = '"' then
      match _h : string? rest with
      | none => none
      | some (s, rest') => (tokens? rest').map (.str (String.ofList s) :: ·)
    else
      match mark? c with
      | some t => (tokens? rest).map (t :: ·)
      | none =>
        if isPlain c then
          (plain? (c :: rest.takeWhile isPlain)).bind fun v =>
            (tokens? (rest.dropWhile isPlain)).map (.plain v :: ·)
        else none
termination_by cs.length
decreasing_by
  · simp
  · have := length_of_string? _h
    simp only [List.length_cons]
    omega
  · simp
  · have := (List.dropWhile_sublist isPlain (l := rest)).length_le
    simp only [List.length_cons]
    omega

end Templating.Json
