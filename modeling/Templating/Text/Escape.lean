import Templating.Text.Hex

/-!
# Escapes in strings

A backslash starts an escape: a letter for a quote, a backslash, a slash or one of five control
characters, or `u` with four hexadecimal digits. A character beyond the basic plane is written as a
pair of surrogates; a surrogate outside a pair stands for nothing.
-/

namespace Templating.Text

/-- Four hexadecimal digits at the start of a text. -/
def hex4? : List Char → Option (Nat × List Char)
  | a :: b :: c :: d :: rest =>
    match hexValue a, hexValue b, hexValue c, hexValue d with
    | some a, some b, some c, some d => some (((a * 16 + b) * 16 + c) * 16 + d, rest)
    | _, _, _, _ => none
  | _ => none

theorem length_of_hex4? {cs rest : List Char} {n : Nat} (h : hex4? cs = some (n, rest)) :
    rest.length < cs.length := by
  unfold hex4? at h
  split at h
  · split at h
    · simp only [Option.some.injEq, Prod.mk.injEq] at h
      obtain ⟨-, rfl⟩ := h
      simp only [List.length_cons]
      omega
    · simp at h
  · simp at h

/-- The second half of a pair of surrogates whose first half is `high`. -/
def pair? (high : Nat) : List Char → Option (Char × List Char)
  | '\\' :: 'u' :: cs =>
    (hex4? cs).bind fun (low, rest) =>
      if 0xDC00 ≤ low ∧ low ≤ 0xDFFF then
        some (Char.ofNat (0x10000 + (high - 0xD800) * 0x400 + (low - 0xDC00)), rest)
      else none
  | _ => none

theorem length_of_pair? {high : Nat} {cs rest : List Char} {c : Char}
    (h : pair? high cs = some (c, rest)) : rest.length < cs.length := by
  unfold pair? at h
  split at h
  · simp only [Option.bind_eq_some_iff, Prod.exists] at h
    obtain ⟨low, rest', hx, h⟩ := h
    split at h
    · simp only [Option.some.injEq, Prod.mk.injEq] at h
      obtain ⟨-, rfl⟩ := h
      have := length_of_hex4? hx
      simp only [List.length_cons]
      omega
    · simp at h
  · simp at h

/-- The character that an escape of one letter stands for. -/
def letterEscape? : Char → Option Char
  | '"' => some '"'
  | '\\' => some '\\'
  | '/' => some '/'
  | 'b' => some (Char.ofNat 8)
  | 'f' => some (Char.ofNat 12)
  | 'n' => some '\n'
  | 'r' => some '\r'
  | 't' => some '\t'
  | _ => none

/-- The character written by an escape, given what follows the backslash. -/
def escape? : List Char → Option (Char × List Char)
  | [] => none
  | 'u' :: cs =>
    match hex4? cs with
    | none => none
    | some (n, rest) =>
      if 0xD800 ≤ n ∧ n ≤ 0xDBFF then pair? n rest
      else if 0xDC00 ≤ n ∧ n ≤ 0xDFFF then none
      else some (Char.ofNat n, rest)
  | c :: rest => (letterEscape? c).map fun c => (c, rest)

theorem length_of_escape? {cs rest : List Char} {c : Char} (h : escape? cs = some (c, rest)) :
    rest.length < cs.length := by
  unfold escape? at h
  split at h
  · simp at h
  · split at h
    · simp at h
    · next hx =>
      have hl := length_of_hex4? hx
      simp only [List.length_cons]
      split at h
      · have := length_of_pair? h
        omega
      · split at h
        · simp at h
        · simp only [Option.some.injEq, Prod.mk.injEq] at h
          obtain ⟨-, rfl⟩ := h
          omega
  · simp only [Option.map_eq_some_iff, Prod.mk.injEq] at h
    obtain ⟨_, -, -, rfl⟩ := h
    simp

end Templating.Text
