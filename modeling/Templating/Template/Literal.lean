import Templating.Text.Escape

/-!
# String literals of template code

A literal reaches to the next quote of its own kind that no backslash protects (`body?`). A
backslash in it starts an escape (`unescape?`): a letter, quote or slash for one character, `u` or
`x` with four or two hexadecimal digits, or up to three octal digits. Before any other character the
backslash stands for itself. Surrogates come in pairs, one escape right behind the other.
-/

namespace Templating.Template.Literal

/-- What is written up to the closing quote, and the text behind that. -/
def body? (quote : Char) : List Char → Option (List Char × List Char)
  | [] => none
  | [c] => if c = quote then some ([], []) else none
  | c :: d :: rest =>
    if c = quote then some ([], d :: rest)
    else if c = '\\' then (body? quote rest).map fun (s, after) => (c :: d :: s, after)
    else (body? quote (d :: rest)).map fun (s, after) => (c :: s, after)

theorem length_of_body? {quote : Char} {cs s rest : List Char}
    (h : body? quote cs = some (s, rest)) : rest.length < cs.length := by
  fun_induction body? quote cs generalizing s with
  | case1 => simp at h
  | case2 | case4 =>
    simp only [Option.some.injEq, Prod.mk.injEq] at h
    simp [← h.2]
  | case3 => simp at h
  | case5 _ _ _ ih | case6 _ _ _ _ _ ih =>
    simp only [Option.map_eq_some_iff, Prod.mk.injEq, Prod.exists] at h
    obtain ⟨s', r, hs, -, rfl⟩ := h
    have := ih hs
    simp only [List.length_cons] at *
    omega

/-- The number written in hexadecimal by the first `count` characters. The first of them may be a
plus sign. -/
def hexNumber? (count : Nat) (cs : List Char) : Option (Nat × List Char) :=
  if cs.length < count then none
  else
    let digits := match cs.take count with
      | '+' :: digits => digits
      | digits => digits
    (digits.mapM Text.hexValue).map fun ds => (ds.foldl (fun n d => n * 16 + d) 0, cs.drop count)

theorem length_of_hexNumber? {count n : Nat} {cs rest : List Char}
    (h : hexNumber? count cs = some (n, rest)) : rest.length ≤ cs.length := by
  unfold hexNumber? at h
  split at h
  · simp at h
  · simp only [Option.map_eq_some_iff, Prod.mk.injEq] at h
    obtain ⟨_, -, -, rfl⟩ := h
    simp

/-- The character whose UTF-16 form starts with the given unit: the unit itself, or a pair that it
makes up with the unit of a second escape. -/
def ofUnit? (unit : Nat) (cs : List Char) : Option (Char × List Char) :=
  if 0xD800 ≤ unit ∧ unit ≤ 0xDFFF then
    match cs with
    | '\\' :: 'u' :: cs =>
      (hexNumber? 4 cs).bind fun (low, rest) =>
        if unit < 0xDC00 ∧ 0xDC00 ≤ low ∧ low ≤ 0xDFFF then
          some (Char.ofNat (0x10000 + (unit - 0xD800) * 0x400 + (low - 0xDC00)), rest)
        else none
    | _ => none
  else some (Char.ofNat unit, cs)

theorem length_of_ofUnit? {unit : Nat} {cs rest : List Char} {c : Char}
    (h : ofUnit? unit cs = some (c, rest)) : rest.length ≤ cs.length := by
  unfold ofUnit? at h
  split at h
  · split at h
    · simp only [Option.bind_eq_some_iff, Prod.exists] at h
      obtain ⟨low, rest', hx, h⟩ := h
      split at h
      · simp only [Option.some.injEq, Prod.mk.injEq] at h
        obtain ⟨-, rfl⟩ := h
        have := length_of_hexNumber? hx
        simp only [List.length_cons]
        omega
      · simp at h
    · simp at h
  · simp only [Option.some.injEq, Prod.mk.injEq] at h
    exact h.2 ▸ Nat.le_refl _

def isOctal (c : Char) : Bool := '0' ≤ c && c ≤ '7'

/-- The character whose number, at most 255, is written in up to three octal digits. -/
def octal? (cs : List Char) : Option (Char × List Char) :=
  let digits := (cs.take 3).takeWhile isOctal
  let n := digits.foldl (fun n d => n * 8 + (d.toNat - '0'.toNat)) 0
  if n ≤ 255 then some (Char.ofNat n, cs.drop digits.length) else none

/-- What a backslash in front of `c` writes, where no number follows. -/
def letter (c : Char) : List Char :=
  if c = '\'' then [c] else ((Text.letterEscape? c).map fun e => [e]).getD ['\\', c]

/-- What an escape writes, given the characters behind the backslash, and what follows it. -/
def escape? : List Char → Option (List Char × List Char)
  | [] => none
  | 'u' :: cs =>
    ((hexNumber? 4 cs).bind fun (unit, rest) => ofUnit? unit rest).map fun (c, rest) => ([c], rest)
  | 'x' :: cs => (hexNumber? 2 cs).map fun (n, rest) => ([Char.ofNat n], rest)
  | c :: cs =>
    if isOctal c then (octal? (c :: cs)).map fun (e, rest) => ([e], rest)
    else some (letter c, cs)

theorem length_of_escape? {cs s rest : List Char} (h : escape? cs = some (s, rest)) :
    rest.length ≤ cs.length := by
  unfold escape? at h
  split at h
  · simp at h
  · simp only [Option.map_eq_some_iff, Option.bind_eq_some_iff, Prod.mk.injEq, Prod.exists] at h
    obtain ⟨_, r, ⟨_, r', hx, hu⟩, -, rfl⟩ := h
    have := length_of_hexNumber? hx
    have := length_of_ofUnit? hu
    simp only [List.length_cons]
    omega
  · simp only [Option.map_eq_some_iff, Prod.mk.injEq, Prod.exists] at h
    obtain ⟨_, r, hx, -, rfl⟩ := h
    have := length_of_hexNumber? hx
    simp only [List.length_cons]
    omega
  · split at h
    · simp only [octal?, Option.map_eq_some_iff, Prod.mk.injEq, Prod.exists] at h
      obtain ⟨_, r, hx, -, rfl⟩ := h
      split at hx
      · simp only [Option.some.injEq, Prod.mk.injEq] at hx
        exact hx.2 ▸ (List.drop_sublist _ _).length_le
      · simp at hx
    · simp only [Option.some.injEq, Prod.mk.injEq] at h
      simp [← h.2]

/-- The characters that the body of a literal stands for. -/
def unescape? (cs : List Char) : Option (List Char) :=
  match cs with
  | [] => some []
  | c :: rest =>
    if c = '\\' then
      match _h : escape? rest with
      | none => none
      | some (s, rest) => (unescape? rest).map (s ++ ·)
    else (unescape? rest).map (c :: ·)
termination_by cs.length
decreasing_by
  · have := length_of_escape? _h
    simp only [List.length_cons]
    omega
  · simp

/-- The value of the literal behind an opening quote, and what follows its closing quote. -/
def read? (quote : Char) (cs : List Char) : Option (String × List Char) :=
  (body? quote cs).bind fun (body, rest) =>
    (unescape? body).map fun value => (String.ofList value, rest)

theorem length_of_read? {quote : Char} {cs rest : List Char} {s : String}
    (h : read? quote cs = some (s, rest)) : rest.length < cs.length := by
  simp only [read?, Option.bind_eq_some_iff, Option.map_eq_some_iff, Prod.mk.injEq,
    Prod.exists] at h
  obtain ⟨body, r, hb, _, -, -, rfl⟩ := h
  exact length_of_body? hb

end Templating.Template.Literal
