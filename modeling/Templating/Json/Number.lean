import Templating.Json.Basic

/-!
# JSON numbers

A number without fraction and exponent that fits 64 bits, with or without sign, is exact; any
other is floating point. The floating-point value is the first digits that fit an unsigned 64-bit
word, times or divided by one power of ten, each step rounded once; a number too large for this is
refused.
-/

namespace Templating.Json

/-- The parts of a number as it is written: digits of the whole part, digits of the fraction, and
the exponent. -/
structure Literal where
  negative : Bool
  whole : List Nat
  fraction : Option (List Nat)
  exponent : Option Int

/-- One more than the largest unsigned 64-bit word. -/
def wordLimit : Nat := Nat.pow 2 64

def ofDigits (digits : List Nat) : Nat := digits.foldl (fun n d => n * 10 + d) 0

/-- Appends digits to `n` while the result fits a word, and returns the digits that did not. -/
def absorbDigits (n : Nat) : List Nat → Nat × List Nat
  | [] => (n, [])
  | d :: digits =>
    if n * 10 + d < wordLimit then absorbDigits (n * 10 + d) digits else (n, d :: digits)

/-- The power of ten `10 ^ n`, for `n` up to 308. -/
def powerOfTen (n : Nat) : Float := Float.ofScientific 1 false n

/-- `value · 10 ^ exponent`, in steps of at most 308 places downwards. -/
def scale (value : Float) (exponent : Int) : Option Float :=
  if 0 ≤ exponent then
    if exponent ≤ 308 then
      let r := value * powerOfTen exponent.toNat
      if r.isInf then none else some r
    else if value == 0.0 then some value else none
  else
    let places := exponent.natAbs
    let steps := (places - 1) / 308
    if steps > 8 then some 0.0
    else
      let near := (List.range steps).foldl (fun v _ => v / powerOfTen 308) value
      some (near / powerOfTen (places - 308 * steps))

namespace Literal

def real? (l : Literal) : Option Float :=
  let (significand, leftover) := absorbDigits 0 l.whole
  let fraction := l.fraction.getD []
  let (significand, unused) := absorbDigits significand fraction
  let places : Int := (leftover.length : Int) - ((fraction.length - unused.length : Nat) : Int)
  let value := significand.toUInt64.toFloat
  (scale value (places + l.exponent.getD 0)).map fun r => if l.negative then -r else r

/-- The value of a literal, exact where it can be. -/
def value? (l : Literal) : Option Json :=
  let n := ofDigits l.whole
  match l.fraction, l.exponent with
  | none, none =>
    if l.negative then
      if 0 < n ∧ n ≤ Nat.pow 2 63 then some (.int (-(n : Int))) else l.real?.map .real
    else if n < wordLimit then some (.int n)
    else l.real?.map .real
  | _, _ => l.real?.map .real

end Literal

def digit? (c : Char) : Option Nat := if c.isDigit then some (c.toNat - 48) else none

def digitsOf (cs : List Char) : List Nat := cs.filterMap digit?

/-- Reads an exponent, a sign and at least one digit, from the whole of `cs`. -/
def exponent? (cs : List Char) : Option Int :=
  let (negative, digits) :=
    match cs with
    | '-' :: rest => (true, rest)
    | '+' :: rest => (false, rest)
    | _ => (false, cs)
  if digits.isEmpty || !digits.all Char.isDigit then none
  else
    let n : Int := ofDigits (digitsOf digits)
    some (if negative then -n else n)

/-- Reads a number from the whole of `cs`: a sign, a whole part without leading zeros, a fraction
and an exponent. -/
def literal? (cs : List Char) : Option Literal :=
  let (negative, cs) :=
    match cs with
    | '-' :: rest => (true, rest)
    | _ => (false, cs)
  let whole := cs.takeWhile Char.isDigit
  let rest := cs.dropWhile Char.isDigit
  let wholeOk := !whole.isEmpty && (whole.length = 1 || whole.head? != some '0')
  let (fraction, rest, fractionOk) :=
    match rest with
    | '.' :: more =>
      let digits := more.takeWhile Char.isDigit
      (some (digitsOf digits), more.dropWhile Char.isDigit, !digits.isEmpty)
    | _ => (none, rest, true)
  if !wholeOk || !fractionOk then none
  else
    let finish := fun e => some ⟨negative, digitsOf whole, fraction, e⟩
    match rest with
    | [] => finish none
    | c :: more =>
      if c = 'e' ∨ c = 'E' then (exponent? more).bind fun e => finish (some e) else none

def number? (cs : List Char) : Option Json := (literal? cs).bind Literal.value?

end Templating.Json
