import Templating.Decimal.Shortest

/-!
# Writing decimals

A `Style` fixes how the shortest decimal of a number is laid out: where positional notation ends,
whether a whole number keeps a fraction of one zero, and whether an exponent has a plus sign. The
exponent is written with `e` and has no leading zeros.
-/

namespace Templating.Decimal

/-- How a number is written. The position of the point is counted from the front of the digits, so
`12.5` has its point at 2 and `0.05` at -1. -/
structure Style where
  /-- The least position of the point for positional notation; none means no limit. -/
  least : Option Int
  /-- The greatest position of the point for positional notation; none means no limit. -/
  greatest : Option Int
  /-- Whether a whole number in positional notation ends in `.0`. -/
  fraction : Bool
  /-- Whether an exponent that is not negative has a plus sign. -/
  plus : Bool

namespace Style

/-- Whether a number with its point at `point` is written positionally. -/
def isPositional (style : Style) (point : Int) : Bool :=
  style.least.all (· ≤ point) && style.greatest.all (point ≤ ·)

def zeros (n : Nat) : List Char := List.replicate n '0'

/-- The absolute value `digits`, read with its point at `point`, in positional notation. -/
def positional (style : Style) (digits : List Char) (point : Int) : List Char :=
  let n := digits.length
  if point ≤ 0 then '0' :: '.' :: zeros (-point).toNat ++ digits
  else if point < n then digits.take point.toNat ++ '.' :: digits.drop point.toNat
  else digits ++ zeros (point.toNat - n) ++ if style.fraction then ['.', '0'] else []

/-- The same number as one digit, a fraction and an exponent. -/
def scientific (style : Style) (digits : List Char) (point : Int) : List Char :=
  let lead := if digits.length ≤ 1 then digits else digits.take 1 ++ '.' :: digits.drop 1
  let sign := if style.plus && 1 ≤ point then ['+'] else []
  lead ++ 'e' :: sign ++ (toString (point - 1)).toList

def render (style : Style) (x : Float) : String :=
  let d := (Binary.ofFloat x).shortest
  let digits := Nat.toDigits 10 d.digits
  let point := if d.digits = 0 then 1 else (digits.length : Int) + d.exponent
  let body :=
    if style.isPositional point then style.positional digits point
    else style.scientific digits point
  String.ofList (if isNegative x then '-' :: body else body)

end Style

/-- Numbers within other text, such as a setting: always positional, whole numbers bare. -/
def Style.plain : Style := ⟨none, none, false, false⟩

end Templating.Decimal
