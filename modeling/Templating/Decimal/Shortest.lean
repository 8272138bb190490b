/-!
# The shortest decimal of a binary number

A finite floating-point number stands for every real number that rounds to it. `shortest` is the
decimal with the fewest digits among those, and of two such decimals the nearer one. All
arithmetic is exact: a number is a mantissa times a power of two, and a candidate is compared with
the ends of the rounding interval by cross-multiplication.
-/

namespace Templating.Decimal

/-- The number `mantissa · 2 ^ exponent`, with the lower neighbour at half distance when
`narrowBelow` holds. -/
structure Binary where
  mantissa : Nat
  exponent : Int
  narrowBelow : Bool

/-- The number `digits · 10 ^ exponent`. -/
structure Numeral where
  digits : Nat
  exponent : Int
  deriving DecidableEq

/-- The absolute value of a finite float. -/
def Binary.ofFloat (x : Float) : Binary :=
  let bits := x.toBits.toNat
  let fraction := bits % Nat.pow 2 52
  let exponent : Nat := bits / Nat.pow 2 52 % Nat.pow 2 11
  if exponent = 0 then ⟨fraction, -1074, false⟩
  else ⟨fraction + Nat.pow 2 52, Int.ofNat exponent - 1075, fraction = 0 && exponent > 1⟩

/-- Whether the sign bit of a float is set, also for a zero. -/
def isNegative (x : Float) : Bool := x.toBits.toNat / Nat.pow 2 63 % 2 = 1

namespace Binary

/-- By what a number of quarters of the last place is multiplied to be compared with a number of
grid points of spacing `10 ^ k`. -/
def quarterFactor (b : Binary) (k : Int) : Nat :=
  Nat.pow 2 (b.exponent - 2).toNat * Nat.pow 10 (-k).toNat

/-- By what a number of grid points of spacing `10 ^ k` is multiplied for that comparison. -/
def gridFactor (b : Binary) (k : Int) : Nat :=
  Nat.pow 2 (2 - b.exponent).toNat * Nat.pow 10 k.toNat

/-- Whether the grid point `c · 10 ^ k` rounds to the number. The ends of the interval belong to it
when the mantissa is even. -/
def admits (b : Binary) (k : Int) (c : Nat) : Bool :=
  let low := (4 * b.mantissa - if b.narrowBelow then 1 else 2) * b.quarterFactor k
  let high := (4 * b.mantissa + 2) * b.quarterFactor k
  let point := c * b.gridFactor k
  if b.mantissa % 2 = 0 then low ≤ point && point ≤ high else low < point && point < high

/-- The grid point at or below the number. -/
def floorOn (b : Binary) (k : Int) : Nat := 4 * b.mantissa * b.quarterFactor k / b.gridFactor k

/-- The nearer of the two grid points around the number that round to it, if any does. An exact
tie goes to the even one. Ten units of a place are written as one of the next. -/
def nearestOn (b : Binary) (k : Int) : Option Numeral :=
  let c := b.floorOn k
  let pick := fun c => some (if c = 10 then ⟨1, k + 1⟩ else ⟨c, k⟩)
  match b.admits k c, b.admits k (c + 1) with
  | true, false => pick c
  | false, true => pick (c + 1)
  | false, false => none
  | true, true =>
    let twice := 8 * b.mantissa * b.quarterFactor k
    let middle := (2 * c + 1) * b.gridFactor k
    if twice < middle || (twice = middle && c % 2 = 0) then pick c else pick (c + 1)

/-- The power of ten of the leading digit. -/
def magnitude (b : Binary) : Int :=
  let scaled :=
    b.mantissa * Nat.pow 2 b.exponent.toNat * Nat.pow 10 400 / Nat.pow 2 (-b.exponent).toNat
  ((Nat.toDigits 10 scaled).length : Int) - 401

/-- The shortest decimal that rounds to the number; seventeen digits always suffice. -/
def shortest (b : Binary) : Numeral :=
  if b.mantissa = 0 then ⟨0, 0⟩
  else
    let top := b.magnitude
    let found := (List.range 17).findSome? fun (n : Nat) => b.nearestOn (top - n)
    found.getD ⟨b.floorOn (top - 16), top - 16⟩

end Binary

end Templating.Decimal
