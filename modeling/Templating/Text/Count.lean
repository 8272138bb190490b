/-!
# Counts

A count is a whole number below `2 ^ 64`. It is written in ASCII digits, of which the first may be
zeros, and a plus sign may stand in front.
-/

namespace Templating.Text

def ofDigitChars (digits : List Char) : Nat :=
  digits.foldl (fun n c => n * 10 + (c.toNat - '0'.toNat)) 0

def count? (s : String) : Option Nat :=
  let digits :=
    match s.toList with
    | '+' :: rest => rest
    | cs => cs
  if digits ≠ [] ∧ digits.all Char.isDigit ∧ ofDigitChars digits < Nat.pow 2 64 then
    some (ofDigitChars digits)
  else none

end Templating.Text
