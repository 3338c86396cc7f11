import Observatory.Double.Scaled
import Observatory.Json
import Observatory.Text.Decimal

/-!
# Numbers in JSON

A whole number that fits 64 bits is kept exact, whether signed or not. Minus zero, greater numbers
and numbers with a fraction or an exponent are doubles: of their digits those count that together
fit 64 bits, and their places are made up for by a power of ten. A number too great for a double is
no number.
-/

namespace Observatory.Json

/-- Appends digits to a number while it fits 64 bits. Gives the number, and how many digits were
appended. -/
def appendDigits (n : Nat) : List Char → Nat × Nat
  | [] => (n, 0)
  | c :: rest =>
    let longer := n * 10 + Text.digitValue c
    if longer < 0x10000000000000000 then
      let (n, count) := appendDigits longer rest
      (n, count + 1)
    else (n, 0)

def numberOf? (negative : Bool) (whole fraction : List Char) (exponent : Option Int) :
    Option Json :=
  let (head, counted) := appendDigits 0 whole
  let fits := counted = whole.length ∧ (negative → 0 < head ∧ head ≤ 0x8000000000000000)
  if fraction.isEmpty ∧ exponent.isNone ∧ fits then
    some (.int (if negative then -(head : Int) else head))
  else
    -- Digits of the whole part that do not count raise the power, those of the fraction do not.
    let (significand, places) := appendDigits head fraction
    let exponent := exponent.getD 0 + (whole.length - counted : Nat) - places
    (Double.scaled? negative significand exponent).map .double

end Observatory.Json
