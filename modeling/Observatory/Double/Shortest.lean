import Observatory.Double

/-!
# The shortest decimal of a double

The decimal of a double is the one with the fewest digits among those that are rounded to it, and of
several such the one nearest to it; of two that are equally near it is the one whose last digit is
even. All is worked out in whole numbers.
-/

namespace Observatory

structure Decimal where
  coefficient : Nat
  exponent : Int
  deriving DecidableEq, Repr

namespace Double

def isNegative (d : Double) : Bool :=
  0x8000000000000000 ≤ d.bits.toNat

def exponentBits (d : Double) : Nat :=
  d.magnitude / 0x10000000000000

/-- The fraction, with the bit in front of it that is not stored; subnormal numbers have none. -/
def significand (d : Double) : Nat :=
  d.magnitude % 0x10000000000000 + if d.exponentBits = 0 then 0 else 0x10000000000000

def power (d : Double) : Int :=
  (max d.exponentBits 1 : Nat) - 1075

/-- Whether the double below is nearer than the one above, as it is where the exponent changes. -/
def isBoundary (d : Double) : Bool :=
  d.significand == 0x10000000000000 && 1 < d.exponentBits

/-- A multiple of ten to the power `place` that is rounded to the double, if there is one, the
nearest one first. -/
def multipleOf? (d : Double) (place : Int) : Option Nat :=
  -- Sizes are counted in quarters of the last place, and both they and the multiples of the power
  -- are scaled to whole numbers.
  let quarters := 4 * d.significand
  let power := d.power - 2
  let scale := Nat.pow 2 power.toNat * Nat.pow 10 (-place).toNat
  let step := Nat.pow 2 (-power).toNat * Nat.pow 10 place.toNat
  let low := (quarters - if d.isBoundary then 1 else 2) * scale
  let high := (quarters + 2) * scale
  -- The ends of the interval are rounded to the even significand.
  let isInside (n : Nat) : Bool :=
    if d.significand % 2 = 0 then low ≤ n * step && n * step ≤ high
    else low < n * step && n * step < high
  let floor := quarters * scale / step
  let rest := quarters * scale % step
  let candidates :=
    if 2 * rest < step ∨ (2 * rest = step ∧ floor % 2 = 0) then [floor, floor + 1]
    else [floor + 1, floor]
  candidates.find? isInside

/-- The greatest power of ten that a decimal of a double is a multiple of. -/
def firstPlace : Int := 309

/-- The number of places from the first one to the last digit of the least doubles. -/
def placeCount : Nat := 660

def shortest (d : Double) : Decimal :=
  let places := (List.range placeCount).map fun (n : Nat) => firstPlace - n
  if d.magnitude = 0 then ⟨0, 0⟩
  else (places.findSome? fun place => (d.multipleOf? place).map (⟨·, place⟩)).getD ⟨0, 0⟩

end Double

end Observatory
