import Observatory.Double

/-!
# Scaling by powers of ten

A whole number times a power of ten, worked out in doubles: the number is rounded, the power is
rounded, and so is their product or quotient. The result can lie a little beside the double that is
nearest to the exact value. Powers of more than 308 places are taken in steps.
-/

namespace Observatory.Double

/-- The most places that are moved in one step: no greater power of ten is a double. -/
def maxPlaces : Nat := 308

def powerOfTen (places : Nat) : Float :=
  Float.ofScientific 1 false places

/-- Divides by a power of ten, the greatest steps first. Nothing is left to divide of a zero. -/
def scaleDown (size : Float) (places : Nat) : Float :=
  if places ≤ maxPlaces then size / powerOfTen places
  else if size == 0 then size
  else scaleDown (size / powerOfTen maxPlaces) (places - maxPlaces)
termination_by places
decreasing_by simp_all [maxPlaces]; omega

def scaleUp? (size : Float) (places : Nat) : Option Float :=
  if places ≤ maxPlaces then
    let scaled := size * powerOfTen places
    if scaled.isInf then none else some scaled
  else if size == 0 then some size
  else none

/-- A whole number of at most 64 bits times a power of ten, unless it is too great. -/
def scaled? (negative : Bool) (significand : Nat) (exponent : Int) : Option Double :=
  let size := (UInt64.ofNat significand).toFloat
  let result :=
    if 0 ≤ exponent then scaleUp? size exponent.toNat else some (scaleDown size exponent.natAbs)
  result.map fun size => ⟨(if negative then -size else size).toBits⟩

end Observatory.Double
