/-!
# Binary64 numbers

A double is its 64 bits. Two doubles are told apart by their bits (`=`); the comparison of the
numbers that they stand for (`Double.agrees`) differs from that twice: a NaN agrees with nothing,
and the two zeros agree.
-/

namespace Observatory

/-- An IEEE 754 binary64 number. -/
structure Double where
  /-- Sign, exponent and fraction, most significant bit first. -/
  bits : UInt64
  deriving DecidableEq, Repr, Inhabited

namespace Double

/-- The bits without the sign. -/
def magnitude (d : Double) : Nat :=
  d.bits.toNat % 0x8000000000000000

def isNaN (d : Double) : Bool :=
  0x7FF0000000000000 < d.magnitude

def isFinite (d : Double) : Bool :=
  d.magnitude < 0x7FF0000000000000

/-- Whether two doubles stand for the same number. -/
def agrees (a b : Double) : Bool :=
  !a.isNaN && !b.isNaN && (a.bits == b.bits || (a.magnitude == 0 && b.magnitude == 0))

def ofInt (n : Int) : Double :=
  ⟨(Float.ofInt n).toBits⟩

def infinity (negative : Bool) : Double :=
  ⟨if negative then 0xFFF0000000000000 else 0x7FF0000000000000⟩

def quietNaN (negative : Bool) : Double :=
  ⟨if negative then 0xFFF8000000000000 else 0x7FF8000000000000⟩

/-- The double nearest to `mantissa` times ten to the power `exponent`. A number whose first digit
stands beyond the four hundredth place is infinite, or zero, without any arithmetic. -/
def ofDecimal (negative : Bool) (mantissa : Nat) (exponent : Int) : Double :=
  let place := exponent + (toString mantissa).length
  if mantissa ≠ 0 ∧ 400 < place then infinity negative
  else if mantissa = 0 ∨ place < -400 then ⟨if negative then 0x8000000000000000 else 0⟩
  else
    let size := Float.ofScientific mantissa (exponent < 0) exponent.natAbs
    ⟨(if negative then -size else size).toBits⟩

@[simp]
theorem agrees_self (d : Double) : d.agrees d = !d.isNaN := by
  simp [agrees]

end Double

end Observatory
