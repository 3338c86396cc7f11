/-!
# Hexadecimal digits

Numbers as runs of hexadecimal digits: the value of a digit in either case, and the spelling of a
number in small letters.
-/

namespace Observatory.Text

def hexValue? (c : Char) : Option Nat :=
  if c.isDigit then some (c.toNat - '0'.toNat)
  else if 'a' ≤ c ∧ c ≤ 'f' then some (c.toNat - 'a'.toNat + 10)
  else if 'A' ≤ c ∧ c ≤ 'F' then some (c.toNat - 'A'.toNat + 10)
  else none

/-- The number that a run of hexadecimal digits spells, most significant digit first. -/
def hexRun? (digits : List Char) : Option Nat :=
  digits.foldlM (fun n c => (hexValue? c).map (n * 16 + ·)) 0

/-- The last `width` hexadecimal digits of a number. -/
def hexDigits : (width n : Nat) → List Char
  | 0, _ => []
  | width + 1, n => hexDigits width (n / 16) ++ [Nat.digitChar (n % 16)]

def hexOfBytes (bytes : List UInt8) : List Char :=
  bytes.flatMap fun b => hexDigits 2 b.toNat

/-- The bytes that pairs of hexadecimal digits spell; anything else counts as zeros. -/
def bytesOfHex : List Char → List UInt8
  | a :: b :: rest => UInt8.ofNat ((hexRun? [a, b]).getD 0) :: bytesOfHex rest
  | _ => []

@[simp]
theorem length_hexDigits (width n : Nat) : (hexDigits width n).length = width := by
  induction width generalizing n with
  | zero => rfl
  | succ width ih => simp [hexDigits, ih]

end Observatory.Text
