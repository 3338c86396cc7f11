import Observatory.Text.Ascii

/-!
# Decimal digits

Numbers as runs of ASCII digits: the value of a run, and the padded spelling of a number.
-/

namespace Observatory.Text

/-- The value of an ASCII digit; zero for any other character. -/
def digitValue (c : Char) : Nat :=
  if c.isDigit then c.toNat - '0'.toNat else 0

def digitsValue (digits : List Char) : Nat :=
  digits.foldl (fun n c => n * 10 + digitValue c) 0

/-- Reads a text that is a whole number of at most 64 bits: digits, and perhaps a plus in front. -/
def word? (text : String) : Option Nat :=
  let digits := match text.toList with
    | '+' :: digits => digits
    | digits => digits
  let n := digitsValue digits
  if digits ≠ [] ∧ digits.all Char.isDigit ∧ n < 0x10000000000000000 then some n else none

/-- Whether a text is a number with a point or an exponent, or with neither; there is a digit beside
the point. -/
def isDecimal (cs : List Char) : Bool :=
  let whole := cs.takeWhile Char.isDigit
  let rest := cs.drop whole.length
  let fraction := if rest.head? = some '.' then rest.tail.takeWhile Char.isDigit else []
  let rest := if rest.head? = some '.' then rest.tail.drop fraction.length else rest
  let exponent := match rest with
    | c :: '+' :: digits | c :: '-' :: digits => some (c, digits)
    | c :: digits => some (c, digits)
    | [] => none
  !(whole ++ fraction).isEmpty &&
    exponent.all fun (c, digits) => c.toLower == 'e' && !digits.isEmpty && digits.all Char.isDigit

/-- Whether a text is a number, perhaps with a sign in front, or stands for infinity or for no
number. -/
def isNumber (text : String) : Bool :=
  let size := match text.toList with
    | '+' :: size | '-' :: size => size
    | size => size
  isDecimal size ||
    ["inf", "infinity", "nan"].any (sameIgnoringCase (String.ofList size))

def digitChar (n : Nat) : Char :=
  Char.ofNat ('0'.toNat + n % 10)

/-- The last `width` decimal digits of `n`, with zeros in front. -/
def padded : (width n : Nat) → List Char
  | 0, _ => []
  | width + 1, n => padded width (n / 10) ++ [digitChar n]

def atLeast (width n : Nat) : List Char :=
  let digits := (toString n).toList
  List.replicate (width - digits.length) '0' ++ digits

@[simp]
theorem length_padded (width n : Nat) : (padded width n).length = width := by
  induction width generalizing n with
  | zero => rfl
  | succ width ih => simp [padded, ih]

end Observatory.Text
