import Observatory.Double.Shortest
import Observatory.Json
import Observatory.Text.Hex

/-!
# Writing JSON

A value is written without spaces and in ASCII: any other character is written as its units of
UTF-16. A double is written with the fewest digits that are rounded to it.
-/

namespace Observatory.Json

def unitText (n : Nat) : List Char :=
  '\\' :: 'u' :: Text.hexDigits 4 n

def charText (c : Char) : List Char :=
  let n := c.toNat
  if c = '"' ∨ c = '\\' then ['\\', c]
  else if 0x20 ≤ n ∧ n < 0x7F then [c]
  else if n < 0x10000 then unitText n
  else unitText (0xD800 + (n - 0x10000) / 0x400) ++ unitText (0xDC00 + (n - 0x10000) % 0x400)

def textText (s : String) : List Char :=
  '"' :: s.toList.flatMap charText ++ ['"']

/-- A decimal number. The point is written among its digits, or among zeros beside them, if the
first digit stands between the fifth place after the point and the sixteenth before it; otherwise
the point is written behind the first digit, and the power of ten is written with its sign. -/
def decimalText (d : Decimal) : List Char :=
  let digits := (toString d.coefficient).toList
  let order := d.exponent + digits.length - 1
  if 0 ≤ order ∧ order ≤ 15 then
    let whole := order.toNat + 1
    let fraction := digits.drop whole
    digits.take whole ++ List.replicate (whole - digits.length) '0' ++ '.' ::
      (if fraction.isEmpty then ['0'] else fraction)
  else if -5 ≤ order ∧ order < 0 then
    '0' :: '.' :: List.replicate (order.natAbs - 1) '0' ++ digits
  else
    let fraction := digits.drop 1
    digits.take 1 ++ (if fraction.isEmpty then [] else '.' :: fraction) ++
      ['e', if order < 0 then '-' else '+'] ++ (toString order.natAbs).toList

def doubleText (d : Double) : List Char :=
  (if d.isNegative then ['-'] else []) ++ decimalText d.shortest

mutual

def chars : Json → List Char
  | .null => "null".toList
  | .bool b => (toString b).toList
  | .int n => (toString n).toList
  | .double d => if d.isFinite then doubleText d else "null".toList
  | .text s => textText s
  | .list items => '[' :: itemChars items ++ [']']
  | .object fields => '\x7b' :: fieldChars fields ++ ['\x7d']

def itemChars : List Json → List Char
  | [] => []
  | [j] => j.chars
  | j :: js => j.chars ++ ',' :: itemChars js

def fieldChars : List (String × Json) → List Char
  | [] => []
  | [(name, j)] => textText name ++ ':' :: j.chars
  | (name, j) :: rest => textText name ++ ':' :: j.chars ++ ',' :: fieldChars rest

end

def render (j : Json) : String :=
  String.ofList j.chars

/-- What kind of value this is, in words. A number or a truth value is shown. -/
def kindText : Json → String
  | .null => "null"
  | .bool b => s!"boolean `{b}`"
  | .int n => s!"integer `{n}`"
  | .double d => s!"floating point `{String.ofList (doubleText d)}`"
  | .text _ => "string"
  | .list _ => "sequence"
  | .object _ => "map"

end Observatory.Json
