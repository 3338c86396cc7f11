import Observatory.Text.Decimal
import Observatory.Toml.Node
import Observatory.Toml.Text

/-!
# Scalars of TOML

Texts, truth values, numbers, and dates and times. Digits may be parted by single underscores. An
integer fits 64 bits with a sign; a decimal one has no zero in front, and a hexadecimal, octal or
binary one has no sign. A positive number that is too great for a float is refused, while a
negative one becomes infinite.
-/

namespace Observatory.Toml

def readRun (accepts : Char → Bool) : List Char → Option (List Char × List Char)
  | ['_'] => none
  | '_' :: c :: rest =>
    if accepts c then (readRun accepts rest).map fun (run, rest) => (c :: run, rest) else none
  | c :: rest =>
    if accepts c then (readRun accepts rest).map fun (run, rest) => (c :: run, rest)
    else some ([], c :: rest)
  | [] => some ([], [])

def readDigits (accepts : Char → Bool) (cs : List Char) : Option (List Char × List Char) :=
  if (cs.head?.map accepts).getD false then readRun accepts cs else none

def integer? (n : Int) : Option Node :=
  if -0x8000000000000000 ≤ n ∧ n < 0x8000000000000000 then some (.int n) else none

/-- Reads an integer of a base that is a power of two, the letter of the base taken already. -/
def readBased (letter : Char) (cs : List Char) : Option (Node × List Char) := do
  let base ←
    if letter = 'x' then some 16 else if letter = 'o' then some 8
    else if letter = 'b' then some 2 else none
  let value c := (Text.hexValue? c).filter (· < base)
  let (digits, rest) ← readDigits (fun c => (value c).isSome) cs
  let n : Nat := digits.foldl (fun n c => n * base + (value c).getD 0) 0
  return (← integer? n, rest)

def readSign : List Char → Bool × List Char
  | '-' :: rest => (true, rest)
  | '+' :: rest => (false, rest)
  | cs => (false, cs)

def readFraction : List Char → Option (List Char × List Char)
  | '.' :: rest => readDigits Char.isDigit rest
  | cs => some ([], cs)

def readExponent (cs : List Char) : Option (Int × List Char) :=
  match cs with
  | [] => some (0, [])
  | c :: rest =>
    if c = 'e' ∨ c = 'E' then do
      let (negative, rest) := readSign rest
      let (digits, rest) ← readDigits Char.isDigit rest
      let n := Text.digitsValue digits
      return (if negative then -(n : Int) else n, rest)
    else some (0, cs)

/-- Reads the whole part of a number, which has no zero in front. -/
def readWhole : List Char → Option (List Char × List Char)
  | '0' :: rest => some (['0'], rest)
  | cs => readDigits Char.isDigit cs

/-- Reads a decimal number without its sign: an integer, or a float with a fraction, an exponent or
both. -/
def readDecimal (negative : Bool) (cs : List Char) : Option (Node × List Char) := do
  let (whole, afterWhole) ← readWhole cs
  let (fraction, afterFraction) ← readFraction afterWhole
  let (exponent, rest) ← readExponent afterFraction
  -- Neither a fraction nor an exponent was there.
  if rest.length = afterWhole.length then
    let n := Text.digitsValue whole
    return (← integer? (if negative then -(n : Int) else n), rest)
  else
    let d := Double.ofDecimal negative (Text.digitsValue (whole ++ fraction))
      (exponent - fraction.length)
    if d = .infinity false then none else some (.float d, rest)

def readNumber (cs : List Char) : Option (Node × List Char) :=
  match cs with
  | '0' :: letter :: rest =>
    -- Behind a zero, a small letter names a base, unless it begins an exponent.
    if letter.isLower ∧ letter ≠ 'e' then readBased letter rest else readDecimal false cs
  | _ =>
    match readSign cs with
    | (negative, 'i' :: 'n' :: 'f' :: rest) => some (.float (.infinity negative), rest)
    | (negative, 'n' :: 'a' :: 'n' :: rest) => some (.float (.quietNaN negative), rest)
    | (negative, rest) => readDecimal negative rest

def readField (width low high : Nat) (cs : List Char) : Option (Nat × List Char) :=
  let digits := (cs.take width).takeWhile Char.isDigit
  let n := Text.digitsValue digits
  if digits.length = width ∧ low ≤ n ∧ n ≤ high then some (n, cs.drop width) else none

def readMark (mark : Char) : List Char → Option (List Char)
  | c :: rest => if c = mark then some rest else none
  | [] => none

def readDate (cs : List Char) : Option (Time.Date × List Char) := do
  let (year, cs) ← readField 4 0 9999 cs
  let (month, cs) ← readField 2 1 12 (← readMark '-' cs)
  let (day, cs) ← readField 2 1 31 (← readMark '-' cs)
  let date : Time.Date := ⟨year, month, day⟩
  if date.isValid then some (date, cs) else none

/-- Reads a time of day. Digits of the fraction after the ninth are skipped. -/
def readClock (cs : List Char) : Option (Time.Clock × List Char) := do
  let (hour, cs) ← readField 2 0 23 cs
  let (minute, cs) ← readField 2 0 59 (← readMark ':' cs)
  let (second, cs) ← readField 2 0 60 (← readMark ':' cs)
  match cs with
  | '.' :: rest =>
    let digits := rest.takeWhile Char.isDigit
    let shown := digits.take 9
    let nano := Text.digitsValue shown * Nat.pow 10 (9 - shown.length)
    if digits.isEmpty then none else some (⟨hour, minute, second, nano⟩, rest.drop digits.length)
  | _ => some (⟨hour, minute, second, 0⟩, cs)

def readOffset (cs : List Char) : Option (Option Int × List Char) :=
  match cs with
  | [] => some (none, [])
  | c :: rest =>
    if c = 'Z' ∨ c = 'z' then some (some 0, rest)
    else if c = '+' ∨ c = '-' then do
      let (hours, rest) ← readField 2 0 23 rest
      let (minutes, rest) ← readField 2 0 59 (← readMark ':' rest)
      let offset : Int := hours * 60 + minutes
      return (some (if c = '-' then -offset else offset), rest)
    else some (none, cs)

def startsClock (cs : List Char) : Bool :=
  ((readField 2 0 99 cs).bind fun (_, rest) => readMark ':' rest).isSome

/-- Reads a date, with a time of day if one follows it behind a `T` or a space. -/
def readMoment (cs : List Char) : Option (Node × List Char) := do
  let (date, cs) ← readDate cs
  let timed rest := do
    let (clock, rest) ← readClock rest
    let (offset, rest) ← readOffset rest
    return (.time ⟨some date, some clock, offset⟩, rest)
  match cs with
  | 'T' :: rest | 't' :: rest => timed rest
  | ' ' :: rest => if startsClock rest then timed rest else some (.time ⟨some date, none, none⟩, cs)
  | _ => some (.time ⟨some date, none, none⟩, cs)

def readNumeral (cs : List Char) : Option (Node × List Char) :=
  if startsClock cs then
    (readClock cs).map fun (clock, rest) => (.time ⟨none, some clock, none⟩, rest)
  else if ((readField 4 0 9999 cs).bind fun (_, rest) => readMark '-' rest).isSome then
    readMoment cs
  else readNumber cs

def readScalar (cs : List Char) : Option (Node × List Char) :=
  match cs with
  | 't' :: 'r' :: 'u' :: 'e' :: rest => some (.bool true, rest)
  | 'f' :: 'a' :: 'l' :: 's' :: 'e' :: rest => some (.bool false, rest)
  | c :: _ =>
    if c = '"' ∨ c = '\x27' then (readText cs).map fun (text, rest) => (.text text, rest)
    else readNumeral cs
  | [] => none

end Observatory.Toml
