import Observatory.Text.Blank
import Observatory.Text.Decimal
import Observatory.Time.Utc

/-!
# Reading RFC 3339 times

The reader takes any offset from UTC, a `T` or a space before the time of day, letters in either
case, blanks around the parts, numbers with fewer digits than usual, and fractions with more digits
than nanoseconds need. A fault in the text wins over a date that does not exist, and of two faults
in the text the first one counts.
-/

namespace Observatory.Time

inductive TimeError where
  | premature
  | invalid
  /-- A number is beyond what it counts, or the date does not exist. -/
  | outOfRange
  /-- The time lies beyond the range of times once its offset is taken away. -/
  | impossible
  | trailing
  deriving DecidableEq, Repr

def TimeError.message : TimeError → String
  | .premature => "premature end of input"
  | .invalid => "input contains invalid characters"
  | .outOfRange => "input is out of range"
  | .impossible => "no possible date and time matching input"
  | .trailing => "trailing input"

def unexpected (cs : List Char) : TimeError :=
  if cs.isEmpty then .premature else .invalid

/-- Reads a number of one digit or more, and no more than `limit` if one is given. -/
def readNumber (limit : Option Nat) (cs : List Char) : Except TimeError (Nat × List Char) :=
  let digits := ((limit.map cs.take).getD cs).takeWhile Char.isDigit
  if digits.isEmpty then .error (unexpected cs)
  else .ok (Text.digitsValue digits, cs.drop digits.length)

def readMark (mark : Char) (cs : List Char) : Except TimeError (List Char) :=
  match Text.trimStart cs with
  | [] => .error .premature
  | c :: rest => if c = mark then .ok rest else .error .invalid

/-- Reads a number of at most two digits that lies between two bounds, after blanks. -/
def readField (low high : Nat) (cs : List Char) : Except TimeError (Nat × List Char) := do
  let (n, rest) ← readNumber (some 2) (Text.trimStart cs)
  if low ≤ n ∧ n ≤ high then return (n, rest) else throw .outOfRange

/-- Reads a year: four digits at most, or a sign and any number of them. A year needs no more than
32 bits. -/
def readYear (cs : List Char) : Except TimeError (Int × List Char) := do
  let (year, rest) ← match Text.trimStart cs with
    | '-' :: digits => do
      let (n, rest) ← readNumber none digits
      pure (-(n : Int), rest)
    | '+' :: digits => do
      let (n, rest) ← readNumber none digits
      pure ((n : Int), rest)
    | digits => do
      let (n, rest) ← readNumber (some 4) digits
      pure ((n : Int), rest)
  if -0x80000000 ≤ year ∧ year < 0x80000000 then return (year, rest) else throw .outOfRange

def readDate (cs : List Char) : Except TimeError (Date × List Char) := do
  let (year, cs) ← readYear cs
  let cs ← readMark '-' cs
  let (month, cs) ← readField 1 12 cs
  let cs ← readMark '-' cs
  let (day, cs) ← readField 1 31 cs
  return (⟨year, month, day⟩, cs)

def readDivider : List Char → Except TimeError (List Char)
  | [] => .error .premature
  | c :: rest => if c = 'T' ∨ c = 't' ∨ c = ' ' then .ok rest else .error .invalid

/-- Reads a fraction of a second in nanoseconds, if there is one. Digits after the ninth are
skipped. -/
def readFraction : List Char → Except TimeError (Nat × List Char)
  | '.' :: cs => do
    let (n, rest) ← readNumber (some 9) cs
    -- Fewer than nine digits stand for the leading digits of nanoseconds.
    return (n * Nat.pow 10 (9 - (cs.length - rest.length)), rest.dropWhile Char.isDigit)
  | cs => .ok (0, cs)

structure Clock where
  hour : Nat
  minute : Nat
  /-- The second; 60 is the leap second of its minute. -/
  second : Nat
  nano : Nat
  deriving DecidableEq, Repr

def readClock (cs : List Char) : Except TimeError (Clock × List Char) := do
  let (hour, cs) ← readField 0 23 cs
  let cs ← readMark ':' cs
  let (minute, cs) ← readField 0 59 cs
  let cs ← readMark ':' cs
  let (second, cs) ← readField 0 60 cs
  let (nano, cs) ← readFraction cs
  return (⟨hour, minute, second, nano⟩, Text.trimStart cs)

/-- Reads two digits that stand directly at the start, the first of them below `bound`. -/
def readPair (bound : Nat) (cs : List Char) : Except TimeError (Nat × List Char) :=
  match cs with
  | a :: b :: rest =>
    if a.isDigit ∧ b.isDigit then
      if Text.digitValue a < bound then .ok (Text.digitsValue [a, b], rest)
      else .error .outOfRange
    else .error .invalid
  | [a] => .error (if a.utf8Size = 1 then .premature else .invalid)
  | [] => .error .premature

def readOffset (cs : List Char) : Except TimeError (Int × List Char) :=
  if (cs.take 3).map Char.toLower = ['u', 't', 'c'] then .ok (0, cs.drop 3)
  else
    match cs with
    | [] => .error .premature
    | c :: rest =>
      if c = 'Z' ∨ c = 'z' then .ok (0, rest)
      else if c = '+' ∨ c = '-' ∨ c = '−' then do
        let (hours, rest) ← readPair 10 rest
        let (minutes, rest) ← readPair 6 (rest.dropWhile fun c => c == ':' || Text.isBlank c)
        let offset : Int := hours * 3600 + minutes * 60
        return (if c = '+' then offset else -offset, rest)
      else .error .invalid

/-- The time that a date, a time of day and an offset from UTC name together. -/
def resolve (date : Date) (clock : Clock) (offset : Int) : Except TimeError UtcTime :=
  if !date.isValid || date.year < firstYear || lastYear < date.year then .error .outOfRange
  else if secondsPerDay ≤ offset.natAbs then .error .outOfRange
  else
    let second : Int :=
      clock.hour * 3600 + clock.minute * 60 + (min clock.second 59 : Nat) - offset
    -- The leap second of a minute is its last second, with a nanosecond count beyond that second.
    let nano := if clock.second = 60 then nanosPerSecond + clock.nano else clock.nano
    match UtcTime.ofParts? (date.toDays + second / secondsPerDay) (second % secondsPerDay).toNat
        nano with
    | some t => .ok t
    | none => .error .impossible

end Observatory.Time

namespace Observatory.UtcTime

open Time

def ofChars (cs : List Char) : Except TimeError UtcTime := do
  let (date, cs) ← readDate cs
  let (clock, cs) ← readClock (← readDivider cs)
  let (offset, cs) ← readOffset cs
  if !(Text.trimStart cs).isEmpty then throw .trailing
  resolve date clock offset

def parse (text : String) : Except TimeError UtcTime :=
  ofChars text.toList

end Observatory.UtcTime
