import Observatory.Text.Decimal
import Observatory.Time.Utc

/-!
# Writing RFC 3339 times

A time is written as its date, `T`, the time of day, a fraction of 0, 3, 6 or 9 digits, whichever
is the shortest that loses nothing, and the mark of UTC: `Z` in data, `+00:00` for display. A year
outside 0 to 9999 is written with a sign, and a leap second is second 60 of its minute.
-/

namespace Observatory.Time

/-- A year, with a sign unless it lies between 0 and 9999. -/
def yearText (year : Int) : List Char :=
  if 0 ≤ year ∧ year ≤ 9999 then Text.padded 4 year.toNat
  else (if year < 0 then '-' else '+') :: Text.atLeast 4 year.natAbs

def dateText (d : Date) : List Char :=
  yearText d.year ++ '-' :: Text.padded 2 d.month ++ '-' :: Text.padded 2 d.day

/-- A fraction of a second: nothing, or a point and the fewest groups of three digits. -/
def fractionText (nano : Nat) : List Char :=
  if nano = 0 then []
  else if nano % 1000000 = 0 then '.' :: Text.padded 3 (nano / 1000000)
  else if nano % 1000 = 0 then '.' :: Text.padded 6 (nano / 1000)
  else '.' :: Text.padded 9 nano

def clockText (second nano : Nat) : List Char :=
  let shown := if nanosPerSecond ≤ nano then second % 60 + 1 else second % 60
  Text.padded 2 (second / 3600) ++ ':' :: Text.padded 2 (second / 60 % 60) ++
    ':' :: Text.padded 2 shown ++ fractionText (nano % nanosPerSecond)

end Observatory.Time

namespace Observatory.UtcTime

/-- The written form without the mark of UTC. -/
def stem (t : UtcTime) : List Char :=
  Time.dateText (Time.Date.ofDays t.day) ++ 'T' :: Time.clockText t.second t.nano

def text (t : UtcTime) : String :=
  String.ofList (t.stem ++ ['Z'])

def display (t : UtcTime) : String :=
  String.ofList (t.stem ++ ['+', '0', '0', ':', '0', '0'])

end Observatory.UtcTime
