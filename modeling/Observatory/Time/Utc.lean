import Observatory.Time.Calendar

/-!
# Points in time

A time is a day, a second of the day and a nanosecond of the second, in UTC. A leap second is the
second before it with a nanosecond count from 10⁹ on, so it lies after that second and before the
next. It may stand after any second; those that are written in the calendar end a minute. Times
reach from the year -262143 to the year 262142.
-/

namespace Observatory

/-- A length of time, in nanoseconds. -/
abbrev Duration := Nat

def nanosPerSecond : Nat := 1000000000

def nanosPerMilli : Nat := 1000000

def secondsPerDay : Nat := 86400

def firstYear : Int := -262143

def lastYear : Int := 262142

def firstDay : Int := -96465292

def lastDay : Int := 95026236

theorem firstDay_eq : firstDay = (Time.Date.mk firstYear 1 1).toDays := by decide

theorem lastDay_eq : lastDay = (Time.Date.mk lastYear 12 31).toDays := by decide

structure UtcTime where
  /-- Days since 1970-01-01. -/
  day : Int
  second : Nat
  /-- Nanoseconds since the second began; from 10⁹ on they belong to a leap second. -/
  nano : Nat
  firstDay_le : firstDay ≤ day
  le_lastDay : day ≤ lastDay
  second_lt : second < secondsPerDay
  nano_lt : nano < 2 * nanosPerSecond
  deriving DecidableEq

namespace UtcTime

def ofParts? (day : Int) (second nano : Nat) : Option UtcTime :=
  if h : firstDay ≤ day ∧ day ≤ lastDay ∧ second < secondsPerDay ∧ nano < 2 * nanosPerSecond then
    some ⟨day, second, nano, h.1, h.2.1, h.2.2.1, h.2.2.2⟩
  else none

def epoch : UtcTime :=
  ⟨0, 0, 0, by decide, by decide, by decide, by decide⟩

instance : Inhabited UtcTime := ⟨epoch⟩

instance : Ord UtcTime where
  compare a b :=
    (compare a.day b.day).then ((compare a.second b.second).then (compare a.nano b.nano))

def le (a b : UtcTime) : Bool :=
  (compare a b).isLE

/-- The time `shift` later. A shift that stays within a leap second keeps it; any other counts as if
the leap second had been the second before. Where the range of times ends before the shifted time,
the time is kept as it is. -/
def plus (t : UtcTime) (shift : Duration) : UtcTime :=
  let seconds := shift / nanosPerSecond
  let nanos := shift % nanosPerSecond
  let shifted :=
    if nanosPerSecond ≤ t.nano ∧ seconds = 0 ∧ t.nano + nanos < 2 * nanosPerSecond then
      -- The shifted time lies in the same leap second.
      ofParts? t.day t.second (t.nano + nanos)
    else
      -- A leap second counts as the second before it.
      let nano := t.nano % nanosPerSecond + nanos
      let second := t.second + seconds + nano / nanosPerSecond
      ofParts? (t.day + second / secondsPerDay) (second % secondsPerDay) (nano % nanosPerSecond)
  shifted.getD t

/-- The nanoseconds from `u` to `t`: those between the days, and those between the times of day.
The second after the time of day that comes first is counted where that time is in a leap second,
whatever the days are. -/
def since (t u : UtcTime) : Int :=
  let leap : Int :=
    if u.second < t.second ∧ nanosPerSecond ≤ u.nano then 1
    else if t.second < u.second ∧ nanosPerSecond ≤ t.nano then -1
    else 0
  ((t.day - u.day) * secondsPerDay + (t.second - u.second) + leap) * nanosPerSecond +
    (t.nano - u.nano)

def remaining? (t now : UtcTime) : Option Duration :=
  let left := t.since now
  if 0 < left then some left.toNat else none

theorem ofParts?_eq_some {day : Int} {second nano : Nat} {t : UtcTime}
    (h : ofParts? day second nano = some t) :
    t.day = day ∧ t.second = second ∧ t.nano = nano := by
  unfold ofParts? at h
  split at h
  · cases h
    exact ⟨rfl, rfl, rfl⟩
  · cases h

@[simp]
theorem ofParts?_parts (t : UtcTime) : ofParts? t.day t.second t.nano = some t := by
  unfold ofParts?
  rw [dif_pos ⟨t.firstDay_le, t.le_lastDay, t.second_lt, t.nano_lt⟩]

end UtcTime

end Observatory
