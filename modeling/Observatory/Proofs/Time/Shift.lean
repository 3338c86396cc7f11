import Mathlib
import Observatory.Time.Utc

/-!
# Shifts of times

A shifted time is no earlier than the time itself, and as long as the range of times does not end
before it, a longer shift leads further, into a leap second and out of it as well. At the end of the
range shifts do not saturate: a shift that leads beyond it leaves the time where it was, so that it
falls behind every shorter shift that does not.
-/

namespace Observatory.UtcTime

variable {t u : UtcTime} {shift short long : Nat}

/-! ## The order of times -/

/-- The place of a time in the order of times. Every second has room for a leap second. -/
def rank (t : UtcTime) : Int :=
  (t.day * secondsPerDay + t.second) * (2 * nanosPerSecond) + t.nano

theorem le_iff_rank : t.le u = true ↔ t.rank ≤ u.rank := by
  have := t.second_lt; have := t.nano_lt; have := u.second_lt; have := u.nano_lt
  have hparts : t.le u = true ↔ t.day < u.day ∨ t.day = u.day ∧
      (t.second < u.second ∨ t.second = u.second ∧ t.nano ≤ u.nano) := by
    change ((compare t.day u.day).then
      ((compare t.second u.second).then (compare t.nano u.nano))).isLE = true ↔ _
    simp only [Ordering.isLE_then_iff_or, Int.compare_eq_lt, Int.compare_eq_eq, Nat.compare_eq_lt,
      Nat.compare_eq_eq, Nat.isLE_compare]
  simp only [hparts, rank, secondsPerDay, nanosPerSecond] at *
  omega

theorem eq_of_rank (h : t.rank = u.rank) : t = u := by
  have := t.second_lt; have := t.nano_lt; have := u.second_lt; have := u.nano_lt
  obtain ⟨day, second, nano, _, _, _, _⟩ := t
  obtain ⟨day', second', nano', _, _, _, _⟩ := u
  simp only [rank, secondsPerDay, nanosPerSecond] at *
  obtain rfl : day = day' := by omega
  obtain rfl : second = second' := by omega
  obtain rfl : nano = nano' := by omega
  rfl

/-! ## Shifting -/

/-- Nanoseconds since the epoch, a leap second counting as the second before it. -/
def elapsed (t : UtcTime) : Int :=
  (t.day * secondsPerDay + t.second) * nanosPerSecond + (t.nano % nanosPerSecond : Nat)

/-- The range of times does not end before the shifted time. -/
def Reaches (t : UtcTime) (shift : Nat) : Prop :=
  t.elapsed + shift < (lastDay + 1) * secondsPerDay * nanosPerSecond

instance : Decidable (t.Reaches shift) :=
  inferInstanceAs (Decidable (_ < _))

/-- Where a shift leads. -/
inductive Shifted (t : UtcTime) (shift : Nat) (u : UtcTime) : Prop where
  /-- Nowhere, for the range ends before. -/
  | beyond (hends : ¬t.Reaches shift) (hsame : u = t)
  /-- Further in the leap second of the time. -/
  | within (hstays : nanosPerSecond ≤ t.nano ∧ t.nano + shift < 2 * nanosPerSecond)
      (hrank : u.rank = t.rank + shift)
  /-- To a time that is in no leap second, past the one of the time if there is one. -/
  | onward (hleaves : nanosPerSecond ≤ t.nano → 2 * nanosPerSecond ≤ t.nano + shift)
      (hreaches : t.Reaches shift) (hnano : u.nano < nanosPerSecond)
      (helapsed : u.elapsed = t.elapsed + shift)

theorem exists_ofParts {day : Int} {second nano : Nat} (hfirst : firstDay ≤ day)
    (hlast : day ≤ lastDay) (hsecond : second < secondsPerDay)
    (hnano : nano < 2 * nanosPerSecond) : ∃ u, ofParts? day second nano = some u :=
  ⟨_, dif_pos ⟨hfirst, hlast, hsecond, hnano⟩⟩

theorem ofParts?_eq_none {day : Int} (second nano : Nat) (h : lastDay < day) :
    ofParts? day second nano = none :=
  dif_neg fun hparts => absurd hparts.2.1 (Int.not_le.2 h)

theorem shifted_plus (t : UtcTime) (shift : Nat) : t.Shifted shift (t.plus shift) := by
  unfold plus
  dsimp only
  split
  next hstays =>
    obtain ⟨hleap, hseconds, hlt⟩ := hstays
    have hnanos : shift % nanosPerSecond = shift := by
      rw [← Nat.div_add_mod shift nanosPerSecond, hseconds, Nat.mul_zero, Nat.zero_add, Nat.mod_mod]
    rw [hnanos] at hlt ⊢
    obtain ⟨u, hu⟩ := exists_ofParts t.firstDay_le t.le_lastDay t.second_lt hlt
    obtain ⟨hday, hsecond, hnano⟩ := ofParts?_eq_some hu
    rw [hu]
    refine .within ⟨hleap, hlt⟩ ?_
    simp only [Option.getD_some, rank, hday, hsecond, hnano]
    omega
  next hnot =>
    have hleaves : nanosPerSecond ≤ t.nano → 2 * nanosPerSecond ≤ t.nano + shift := by
      intro hleap
      by_contra hstays
      have hshort : shift < nanosPerSecond := by omega
      refine hnot ⟨hleap, Nat.div_eq_of_lt hshort, ?_⟩
      rw [Nat.mod_eq_of_lt hshort]
      exact Nat.not_le.1 hstays
    -- Any leap second is left behind, so the shift adds up as if there were none.
    generalize hnano : t.nano % nanosPerSecond + shift % nanosPerSecond = nano
    generalize hsecond : t.second + shift / nanosPerSecond + nano / nanosPerSecond = second
    have hsecond_lt : second % secondsPerDay < secondsPerDay := Nat.mod_lt _ (by decide)
    have hnano_lt : nano % nanosPerSecond < nanosPerSecond := Nat.mod_lt _ (by decide)
    have hfirst : firstDay ≤ t.day + (second : Int) / secondsPerDay :=
      t.firstDay_le.trans (Int.le_add_of_nonneg_right (by positivity))
    generalize hday : t.day + (second : Int) / secondsPerDay = day at hfirst ⊢
    have helapsed : t.elapsed + shift = (day * secondsPerDay + (second % secondsPerDay : Nat)) *
        nanosPerSecond + (nano % nanosPerSecond : Nat) := by
      simp only [elapsed, secondsPerDay, nanosPerSecond] at *
      omega
    have hreaches : t.Reaches shift ↔ day ≤ lastDay := by
      simp only [Reaches, helapsed, secondsPerDay, nanosPerSecond] at *
      omega
    by_cases hlast : day ≤ lastDay
    · obtain ⟨u, hu⟩ := exists_ofParts hfirst hlast hsecond_lt
        (hnano_lt.trans (by decide))
      obtain ⟨hday, hsecond, hnano⟩ := ofParts?_eq_some hu
      rw [hu]
      refine .onward hleaves (hreaches.2 hlast) (hnano.symm ▸ hnano_lt) ?_
      simp only [Option.getD_some, elapsed, hday, hsecond, hnano, Nat.mod_mod]
      exact helapsed.symm
    · rw [ofParts?_eq_none _ _ (Int.not_le.1 hlast)]
      exact .beyond (mt hreaches.1 hlast) rfl

/-! ## Shifts in order -/

theorem plus_of_not_reaches (h : ¬t.Reaches shift) : t.plus shift = t := by
  cases t.shifted_plus shift with
  | beyond _ hsame => exact hsame
  | within hstays hrank =>
    -- A leap second of the range ends within it.
    have := t.second_lt; have := t.le_lastDay
    simp only [Reaches, elapsed, secondsPerDay, nanosPerSecond] at *
    omega
  | onward _ hreaches => exact absurd hreaches h

theorem rank_le_rank_plus (t : UtcTime) (shift : Nat) : t.rank ≤ (t.plus shift).rank := by
  cases t.shifted_plus shift with
  | beyond _ hsame => rw [hsame]
  | within _ hrank => omega
  | onward hleaves _ hnano helapsed =>
    have := t.nano_lt
    simp only [rank, elapsed, secondsPerDay, nanosPerSecond] at *
    omega

theorem rank_lt_rank_plus (hshift : 0 < shift) (hreaches : t.Reaches shift) :
    t.rank < (t.plus shift).rank := by
  cases t.shifted_plus shift with
  | beyond hends => exact absurd hreaches hends
  | within _ hrank => omega
  | onward hleaves _ hnano helapsed =>
    have := t.nano_lt
    simp only [rank, elapsed, secondsPerDay, nanosPerSecond] at *
    omega

@[simp]
theorem plus_zero (t : UtcTime) : t.plus 0 = t := by
  cases t.shifted_plus 0 with
  | beyond _ hsame => exact hsame
  | within _ hrank => exact eq_of_rank (by omega)
  | onward hleaves _ hnano helapsed =>
    have := t.nano_lt
    refine eq_of_rank ?_
    simp only [rank, elapsed, secondsPerDay, nanosPerSecond] at *
    omega

theorem Reaches.mono (h : t.Reaches long) (hle : short ≤ long) : t.Reaches short := by
  unfold Reaches at *
  omega

/-- Within the range a longer shift leads at least as far. -/
theorem rank_plus_le_rank_plus (hle : short ≤ long) (hreaches : t.Reaches long) :
    (t.plus short).rank ≤ (t.plus long).rank := by
  cases t.shifted_plus short with
  | beyond hends => exact absurd (hreaches.mono hle) hends
  | within hstays hrank =>
    cases t.shifted_plus long with
    | beyond hends => exact absurd hreaches hends
    | within _ hrank' => omega
    | onward hleaves _ hnano helapsed =>
      simp only [rank, elapsed, secondsPerDay, nanosPerSecond] at *
      omega
  | onward hleaves _ hnano helapsed =>
    cases t.shifted_plus long with
    | beyond hends => exact absurd hreaches hends
    | within hstays => omega
    | onward _ _ hnano' helapsed' =>
      simp only [rank, elapsed, secondsPerDay, nanosPerSecond] at *
      omega

/-! ## Saturation -/

/-- What is to hold of two shifts of a time, the second no shorter than the first, if shifts
saturate. -/
structure Saturates (t : UtcTime) (short long : Duration) : Prop where
  /-- The longer shift leads at least as far. -/
  ascends : (t.plus short).le (t.plus long) = true
  /-- It moves the time if the shorter one does. -/
  moves : t.plus long = t → t.plus short = t

/-- No shift leads back. Shifts saturate except where the longer one leads beyond the range of times
and the shorter one moves the time within it. -/
theorem saturates_iff (t : UtcTime) {short long : Duration} (h : short ≤ long) :
    t.le (t.plus short) = true ∧
      (Saturates t short long ↔ (0 < short → t.Reaches short → t.Reaches long)) := by
  refine ⟨le_iff_rank.2 (t.rank_le_rank_plus short), fun hsaturates hmoved hreaches => ?_,
    fun hrange => ?_⟩
  · by_contra hends
    have hsame := hsaturates.moves (plus_of_not_reaches hends)
    have hlt := rank_lt_rank_plus hmoved hreaches
    rw [hsame] at hlt
    exact lt_irrefl _ hlt
  · by_cases hends : t.Reaches long
    · refine ⟨le_iff_rank.2 (rank_plus_le_rank_plus h hends), fun hsame => eq_of_rank ?_⟩
      have hle := rank_plus_le_rank_plus h hends
      rw [hsame] at hle
      exact le_antisymm hle (t.rank_le_rank_plus short)
    · -- The longer shift leads nowhere, and neither does the shorter one.
      have hsame : t.plus short = t := by
        rcases Nat.eq_zero_or_pos short with rfl | hmoved
        · exact t.plus_zero
        · exact plus_of_not_reaches fun hreaches => hends (hrange hmoved hreaches)
      refine ⟨?_, fun _ => hsame⟩
      rw [hsame, plus_of_not_reaches hends]
      exact le_iff_rank.2 le_rfl

/-- The middle of the leap second that ended 2016. -/
def leapSecond : UtcTime :=
  (ofParts? 17166 86399 1500000000).get (by decide)

/-- Four tenths of a second stay in the leap second, and six tenths lead out of it. A shift beyond
the range leads less far than both. -/
theorem saturates_iff_leapSecond :
    leapSecond.le (leapSecond.plus (400 * nanosPerMilli)) = true ∧
      Saturates leapSecond (400 * nanosPerMilli) (600 * nanosPerMilli) ∧
      ¬Saturates leapSecond (400 * nanosPerMilli) (9000000000000 * nanosPerSecond) := by
  obtain ⟨hle, hnear⟩ := leapSecond.saturates_iff
    (by decide : 400 * nanosPerMilli ≤ 600 * nanosPerMilli)
  obtain ⟨-, hfar⟩ := leapSecond.saturates_iff
    (by decide : 400 * nanosPerMilli ≤ 9000000000000 * nanosPerSecond)
  refine ⟨hle, hnear.2 fun _ _ => by decide, fun hsaturates => ?_⟩
  exact absurd (hfar.1 hsaturates (by decide) (by decide)) (by decide)

/-- A shift of the epoch by nine million million seconds leads nowhere, and a shift by one second
leads to the next second. -/
theorem not_saturates :
    ¬∀ (t : UtcTime) (short long : Duration), short ≤ long → Saturates t short long := by
  intro hall
  have hsaturates := hall epoch nanosPerSecond (9000000000000 * nanosPerSecond) (by decide)
  exact absurd hsaturates.ascends (by decide)

end Observatory.UtcTime
