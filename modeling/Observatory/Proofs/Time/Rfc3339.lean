import Observatory.Proofs.Text.Decimal
import Observatory.Proofs.Time.Calendar
import Observatory.Time.Rfc3339.Printer
import Observatory.Time.Rfc3339.Reader

/-!
# Reading back RFC 3339 times

A time is read back from its written form: each part of the text is read by the step that is due
for it and leaves the rest, and the parts name the time together. Leap seconds that end a minute,
fractions of any width and years with a sign are all among them. A leap second elsewhere in a minute
has no written form of its own, and is read back as a part of the second after it.
-/

namespace Observatory.UtcTime

/-- A leap second that the time is in ends a minute. -/
def LeapEndsMinute (t : UtcTime) : Prop :=
  nanosPerSecond ≤ t.nano → t.second % 60 = 59

instance (t : UtcTime) : Decidable t.LeapEndsMinute :=
  inferInstanceAs (Decidable (_ → _))

/-- The time that the written form of the time names. -/
def reread (t : UtcTime) : UtcTime :=
  if h : t.LeapEndsMinute then t
  else
    have hleap : nanosPerSecond ≤ t.nano := (Classical.not_imp.1 h).1
    have hwithin : t.second % 60 ≠ 59 := (Classical.not_imp.1 h).2
    { t with
      second := t.second + 1
      nano := t.nano - nanosPerSecond
      second_lt := by
        have := t.second_lt
        unfold secondsPerDay at *
        omega
      nano_lt := (Nat.sub_le _ _).trans_lt t.nano_lt }

theorem LeapEndsMinute.reread {t : UtcTime} (h : t.LeapEndsMinute) : t.reread = t :=
  dif_pos h

theorem leapEndsMinute_of_lt {t : UtcTime} (h : t.nano < nanosPerSecond) : t.LeapEndsMinute :=
  fun hleap => absurd h hleap.not_gt

theorem leapEndsMinute_reread (t : UtcTime) : t.reread.LeapEndsMinute := by
  by_cases h : t.LeapEndsMinute
  · rwa [h.reread]
  · have := t.nano_lt
    rw [reread, dif_neg h]
    exact leapEndsMinute_of_lt (by dsimp only; omega)

end Observatory.UtcTime

namespace Observatory.Time

open Text

theorem ok_bind {ε α β : Type} (a : α) (f : α → Except ε β) : (Except.ok a >>= f) = f a :=
  rfl

theorem exists_of_ok_bind {ε α β : Type} {x : Except ε α} {f : α → Except ε β} {b : β}
    (h : (x >>= f) = .ok b) : ∃ a, x = .ok a ∧ f a = .ok b := by
  cases x with
  | error error => cases h
  | ok a => exact ⟨a, rfl, h⟩

/-! ## Runs of digits -/

/-- The visible characters of ASCII are not blank. -/
theorem isBlank_eq_false {c : Char} (hlow : 0x20 < c.toNat) (hhigh : c.toNat < 0x7F) :
    isBlank c = false := by
  rw [Bool.eq_false_iff]
  intro hblank
  simp only [isBlank, inRanges_iff, blankRanges, List.mem_cons, List.not_mem_nil,
    or_false] at hblank
  obtain ⟨range, hrange, hle, hge⟩ := hblank
  rcases hrange with rfl | rfl | rfl | rfl | rfl | rfl | rfl | rfl | rfl | rfl <;>
    simp only at hle hge <;> omega

theorem isBlank_of_isDigit {c : Char} (h : c.isDigit = true) : isBlank c = false := by
  simp only [Char.isDigit, Bool.and_eq_true, decide_eq_true_eq, UInt32.le_iff_toNat_le] at h
  have hlow : 48 ≤ c.toNat := h.1
  have hhigh : c.toNat ≤ 57 := h.2
  exact isBlank_eq_false (by omega) (by omega)

theorem trimStart_cons {c : Char} (h : isBlank c = false) (cs : List Char) :
    trimStart (c :: cs) = c :: cs := by
  simp [trimStart, h]

theorem trimStart_digits {ds : List Char} (hds : ∀ c ∈ ds, c.isDigit = true) (hne : ds ≠ [])
    (rest : List Char) : trimStart (ds ++ rest) = ds ++ rest := by
  cases ds with
  | nil => exact absurd rfl hne
  | cons d ds =>
    exact trimStart_cons (isBlank_of_isDigit (hds d List.mem_cons_self)) (ds ++ rest)

theorem takeWhile_digits {ds rest : List Char} (hds : ∀ c ∈ ds, c.isDigit = true)
    (hrest : rest.head?.all (!·.isDigit)) : (ds ++ rest).takeWhile Char.isDigit = ds := by
  rw [List.takeWhile_append_of_pos hds]
  cases rest with
  | nil => simp
  | cons c rest =>
    have hc : c.isDigit = false := by simpa using hrest
    simp [hc]

/-- Reading a number takes all digits there are. -/
theorem readNumber_none {ds rest : List Char} (hds : ∀ c ∈ ds, c.isDigit = true) (hne : ds ≠ [])
    (hrest : rest.head?.all (!·.isDigit)) :
    readNumber none (ds ++ rest) = .ok (digitsValue ds, rest) := by
  have htake := takeWhile_digits hds hrest
  simp [readNumber, htake, hne]

/-- Reading a number of limited width takes all digits there are if they fit. -/
theorem readNumber_some {limit : Nat} {ds rest : List Char} (hds : ∀ c ∈ ds, c.isDigit = true)
    (hne : ds ≠ []) (hlimit : ds.length = limit ∨ ds.length ≤ limit ∧ rest.head?.all (!·.isDigit)) :
    readNumber (some limit) (ds ++ rest) = .ok (digitsValue ds, rest) := by
  have htake : ((ds ++ rest).take limit).takeWhile Char.isDigit = ds := by
    have hle : ds.length ≤ limit := by omega
    rw [List.take_append, List.take_of_length_le hle]
    apply takeWhile_digits hds
    rcases hlimit with hlimit | ⟨_, hrest⟩
    · simp [hlimit]
    · rw [List.head?_take]
      split
      · rfl
      · exact hrest
  simp [readNumber, htake, hne]

/-! ## The parts of a time -/

theorem readMark_cons {mark : Char} (h : isBlank mark = false) (rest : List Char) :
    readMark mark (mark :: rest) = .ok rest := by
  simp [readMark, trimStart_cons h]

/-- A number of two digits is read back where its bounds allow it. -/
theorem readField_padded {low high n : Nat} (hlow : low ≤ n) (hhigh : n ≤ high) (hn : n < 100)
    (rest : List Char) : readField low high (padded 2 n ++ rest) = .ok (n, rest) := by
  have hne : padded 2 n ≠ [] := by simp [← List.length_eq_zero_iff]
  have hvalue : digitsValue (padded 2 n) = n := by
    rw [digitsValue_padded]
    exact Nat.mod_eq_of_lt hn
  rw [readField, trimStart_digits isDigit_of_mem_padded hne,
    readNumber_some isDigit_of_mem_padded hne (.inl (length_padded 2 n)), hvalue]
  simp [bind, Except.bind, hlow, hhigh, pure, Except.pure]

section Year

variable {cs ds rest : List Char} {n : Nat}

/-! A year is read in one of three ways, as its text begins. -/

theorem readYear_minus (hcs : trimStart cs = '-' :: ds)
    (hread : readNumber none ds = .ok (n, rest)) (hle : -0x80000000 ≤ -(n : Int))
    (hlt : -(n : Int) < 0x80000000) : readYear cs = .ok (-(n : Int), rest) := by
  unfold readYear
  rw [hcs]
  simp only [hread]
  rw [ok_bind, pure_bind, if_pos ⟨hle, hlt⟩]
  rfl

theorem readYear_plus (hcs : trimStart cs = '+' :: ds)
    (hread : readNumber none ds = .ok (n, rest)) (hle : -0x80000000 ≤ (n : Int))
    (hlt : (n : Int) < 0x80000000) : readYear cs = .ok ((n : Int), rest) := by
  unfold readYear
  rw [hcs]
  simp only [hread]
  rw [ok_bind, pure_bind, if_pos ⟨hle, hlt⟩]
  rfl

theorem readYear_digits {d : Char} (hcs : trimStart cs = d :: ds) (hd : d.isDigit = true)
    (hread : readNumber (some 4) (d :: ds) = .ok (n, rest)) (hle : -0x80000000 ≤ (n : Int))
    (hlt : (n : Int) < 0x80000000) : readYear cs = .ok ((n : Int), rest) := by
  have hminus : d ≠ '-' := by rintro rfl; cases hd
  have hplus : d ≠ '+' := by rintro rfl; cases hd
  unfold readYear
  rw [hcs]
  split
  next h => exact absurd (List.cons.inj h).1 hminus
  next h => exact absurd (List.cons.inj h).1 hplus
  next =>
    rw [hread, ok_bind]
    dsimp only
    rw [pure_bind]
    dsimp only
    rw [if_pos ⟨hle, hlt⟩]
    rfl

end Year

theorem readYear_yearText {year : Int} (hfirst : firstYear ≤ year) (hlast : year ≤ lastYear)
    (rest : List Char) : readYear (yearText year ++ '-' :: rest) = .ok (year, '-' :: rest) := by
  have hbound : -0x80000000 ≤ year ∧ year < 0x80000000 := by
    simp only [firstYear, lastYear] at hfirst hlast
    omega
  unfold yearText
  by_cases hshort : 0 ≤ year ∧ year ≤ 9999
  · rw [if_pos hshort]
    have hvalue : ((year.toNat % 10 ^ 4 : Nat) : Int) = year := by omega
    have hlength := length_padded 4 year.toNat
    have hdigits : ∀ c ∈ padded 4 year.toNat, c.isDigit = true := isDigit_of_mem_padded
    have hread : readNumber (some 4) (padded 4 year.toNat ++ '-' :: rest) =
        .ok (year.toNat % 10 ^ 4, '-' :: rest) := by
      rw [readNumber_some hdigits (by simp [← List.length_eq_zero_iff]) (.inl hlength),
        digitsValue_padded]
    generalize padded 4 year.toNat = ds at hread hdigits hlength ⊢
    rw [← hvalue] at hbound
    cases ds with
    | nil => cases hlength
    | cons d ds =>
      have hd := hdigits d List.mem_cons_self
      have htrim := trimStart_cons (isBlank_of_isDigit hd) (ds ++ '-' :: rest)
      rw [List.cons_append, readYear_digits htrim hd hread hbound.1 hbound.2, hvalue]
  · rw [if_neg hshort]
    have hread : readNumber none (atLeast 4 year.natAbs ++ '-' :: rest) =
        .ok (year.natAbs, '-' :: rest) := by
      rw [readNumber_none isDigit_of_mem_atLeast (atLeast_ne_nil _ _) rfl, digitsValue_atLeast]
    -- Years that four digits do not hold have a sign.
    by_cases hneg : year < 0
    · have hvalue : -(year.natAbs : Int) = year := by omega
      rw [← hvalue] at hbound
      rw [if_pos hneg, List.cons_append,
        readYear_minus (trimStart_cons (by decide) _) hread hbound.1 hbound.2, hvalue]
    · have hvalue : (year.natAbs : Int) = year := by omega
      rw [← hvalue] at hbound
      rw [if_neg hneg, List.cons_append,
        readYear_plus (trimStart_cons (by decide) _) hread hbound.1 hbound.2, hvalue]

theorem readDate_dateText {date : Date} (hvalid : date.isValid = true)
    (hfirst : firstYear ≤ date.year) (hlast : date.year ≤ lastYear) (rest : List Char) :
    readDate (dateText date ++ rest) = .ok (date, rest) := by
  obtain ⟨hm1, hm12, hd1, hd31⟩ := Date.bounds_of_isValid hvalid
  simp only [readDate, dateText, List.append_assoc, List.cons_append]
  simp [readYear_yearText hfirst hlast, readMark_cons (show isBlank '-' = false by decide),
    readField_padded hm1 hm12 (by omega), readField_padded hd1 hd31 (by omega),
    bind, Except.bind, pure, Except.pure]

/-- A fraction is read back as its nanoseconds, if no digit follows. -/
theorem readFraction_fractionText {nano : Nat} (hnano : nano < nanosPerSecond)
    (rest : List Char) :
    readFraction (fractionText nano ++ 'Z' :: rest) = .ok (nano, 'Z' :: rest) := by
  have hdigits : ∀ width n, 0 < width → width ≤ 9 → n < 10 ^ width →
      n * Nat.pow 10 (9 - width) = nano →
      readFraction ('.' :: padded width n ++ 'Z' :: rest) = .ok (nano, 'Z' :: rest) := by
    intro width n hpos hwidth hn hvalue
    have hne : padded width n ≠ [] := by
      rw [← List.length_pos_iff, length_padded]
      exact hpos
    have hlength : (padded width n ++ 'Z' :: rest).length - ('Z' :: rest).length = width := by
      simp
    simp only [readFraction, List.cons_append]
    rw [readNumber_some isDigit_of_mem_padded hne (.inr ⟨by simpa using hwidth, rfl⟩),
      digitsValue_padded, Nat.mod_eq_of_lt hn]
    simp only [bind, Except.bind, pure, Except.pure, hlength, hvalue]
    rfl
  simp only [nanosPerSecond] at hnano
  unfold fractionText
  by_cases h0 : nano = 0
  · rw [if_pos h0, h0]
    rfl
  · rw [if_neg h0]
    -- As many digits are written as are needed, in groups of three.
    by_cases h6 : nano % 1000000 = 0
    · rw [if_pos h6]
      have hvalue : nano / 1000000 * 1000000 = nano := by omega
      exact hdigits 3 _ (by decide) (by decide) (by omega) hvalue
    · rw [if_neg h6]
      by_cases h3 : nano % 1000 = 0
      · rw [if_pos h3]
        have hvalue : nano / 1000 * 1000 = nano := by omega
        exact hdigits 6 _ (by decide) (by decide) (by omega) hvalue
      · rw [if_neg h3]
        exact hdigits 9 _ (by decide) (by decide) (by omega) (Nat.mul_one nano)

/-- The time of day as it is written at a second of the day and a nanosecond of that second. -/
def clockOf (second nano : Nat) : Clock where
  hour := second / 3600
  minute := second / 60 % 60
  second := if nanosPerSecond ≤ nano then second % 60 + 1 else second % 60
  nano := nano % nanosPerSecond

theorem readClock_clockText {second nano : Nat} (hsecond : second < secondsPerDay)
    (rest : List Char) :
    readClock (clockText second nano ++ 'Z' :: rest) =
      .ok (clockOf second nano, 'Z' :: rest) := by
  have hhour : second / 3600 ≤ 23 := by simp only [secondsPerDay] at hsecond; omega
  have hshown : (if nanosPerSecond ≤ nano then second % 60 + 1 else second % 60) ≤ 60 := by
    split <;> omega
  have hminute : second / 60 % 60 ≤ 59 := by omega
  have hfraction := readFraction_fractionText (Nat.mod_lt nano (show 0 < nanosPerSecond by decide))
    rest
  simp only [readClock, clockText, clockOf, List.append_assoc, List.cons_append]
  simp [readMark_cons (show isBlank ':' = false by decide),
    readField_padded (Nat.zero_le _) hhour (by omega),
    readField_padded (Nat.zero_le _) hminute (by omega),
    readField_padded (Nat.zero_le _) hshown (by omega), hfraction,
    trimStart_cons (show isBlank 'Z' = false by decide), bind, Except.bind, pure, Except.pure]

theorem readDivider_T (rest : List Char) : readDivider ('T' :: rest) = .ok rest := rfl

theorem readOffset_Z : readOffset ['Z'] = .ok (0, []) := by
  rw [readOffset, if_neg (by decide)]
  exact if_pos (.inl rfl)

/-- The written second and fraction are those of a time: second 60 stands for its leap second. -/
theorem clockOf_seconds {t : UtcTime} (hends : t.LeapEndsMinute) :
    (clockOf t.second t.nano).hour * 3600 + (clockOf t.second t.nano).minute * 60 +
        min (clockOf t.second t.nano).second 59 = t.second ∧
      (if (clockOf t.second t.nano).second = 60 then
        nanosPerSecond + (clockOf t.second t.nano).nano
        else (clockOf t.second t.nano).nano) = t.nano := by
  have hnano := t.nano_lt
  have hhour : (clockOf t.second t.nano).hour = t.second / 3600 := rfl
  have hminute : (clockOf t.second t.nano).minute = t.second / 60 % 60 := rfl
  have hfraction : (clockOf t.second t.nano).nano = t.nano % nanosPerSecond := rfl
  by_cases h : nanosPerSecond ≤ t.nano
  · have hlast := hends h
    have hsecond : (clockOf t.second t.nano).second = 60 := by
      simp only [clockOf, if_pos h, hlast]
    have hmod : t.nano % nanosPerSecond = t.nano - nanosPerSecond := by
      rw [Nat.mod_eq_sub_mod h, Nat.mod_eq_of_lt (by omega)]
    rw [if_pos hsecond, hhour, hminute, hsecond, hfraction, hmod]
    constructor <;> omega
  · have hsecond : (clockOf t.second t.nano).second = t.second % 60 := by
      simp only [clockOf, if_neg h]
    have hmod : t.nano % nanosPerSecond = t.nano := Nat.mod_eq_of_lt (by omega)
    rw [if_neg (by omega), hhour, hminute, hsecond, hfraction, hmod]
    constructor <;> omega

theorem resolve_clockOf {t : UtcTime} (hends : t.LeapEndsMinute) :
    resolve (Date.ofDays t.day) (clockOf t.second t.nano) 0 = .ok t := by
  obtain ⟨hfirst, hlast⟩ := Date.year_ofDays t.firstDay_le t.le_lastDay
  obtain ⟨hsecond, hnano⟩ := clockOf_seconds hends
  have hlt := t.second_lt
  simp only [secondsPerDay] at hlt
  generalize clockOf t.second t.nano = clock at hsecond hnano ⊢
  have hvalue : ((clock.hour : Int) * 3600 + clock.minute * 60 + (min clock.second 59 : Nat) - 0) =
      t.second := by omega
  unfold resolve
  rw [if_neg (by simp [Date.isValid_ofDays, hfirst, hlast]), if_neg (by decide)]
  simp only [hvalue, hnano, Date.toDays_ofDays, secondsPerDay]
  rw [Int.ediv_eq_zero_of_lt (by omega) (by omega), Int.emod_eq_of_lt (by omega) (by omega),
    Int.add_zero, Int.toNat_natCast, UtcTime.ofParts?_parts]

/-! ## The length of a written time -/

theorem length_yearText_le {year : Int} (hfirst : firstYear ≤ year) (hlast : year ≤ lastYear) :
    (yearText year).length ≤ 7 := by
  unfold firstYear at hfirst
  unfold lastYear at hlast
  unfold yearText
  split
  · rw [length_padded]
    decide
  · have hdigits : (atLeast 4 year.natAbs).length ≤ 6 :=
      length_atLeast_le (by decide) (by decide) (by omega)
    rw [List.length_cons]
    omega

theorem length_fractionText_le (nano : Nat) : (fractionText nano).length ≤ 10 := by
  unfold fractionText
  split_ifs <;> simp

end Observatory.Time

namespace Observatory.UtcTime

open Time

theorem ofChars_stem {t : UtcTime} (hends : t.LeapEndsMinute) :
    ofChars (t.stem ++ ['Z']) = .ok t := by
  obtain ⟨hfirst, hlast⟩ := Date.year_ofDays t.firstDay_le t.le_lastDay
  have hdate := readDate_dateText (Date.isValid_ofDays t.day) hfirst hlast
  have hclock : readClock (clockText t.second t.nano ++ ['Z']) =
      .ok (clockOf t.second t.nano, ['Z']) := readClock_clockText t.second_lt []
  unfold ofChars stem
  rw [List.append_assoc, hdate]
  simp only [List.cons_append]
  rw [ok_bind]
  dsimp only
  rw [readDivider_T, ok_bind, hclock, ok_bind]
  dsimp only
  rw [readOffset_Z, ok_bind]
  exact resolve_clockOf hends

/-- The time that a written form names has that written form. -/
theorem stem_reread (t : UtcTime) : t.reread.stem = t.stem := by
  by_cases h : t.LeapEndsMinute
  · rw [h.reread]
  · obtain ⟨hleap, hwithin⟩ := Classical.not_imp.1 h
    have hlt := t.nano_lt
    have hnano : ¬nanosPerSecond ≤ t.nano - nanosPerSecond := by omega
    have hhour : (t.second + 1) / 3600 = t.second / 3600 := by omega
    have hminute : (t.second + 1) / 60 % 60 = t.second / 60 % 60 := by omega
    have hsecond : (t.second + 1) % 60 = t.second % 60 + 1 := by omega
    have hfraction : (t.nano - nanosPerSecond) % nanosPerSecond = t.nano % nanosPerSecond :=
      (Nat.mod_eq_sub_mod hleap).symm
    rw [reread, dif_neg h]
    simp only [stem, clockText, if_pos hleap, if_neg hnano, hhour, hminute, hsecond, hfraction]

theorem text_reread (t : UtcTime) : t.reread.text = t.text :=
  congrArg (fun stem => String.ofList (stem ++ ['Z'])) t.stem_reread

/-- What a time is written as is read as the time itself, unless it is in a leap second elsewhere
than at the end of a minute. -/
theorem parse_text (t : UtcTime) : parse t.text = .ok t.reread := by
  rw [← t.text_reread, parse, text, String.toList_ofList]
  exact ofChars_stem t.leapEndsMinute_reread

/-- A time is written in at most 33 characters, as -262143-01-01T23:59:60.123456789Z is. -/
theorem length_text_le (t : UtcTime) : t.text.toList.length ≤ 33 := by
  obtain ⟨hfirst, hlast⟩ := Date.year_ofDays t.firstDay_le t.le_lastDay
  have hyear := length_yearText_le hfirst hlast
  have hfraction := length_fractionText_le (t.nano % nanosPerSecond)
  simp only [text, stem, dateText, clockText, String.toList_ofList, List.length_append,
    List.length_cons, List.length_nil, Text.length_padded]
  omega

end Observatory.UtcTime
