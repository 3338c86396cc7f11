import Observatory.Proofs.Time.Rfc3339
import Observatory.Proofs.Time.Shift

/-!
# The grammar of times

A grammar that says how a time is written: a date, a time of day and an offset from UTC, with blanks
around their parts and fewer digits than usual in them. The reader takes just the texts that the
grammar makes. The form that RFC 3339 gives to times is far narrower.

The grammar has no form for a leap second that does not end a minute, and no shift leads into one.
-/

namespace Observatory.Time

open Text

/-! ## Forms -/

def Blank (cs : List Char) : Prop :=
  ∀ c ∈ cs, isBlank c = true

/-- Digits, one or more, with the number as their value. -/
structure Numeral (n : Nat) (ds : List Char) : Prop where
  digits : ∀ c ∈ ds, c.isDigit = true
  nonempty : ds ≠ []
  value : digitsValue ds = n

/-- A number of one digit or two, perhaps behind blanks. -/
inductive Field (n : Nat) : List Char → Prop where
  | mk {blanks ds : List Char} (hblanks : Blank blanks) (hds : Numeral n ds)
      (hshort : ds.length ≤ 2) : Field n (blanks ++ ds)

/-- A character, perhaps behind blanks. -/
inductive Delimiter (c : Char) : List Char → Prop where
  | mk {blanks : List Char} (hblanks : Blank blanks) : Delimiter c (blanks ++ [c])

/-- A year has four digits at most, unless it has a sign. -/
inductive YearForm : Int → List Char → Prop where
  | unsigned {n : Nat} {ds : List Char} (hds : Numeral n ds) (hshort : ds.length ≤ 4) :
      YearForm n ds
  | positive {n : Nat} {ds : List Char} (hds : Numeral n ds) : YearForm n ('+' :: ds)
  | negative {n : Nat} {ds : List Char} (hds : Numeral n ds) : YearForm (-n) ('-' :: ds)

inductive DateForm : Date → List Char → Prop where
  | mk {year : Int} {month day : Nat} {blanks years hyphen months hyphen' days : List Char}
      (hblanks : Blank blanks) (hyear : YearForm year years) (hhyphen : Delimiter '-' hyphen)
      (hmonth : Field month months) (hhyphen' : Delimiter '-' hyphen') (hday : Field day days) :
      DateForm ⟨year, month, day⟩ (blanks ++ years ++ hyphen ++ months ++ hyphen' ++ days)

/-- A fraction of a second in nanoseconds. Digits after the ninth do not count. -/
inductive FractionForm : Nat → List Char → Prop where
  | absent : FractionForm 0 []
  | present {n : Nat} {ds more : List Char} (hds : Numeral n ds) (hshort : ds.length ≤ 9)
      (hmore : ∀ c ∈ more, c.isDigit = true) (hfull : more ≠ [] → ds.length = 9) :
      FractionForm (n * 10 ^ (9 - ds.length)) ('.' :: ds ++ more)

inductive ClockForm : Clock → List Char → Prop where
  | mk {clock : Clock} {hours colon minutes colon' seconds fraction : List Char}
      (hhour : Field clock.hour hours) (hhour_le : clock.hour ≤ 23)
      (hcolon : Delimiter ':' colon)
      (hminute : Field clock.minute minutes) (hminute_le : clock.minute ≤ 59)
      (hcolon' : Delimiter ':' colon')
      (hsecond : Field clock.second seconds) (hsecond_le : clock.second ≤ 60)
      (hfraction : FractionForm clock.nano fraction) :
      ClockForm clock (hours ++ colon ++ minutes ++ colon' ++ seconds ++ fraction)

/-- A number of exactly two digits. -/
structure Pair (n : Nat) (ds : List Char) : Prop extends Numeral n ds where
  length : ds.length = 2

/-- An offset from UTC in seconds. Colons and blanks may stand between its hours and minutes. -/
inductive OffsetForm : Int → List Char → Prop where
  | utc {letters : List Char} (h : letters.map Char.toLower = ['u', 't', 'c']) :
      OffsetForm 0 letters
  | zulu {c : Char} (h : c = 'Z' ∨ c = 'z') : OffsetForm 0 [c]
  | ahead {hours minutes : Nat} {front between back : List Char} (hhours : Pair hours front)
      (hbetween : ∀ c ∈ between, (c == ':' || isBlank c) = true) (hminutes : Pair minutes back)
      (hminutes_lt : minutes < 60) :
      OffsetForm (hours * 3600 + minutes * 60) ('+' :: front ++ between ++ back)
  | behind {hours minutes : Nat} {sign : Char} {front between back : List Char}
      (hsign : sign = '-' ∨ sign = '−') (hhours : Pair hours front)
      (hbetween : ∀ c ∈ between, (c == ':' || isBlank c) = true) (hminutes : Pair minutes back)
      (hminutes_lt : minutes < 60) :
      OffsetForm (-(hours * 3600 + minutes * 60)) (sign :: front ++ between ++ back)

/-- The time that a date, a time of day and an offset from UTC name together. Second 60 is in the
same second as second 59, and its nanoseconds begin at 10⁹. -/
structure Names (date : Date) (clock : Clock) (offset : Int) (t : UtcTime) : Prop where
  valid : date.isValid = true
  firstYear_le : firstYear ≤ date.year
  le_lastYear : date.year ≤ lastYear
  offset_lt : offset.natAbs < secondsPerDay
  seconds : t.day * secondsPerDay + t.second = date.toDays * secondsPerDay +
    (clock.hour * 3600 + clock.minute * 60 + min clock.second 59) - offset
  nano : t.nano = if clock.second = 60 then nanosPerSecond + clock.nano else clock.nano

end Observatory.Time

/-- The written forms of a time. -/
inductive Observatory.UtcTime.Spelled : UtcTime → List Char → Prop where
  | mk {t : UtcTime} {date : Time.Date} {clock : Time.Clock} {offset : Int} {divider : Char}
      {dates clocks blanks offsets blanks' : List Char} (hdate : Time.DateForm date dates)
      (hdivider : divider = 'T' ∨ divider = 't' ∨ divider = ' ')
      (hclock : Time.ClockForm clock clocks) (hblanks : Time.Blank blanks)
      (hoffset : Time.OffsetForm offset offsets) (hblanks' : Time.Blank blanks')
      (hnames : Time.Names date clock offset t) :
      Spelled t (dates ++ divider :: clocks ++ blanks ++ offsets ++ blanks')

namespace Observatory.Time

open Text

variable {cs ds rest : List Char} {n limit : Nat}

/-! ## Numbers -/

/-- No digit stands in front. -/
def NoDigit (cs : List Char) : Prop :=
  cs.head?.all (!·.isDigit) = true

theorem noDigit_append (hne : cs ≠ []) (h : NoDigit cs) (rest : List Char) :
    NoDigit (cs ++ rest) := by
  unfold NoDigit
  rwa [List.head?_append_of_ne_nil _ hne]

theorem Blank.noDigit_append {blanks : List Char} (hblanks : Blank blanks) (h : NoDigit rest) :
    NoDigit (blanks ++ rest) := by
  cases blanks with
  | nil => exact h
  | cons c blanks =>
    have hdigit : c.isDigit = false := by
      rw [Bool.eq_false_iff]
      intro hdigit
      have hblank := hblanks c List.mem_cons_self
      rw [isBlank_of_isDigit hdigit] at hblank
      cases hblank
    simp [NoDigit, hdigit]

theorem noDigit_drop (cs : List Char) {width : Nat}
    (h : ((cs.take width).takeWhile Char.isDigit).length < width) :
    NoDigit (cs.drop ((cs.take width).takeWhile Char.isDigit).length) := by
  have hsplit : (cs.take width).takeWhile Char.isDigit ++
      ((cs.take width).dropWhile Char.isDigit ++ cs.drop width) = cs := by
    rw [← List.append_assoc, List.takeWhile_append_dropWhile, List.take_append_drop]
  generalize (cs.take width).takeWhile Char.isDigit = ds at h hsplit ⊢
  cases hleft : (cs.take width).dropWhile Char.isDigit with
  | nil =>
    -- The digits end because the text does.
    rw [hleft, List.nil_append] at hsplit
    have hlength := congrArg List.length hsplit
    rw [List.length_append, List.length_drop] at hlength
    rw [List.drop_eq_nil_iff.2 (by omega)]
    rfl
  | cons c left =>
    have hdigit := List.head?_dropWhile_not Char.isDigit (cs.take width)
    rw [hleft] at hdigit hsplit
    rw [← hsplit, List.drop_left]
    simpa [NoDigit] using hdigit

/-- What is read as a number begins with digits that spell it. -/
theorem numeral_of_readNumber {limit : Option Nat} (h : readNumber limit cs = .ok (n, rest)) :
    ∃ ds, cs = ds ++ rest ∧ Numeral n ds ∧
      ∀ width ∈ limit, ds.length ≤ width ∧ (ds.length < width → NoDigit rest) := by
  unfold readNumber at h
  dsimp only at h
  split at h
  next => cases h
  next hne =>
    cases h
    have hprefix : ((limit.map cs.take).getD cs).takeWhile Char.isDigit <+: cs := by
      refine (List.takeWhile_prefix _).trans ?_
      cases limit with
      | none => exact List.prefix_rfl
      | some width => exact List.take_prefix width cs
    refine ⟨_, (List.prefix_iff_eq_append.1 hprefix).symm,
      ⟨fun c hc => List.mem_takeWhile_imp hc, by simpa using hne, rfl⟩, ?_⟩
    rintro width hwidth
    cases hwidth
    refine ⟨?_, noDigit_drop cs⟩
    exact (List.takeWhile_prefix _).length_le.trans (List.length_take_le _ _)

theorem Numeral.readNumber_none (h : Numeral n ds) (hrest : NoDigit rest) :
    readNumber none (ds ++ rest) = .ok (n, rest) := by
  rw [Time.readNumber_none h.digits h.nonempty hrest, h.value]

theorem Numeral.readNumber_some (h : Numeral n ds)
    (hlimit : ds.length = limit ∨ ds.length ≤ limit ∧ NoDigit rest) :
    readNumber (some limit) (ds ++ rest) = .ok (n, rest) := by
  rw [Time.readNumber_some h.digits h.nonempty hlimit, h.value]

theorem Numeral.lt (h : Numeral n ds) : n < 10 ^ ds.length := by
  rw [← h.value]
  exact digitsValue_lt ds

/-! ## Blanks -/

theorem exists_of_trimStart (cs : List Char) :
    ∃ blanks, Blank blanks ∧ cs = blanks ++ trimStart cs :=
  ⟨cs.takeWhile isBlank, fun _ hc => List.mem_takeWhile_imp hc,
    List.takeWhile_append_dropWhile.symm⟩

theorem Blank.trimStart_append {blanks : List Char} (h : Blank blanks) (rest : List Char) :
    trimStart (blanks ++ rest) = trimStart rest :=
  List.dropWhile_append_of_pos h

theorem blank_iff_trimStart : Blank cs ↔ trimStart cs = [] := by
  unfold Blank trimStart
  rw [List.dropWhile_eq_nil_iff]

theorem Numeral.trimStart_append (h : Numeral n ds) (rest : List Char) :
    trimStart (ds ++ rest) = ds ++ rest :=
  trimStart_digits h.digits h.nonempty rest

/-! ## Parts -/

theorem delimiter_of_readMark {c : Char} (h : readMark c cs = .ok rest) :
    ∃ text, cs = text ++ rest ∧ Delimiter c text := by
  obtain ⟨blanks, hblanks, hcs⟩ := exists_of_trimStart cs
  unfold readMark at h
  split at h
  next => cases h
  next first left htrim =>
    split at h
    next heq =>
      cases h
      subst heq
      exact ⟨blanks ++ [first], by rw [List.append_assoc, List.singleton_append, ← htrim, ← hcs],
        .mk hblanks⟩
    next => cases h

theorem Delimiter.readMark {c : Char} {text : List Char} (h : Delimiter c text)
    (hc : isBlank c = false) (rest : List Char) : readMark c (text ++ rest) = .ok rest := by
  obtain ⟨hblanks⟩ := h
  unfold Time.readMark
  rw [List.append_assoc, hblanks.trimStart_append, List.singleton_append, trimStart_cons hc]
  exact if_pos rfl

theorem Delimiter.noDigit {c : Char} {text : List Char} (h : Delimiter c text)
    (hc : c.isDigit = false) (rest : List Char) : NoDigit (text ++ rest) := by
  obtain ⟨hblanks⟩ := h
  rw [List.append_assoc]
  exact hblanks.noDigit_append (by simp [NoDigit, hc])

theorem field_of_readField {low high : Nat} (h : readField low high cs = .ok (n, rest)) :
    low ≤ n ∧ n ≤ high ∧ ∃ text, cs = text ++ rest ∧ Field n text := by
  obtain ⟨blanks, hblanks, hcs⟩ := exists_of_trimStart cs
  obtain ⟨⟨m, left⟩, hread, hbounds⟩ := exists_of_ok_bind h
  dsimp only at hbounds
  split at hbounds
  next hboth =>
    cases hbounds
    obtain ⟨ds, hds, hnumeral, hshort⟩ := numeral_of_readNumber hread
    refine ⟨hboth.1, hboth.2, blanks ++ ds, ?_, .mk hblanks hnumeral (hshort 2 rfl).1⟩
    rw [List.append_assoc, ← hds, ← hcs]
  next => cases hbounds

theorem Field.readField {low high : Nat} {text : List Char} (h : Field n text) (hlow : low ≤ n)
    (hhigh : n ≤ high) (hrest : NoDigit rest) :
    readField low high (text ++ rest) = .ok (n, rest) := by
  obtain ⟨hblanks, hds, hshort⟩ := h
  unfold Time.readField
  rw [List.append_assoc, hblanks.trimStart_append, hds.trimStart_append,
    hds.readNumber_some (.inr ⟨hshort, hrest⟩), ok_bind]
  exact if_pos ⟨hlow, hhigh⟩

/-! ## Dates -/

theorem eq_of_bounded {year year' : Int} {left : List Char}
    (h : (if -0x80000000 ≤ year' ∧ year' < 0x80000000 then .ok (year', left)
      else .error TimeError.outOfRange) = Except.ok (year, rest)) : year' = year ∧ left = rest := by
  split at h
  next =>
    cases h
    exact ⟨rfl, rfl⟩
  next => cases h

theorem yearForm_of_readYear {year : Int} (h : readYear cs = .ok (year, rest)) :
    ∃ blanks text, cs = blanks ++ text ++ rest ∧ Blank blanks ∧ YearForm year text := by
  obtain ⟨blanks, hblanks, hcs⟩ := exists_of_trimStart cs
  suffices hform : ∃ text, trimStart cs = text ++ rest ∧ YearForm year text by
    obtain ⟨text, htext, hform⟩ := hform
    exact ⟨blanks, text, by rw [List.append_assoc, ← htext, ← hcs], hblanks, hform⟩
  unfold readYear at h
  split at h
  next digits htrim =>
    obtain ⟨⟨n, left⟩, hnumber, h⟩ := exists_of_ok_bind h
    dsimp only at h
    rw [pure_bind] at h
    obtain ⟨rfl, rfl⟩ := eq_of_bounded h
    obtain ⟨ds, rfl, hds, -⟩ := numeral_of_readNumber hnumber
    exact ⟨'-' :: ds, htrim, .negative hds⟩
  next digits htrim =>
    obtain ⟨⟨n, left⟩, hnumber, h⟩ := exists_of_ok_bind h
    dsimp only at h
    rw [pure_bind] at h
    obtain ⟨rfl, rfl⟩ := eq_of_bounded h
    obtain ⟨ds, rfl, hds, -⟩ := numeral_of_readNumber hnumber
    exact ⟨'+' :: ds, htrim, .positive hds⟩
  next =>
    obtain ⟨⟨n, left⟩, hnumber, h⟩ := exists_of_ok_bind h
    dsimp only at h
    rw [pure_bind] at h
    obtain ⟨rfl, rfl⟩ := eq_of_bounded h
    obtain ⟨ds, hsplit, hds, hshort⟩ := numeral_of_readNumber hnumber
    exact ⟨ds, hsplit, .unsigned hds (hshort 4 rfl).1⟩

theorem YearForm.readYear {year : Int} {blanks text : List Char} (h : YearForm year text)
    (hblanks : Blank blanks) (hle : -0x80000000 ≤ year) (hlt : year < 0x80000000)
    (hrest : NoDigit rest) : readYear (blanks ++ (text ++ rest)) = .ok (year, rest) := by
  cases h with
  | @positive n ds hds =>
    have htrim := hblanks.trimStart_append ('+' :: (ds ++ rest))
    exact readYear_plus (htrim.trans (trimStart_cons (by decide) _))
      (hds.readNumber_none hrest) hle hlt
  | @negative n ds hds =>
    have htrim := hblanks.trimStart_append ('-' :: (ds ++ rest))
    exact readYear_minus (htrim.trans (trimStart_cons (by decide) _))
      (hds.readNumber_none hrest) hle hlt
  | unsigned hds hshort =>
    have hlimit : text.length = 4 ∨ text.length ≤ 4 ∧ NoDigit rest := .inr ⟨hshort, hrest⟩
    have hread := hds.readNumber_some hlimit
    have htrim := (hblanks.trimStart_append (text ++ rest)).trans (hds.trimStart_append rest)
    obtain ⟨d, ds, rfl⟩ := List.exists_cons_of_ne_nil hds.nonempty
    exact readYear_digits htrim (hds.digits d List.mem_cons_self) hread hle hlt

theorem dateForm_of_readDate {date : Date} (h : readDate cs = .ok (date, rest)) :
    ∃ text, cs = text ++ rest ∧ DateForm date text := by
  obtain ⟨⟨year, afterYear⟩, hyear, h⟩ := exists_of_ok_bind h
  obtain ⟨afterHyphen, hhyphen, h⟩ := exists_of_ok_bind h
  obtain ⟨⟨month, afterMonth⟩, hmonth, h⟩ := exists_of_ok_bind h
  obtain ⟨afterHyphen', hhyphen', h⟩ := exists_of_ok_bind h
  obtain ⟨⟨day, afterDay⟩, hday, h⟩ := exists_of_ok_bind h
  cases h
  obtain ⟨blanks, years, rfl, hblanks, hyears⟩ := yearForm_of_readYear hyear
  obtain ⟨hyphen, rfl, hmark⟩ := delimiter_of_readMark hhyphen
  obtain ⟨-, -, months, rfl, hmonths⟩ := field_of_readField hmonth
  obtain ⟨hyphen', rfl, hmark'⟩ := delimiter_of_readMark hhyphen'
  obtain ⟨-, -, days, rfl, hdays⟩ := field_of_readField hday
  refine ⟨_, ?_, .mk hblanks hyears hmark hmonths hmark' hdays⟩
  simp only [List.append_assoc]

theorem DateForm.readDate {date : Date} {text : List Char} (h : DateForm date text)
    (hvalid : date.isValid = true) (hfirst : firstYear ≤ date.year) (hlast : date.year ≤ lastYear)
    (hrest : NoDigit rest) : readDate (text ++ rest) = .ok (date, rest) := by
  obtain ⟨hblanks, hyear, hhyphen, hmonth, hhyphen', hday⟩ := h
  obtain ⟨hmonth_pos, hmonth_le, hday_pos, hday_le⟩ := Date.bounds_of_isValid hvalid
  simp only [firstYear, lastYear] at hfirst hlast
  simp only [List.append_assoc]
  unfold Time.readDate
  rw [hyear.readYear hblanks (by omega) (by omega) (hhyphen.noDigit (by decide) _), ok_bind]
  dsimp only
  rw [hhyphen.readMark (by decide), ok_bind,
    hmonth.readField hmonth_pos hmonth_le (hhyphen'.noDigit (by decide) _), ok_bind]
  dsimp only
  rw [hhyphen'.readMark (by decide), ok_bind, hday.readField hday_pos hday_le hrest, ok_bind]
  rfl

/-! ## Times of day -/

theorem fractionForm_of_readFraction (h : readFraction cs = .ok (n, rest)) :
    ∃ text, cs = text ++ rest ∧ FractionForm n text := by
  unfold readFraction at h
  split at h
  next digits =>
    obtain ⟨⟨m, left⟩, hnumber, heq⟩ := exists_of_ok_bind h
    cases heq
    obtain ⟨ds, rfl, hds, hshort⟩ := numeral_of_readNumber hnumber
    obtain ⟨hle, hstop⟩ := hshort 9 rfl
    have hwidth : (ds ++ left).length - left.length = ds.length := by
      rw [List.length_append]
      omega
    -- The number stopped short of nine digits only where the digits stop.
    have hfull : left.takeWhile Char.isDigit ≠ [] → ds.length = 9 := by
      intro hmore
      by_contra hne
      have hnone := hstop (by omega)
      cases left with
      | nil => exact hmore rfl
      | cons c left =>
        have hdigit : c.isDigit = false := by simpa [NoDigit] using hnone
        exact hmore (by simp [hdigit])
    refine ⟨'.' :: ds ++ left.takeWhile Char.isDigit, ?_, ?_⟩
    · rw [List.cons_append, List.cons_append, List.append_assoc, List.takeWhile_append_dropWhile]
    · rw [hwidth]
      exact .present hds hle (fun c hc => List.mem_takeWhile_imp hc) hfull
  next =>
    cases h
    exact ⟨[], rfl, .absent⟩

theorem FractionForm.lt {text : List Char} (h : FractionForm n text) : n < nanosPerSecond := by
  cases h with
  | absent => decide
  | @present m ds more hds hshort =>
    have hpow : 10 ^ ds.length * 10 ^ (9 - ds.length) = nanosPerSecond := by
      rw [← Nat.pow_add, Nat.add_sub_of_le hshort]
      rfl
    rw [← hpow]
    exact Nat.mul_lt_mul_of_pos_right hds.lt (Nat.pow_pos (by decide))

theorem FractionForm.noDigit_append {text : List Char} (h : FractionForm n text)
    (hrest : NoDigit rest) : NoDigit (text ++ rest) := by
  cases h with
  | absent => exact hrest
  | present => rfl

theorem FractionForm.readFraction {text : List Char} (h : FractionForm n text)
    (hpoint : rest.head? ≠ some '.') (hrest : NoDigit rest) :
    readFraction (text ++ rest) = .ok (n, rest) := by
  cases h with
  | absent =>
    unfold Time.readFraction
    split
    next digits heq =>
      rw [List.nil_append] at heq
      exact absurd (congrArg List.head? heq) hpoint
    next => rfl
  | @present m ds more hds hshort hmore hfull =>
    have hlimit : ds.length = 9 ∨ ds.length ≤ 9 ∧ NoDigit (more ++ rest) := by
      by_cases hnone : more = []
      · subst hnone
        exact .inr ⟨hshort, hrest⟩
      · exact .inl (hfull hnone)
    have hwidth : (ds ++ (more ++ rest)).length - (more ++ rest).length = ds.length := by
      rw [List.length_append]
      omega
    have hdrop : (more ++ rest).dropWhile Char.isDigit = rest := by
      rw [List.dropWhile_append_of_pos hmore]
      cases rest with
      | nil => rfl
      | cons c rest =>
        have hdigit : c.isDigit = false := by simpa [NoDigit] using hrest
        simp [hdigit]
    simp only [Time.readFraction, List.cons_append, List.append_assoc]
    rw [hds.readNumber_some hlimit, ok_bind]
    dsimp only
    rw [hwidth, hdrop]
    rfl

theorem clockForm_of_readClock {clock : Clock} (h : readClock cs = .ok (clock, rest)) :
    ∃ text blanks, cs = text ++ blanks ++ rest ∧ ClockForm clock text ∧ Blank blanks := by
  obtain ⟨⟨hour, afterHour⟩, hhour, h⟩ := exists_of_ok_bind h
  obtain ⟨afterColon, hcolon, h⟩ := exists_of_ok_bind h
  obtain ⟨⟨minute, afterMinute⟩, hminute, h⟩ := exists_of_ok_bind h
  obtain ⟨afterColon', hcolon', h⟩ := exists_of_ok_bind h
  obtain ⟨⟨second, afterSecond⟩, hsecond, h⟩ := exists_of_ok_bind h
  obtain ⟨⟨nano, afterFraction⟩, hfraction, h⟩ := exists_of_ok_bind h
  cases h
  obtain ⟨-, hhour_le, hours, rfl, hhours⟩ := field_of_readField hhour
  obtain ⟨colon, rfl, hmark⟩ := delimiter_of_readMark hcolon
  obtain ⟨-, hminute_le, minutes, rfl, hminutes⟩ := field_of_readField hminute
  obtain ⟨colon', rfl, hmark'⟩ := delimiter_of_readMark hcolon'
  obtain ⟨-, hsecond_le, seconds, rfl, hseconds⟩ := field_of_readField hsecond
  obtain ⟨fraction, rfl, hform⟩ := fractionForm_of_readFraction hfraction
  obtain ⟨blanks, hblanks, hleft⟩ := exists_of_trimStart afterFraction
  refine ⟨_, blanks, ?_, .mk hhours hhour_le hmark hminutes hminute_le hmark' hseconds hsecond_le
    hform, hblanks⟩
  simp only [List.append_assoc, ← hleft]

/-- What an offset begins with: neither a digit, nor a point, nor a blank. -/
structure Opens (cs : List Char) : Prop where
  noDigit : NoDigit cs
  noPoint : cs.head? ≠ some '.'
  noBlank : trimStart cs = cs

theorem Blank.noPoint_append {blanks : List Char} (hblanks : Blank blanks) (h : Opens rest) :
    (blanks ++ rest).head? ≠ some '.' := by
  cases blanks with
  | nil => exact h.noPoint
  | cons c blanks =>
    intro hpoint
    obtain rfl : c = '.' := Option.some.inj hpoint
    exact absurd (hblanks '.' List.mem_cons_self) (by decide)

theorem ClockForm.readClock {clock : Clock} {text blanks : List Char} (h : ClockForm clock text)
    (hblanks : Blank blanks) (hrest : Opens rest) :
    readClock (text ++ (blanks ++ rest)) = .ok (clock, rest) := by
  obtain ⟨hhour, hhour_le, hcolon, hminute, hminute_le, hcolon', hsecond, hsecond_le,
    hfraction⟩ := h
  have hend := hblanks.noDigit_append hrest.noDigit
  have hdigits := hfraction.noDigit_append hend
  simp only [List.append_assoc]
  unfold Time.readClock
  rw [hhour.readField (Nat.zero_le _) hhour_le (hcolon.noDigit (by decide) _), ok_bind]
  dsimp only
  rw [hcolon.readMark (by decide), ok_bind,
    hminute.readField (Nat.zero_le _) hminute_le (hcolon'.noDigit (by decide) _), ok_bind]
  dsimp only
  rw [hcolon'.readMark (by decide), ok_bind,
    hsecond.readField (Nat.zero_le _) hsecond_le hdigits, ok_bind]
  dsimp only
  rw [hfraction.readFraction (hblanks.noPoint_append hrest) hend, ok_bind]
  dsimp only
  rw [hblanks.trimStart_append, hrest.noBlank]
  rfl

/-! ## Offsets -/

theorem digitsValue_pair (a b : Char) :
    digitsValue [a, b] = digitValue a * 10 + digitValue b := by
  simp [digitsValue]

theorem pair_of_readPair {bound : Nat} (h : readPair bound cs = .ok (n, rest)) :
    ∃ ds, cs = ds ++ rest ∧ Pair n ds ∧ n < bound * 10 := by
  unfold readPair at h
  split at h
  next a b left =>
    split at h
    next hdigits =>
      split at h
      next hlt =>
        cases h
        have hb := digitValue_lt b
        have hpair : ∀ c ∈ [a, b], c.isDigit = true := by simpa using hdigits
        refine ⟨[a, b], rfl, ⟨⟨hpair, List.cons_ne_nil _ _, rfl⟩, rfl⟩, ?_⟩
        rw [digitsValue_pair]
        omega
      next => cases h
    next => cases h
  next => cases h
  next => cases h

theorem Pair.readPair {bound : Nat} (h : Pair n ds) (hlt : n < bound * 10) (rest : List Char) :
    readPair bound (ds ++ rest) = .ok (n, rest) := by
  obtain ⟨⟨hdigits, -, hvalue⟩, hlength⟩ := h
  obtain ⟨a, b, rfl⟩ := List.length_eq_two.1 hlength
  have hboth : a.isDigit = true ∧ b.isDigit = true := by simpa using hdigits
  have hfirst : digitValue a < bound := by
    rw [digitsValue_pair] at hvalue
    omega
  simp only [Time.readPair, List.cons_append, List.nil_append]
  rw [if_pos hboth, if_pos hfirst, hvalue]

theorem opens_of_isAlpha {c : Char} (h : c.isAlpha = true) (rest : List Char) :
    Opens (c :: rest) := by
  have hrange : 65 ≤ c.toNat ∧ c.toNat ≤ 122 := by
    have hletter : 65 ≤ c.toNat ∧ c.toNat ≤ 90 ∨ 97 ≤ c.toNat ∧ c.toNat ≤ 122 := by
      simpa [Char.isAlpha, Char.isUpper, Char.isLower, UInt32.le_iff_toNat_le] using h
    omega
  have hdigit : c.isDigit = false := by
    rw [Bool.eq_false_iff]
    intro hdigit
    simp only [Char.isDigit, Bool.and_eq_true, decide_eq_true_eq, UInt32.le_iff_toNat_le] at hdigit
    have hhigh : c.toNat ≤ 57 := hdigit.2
    omega
  refine ⟨by simp [NoDigit, hdigit], ?_, ?_⟩
  · intro hpoint
    obtain rfl : c = '.' := Option.some.inj hpoint
    exact absurd hrange.1 (by decide)
  · exact trimStart_cons (isBlank_eq_false (by omega) (by omega)) rest

theorem opens_of_sign {c : Char} (h : c = '+' ∨ c = '-' ∨ c = '−') (rest : List Char) :
    Opens (c :: rest) := by
  rcases h with rfl | rfl | rfl
  · exact ⟨rfl, by simp, trimStart_cons (by decide) rest⟩
  · exact ⟨rfl, by simp, trimStart_cons (by decide) rest⟩
  · exact ⟨rfl, by simp, trimStart_cons (by decide) rest⟩

theorem OffsetForm.opens {offset : Int} {text : List Char} (h : OffsetForm offset text)
    (rest : List Char) : Opens (text ++ rest) := by
  cases h with
  | utc hletters =>
    obtain ⟨c, letters, rfl⟩ : ∃ c letters, text = c :: letters := by
      refine List.exists_cons_of_ne_nil ?_
      rintro rfl
      cases hletters
    have hfirst : c.toLower = 'u' := (List.cons.inj hletters).1
    refine opens_of_isAlpha ?_ _
    rw [← Char.isLower_toLower_eq_isAlpha, hfirst]
    decide
  | zulu hzulu =>
    refine opens_of_isAlpha ?_ _
    rcases hzulu with rfl | rfl <;> decide
  | ahead => exact opens_of_sign (.inl rfl) _
  | behind hsign => exact opens_of_sign (.inr hsign) _

theorem offsetForm_of_readOffset {offset : Int} (h : readOffset cs = .ok (offset, rest)) :
    ∃ text, cs = text ++ rest ∧ OffsetForm offset text := by
  unfold readOffset at h
  split at h
  next hletters =>
    cases h
    exact ⟨cs.take 3, (List.take_append_drop 3 cs).symm, .utc hletters⟩
  next =>
    cases cs with
    | nil => cases h
    | cons c left =>
      dsimp only at h
      split at h
      next hzulu =>
        cases h
        exact ⟨[c], rfl, .zulu hzulu⟩
      next =>
        split at h
        next hsign =>
          obtain ⟨⟨hours, afterHours⟩, hhours, h⟩ := exists_of_ok_bind h
          obtain ⟨⟨minutes, afterMinutes⟩, hminutes, h⟩ := exists_of_ok_bind h
          cases h
          obtain ⟨front, rfl, hfront, -⟩ := pair_of_readPair hhours
          -- The minutes were read behind what may stand between, so it is put back before them.
          obtain ⟨back, hsplit, hback, hlt⟩ := pair_of_readPair hminutes
          have htext : c :: (front ++ afterHours) =
              c :: front ++ (afterHours.takeWhile fun d => d == ':' || isBlank d) ++ back ++
                afterMinutes := by
            rw [List.append_assoc, ← hsplit, List.append_assoc, List.takeWhile_append_dropWhile,
              List.cons_append]
          have hbetween : ∀ d ∈ afterHours.takeWhile fun d => d == ':' || isBlank d,
              (d == ':' || isBlank d) = true := by
            intro d hd
            exact List.mem_takeWhile_imp (p := fun d => d == ':' || isBlank d) hd
          refine ⟨_, htext, ?_⟩
          split
          next hplus =>
            subst hplus
            exact .ahead hfront hbetween hback hlt
          next hplus => exact .behind (hsign.resolve_left hplus) hfront hbetween hback hlt
        next => cases h

theorem not_utc {c : Char} (h : c.toLower ≠ 'u') (left : List Char) :
    ((c :: left).take 3).map Char.toLower ≠ ['u', 't', 'c'] :=
  fun heq => h (List.cons.inj heq).1

theorem readOffset_of_sign {c : Char} (hsign : c = '+' ∨ c = '-' ∨ c = '−') (left : List Char) :
    readOffset (c :: left) = do
      let (hours, left) ← readPair 10 left
      let (minutes, left) ← readPair 6 (left.dropWhile fun d => d == ':' || isBlank d)
      let offset : Int := hours * 3600 + minutes * 60
      return (if c = '+' then offset else -offset, left) := by
  have hfirst : c.toLower ≠ 'u' := by rcases hsign with rfl | rfl | rfl <;> decide
  have hzulu : ¬(c = 'Z' ∨ c = 'z') := by rcases hsign with rfl | rfl | rfl <;> decide
  unfold readOffset
  rw [if_neg (not_utc hfirst left)]
  dsimp only
  rw [if_neg hzulu, if_pos hsign]

theorem dropWhile_between {between back : List Char} {minutes : Nat}
    (hbetween : ∀ c ∈ between, (c == ':' || isBlank c) = true) (hback : Pair minutes back)
    (rest : List Char) :
    (between ++ (back ++ rest)).dropWhile (fun d => d == ':' || isBlank d) = back ++ rest := by
  rw [List.dropWhile_append_of_pos hbetween]
  obtain ⟨d, back, rfl⟩ := List.exists_cons_of_ne_nil hback.nonempty
  have hdigit := hback.digits d List.mem_cons_self
  have hcolon : (d == ':') = false := by
    rw [beq_eq_false_iff_ne]
    rintro rfl
    cases hdigit
  simp [hcolon, isBlank_of_isDigit hdigit]

theorem OffsetForm.readOffset {offset : Int} {text : List Char} (h : OffsetForm offset text)
    (rest : List Char) : readOffset (text ++ rest) = .ok (offset, rest) := by
  cases h with
  | utc hletters =>
    have hlength : text.length = 3 := by
      rw [← List.length_map (f := Char.toLower), hletters]
      rfl
    unfold Time.readOffset
    rw [List.take_left' hlength, List.drop_left' hlength, if_pos hletters]
  | @zulu c hzulu =>
    have hfirst : c.toLower ≠ 'u' := by rcases hzulu with rfl | rfl <;> decide
    unfold Time.readOffset
    rw [List.singleton_append, if_neg (not_utc hfirst rest)]
    exact if_pos hzulu
  | @ahead hours minutes front between back hhours hbetween hminutes hlt =>
    have hhours_lt := hhours.lt
    rw [hhours.length] at hhours_lt
    simp only [List.cons_append, List.append_assoc]
    rw [readOffset_of_sign (.inl rfl), hhours.readPair (by omega), ok_bind]
    dsimp only
    rw [dropWhile_between hbetween hminutes, hminutes.readPair (by omega), ok_bind]
    rfl
  | @behind hours minutes sign front between back hsign hhours hbetween hminutes hlt =>
    have hhours_lt := hhours.lt
    rw [hhours.length] at hhours_lt
    have hplus : sign ≠ '+' := by rcases hsign with rfl | rfl <;> decide
    simp only [List.cons_append, List.append_assoc]
    rw [readOffset_of_sign (.inr hsign), hhours.readPair (by omega), ok_bind]
    dsimp only
    rw [dropWhile_between hbetween hminutes, hminutes.readPair (by omega), ok_bind]
    dsimp only
    rw [if_neg hplus]
    rfl

theorem OffsetForm.dvd {offset : Int} {text : List Char} (h : OffsetForm offset text) :
    60 ∣ offset := by
  cases h <;> omega

/-! ## Times -/

theorem exists_of_readDivider (h : readDivider cs = .ok rest) :
    ∃ c, cs = c :: rest ∧ (c = 'T' ∨ c = 't' ∨ c = ' ') := by
  unfold readDivider at h
  split at h
  next => cases h
  next c left =>
    split at h
    next hdivider =>
      cases h
      exact ⟨c, rfl, hdivider⟩
    next => cases h

theorem names_of_resolve {date : Date} {clock : Clock} {offset : Int} {t : UtcTime}
    (h : resolve date clock offset = .ok t) : Names date clock offset t := by
  unfold resolve at h
  split at h
  next => cases h
  next hdate =>
    split at h
    next => cases h
    next hoffset =>
      dsimp only at h
      split at h
      next u hparts =>
        cases h
        obtain ⟨hday, hsecond, hnano⟩ := UtcTime.ofParts?_eq_some hparts
        simp only [Bool.or_eq_true, Bool.not_eq_true', decide_eq_true_eq, not_or,
          Bool.not_eq_false] at hdate
        refine ⟨hdate.1.1, by omega, by omega, by omega, ?_, hnano⟩
        rw [hday, hsecond]
        simp only [secondsPerDay]
        omega
      next => cases h

theorem Names.resolve {date : Date} {clock : Clock} {offset : Int} {t : UtcTime}
    (h : Names date clock offset t) : resolve date clock offset = .ok t := by
  obtain ⟨hvalid, hfirst, hlast, hoffset, hseconds, hnano⟩ := h
  have hsecond := t.second_lt
  unfold Time.resolve
  rw [if_neg (by simp [hvalid, hfirst, hlast]), if_neg hoffset.not_ge]
  dsimp only
  simp only [secondsPerDay] at *
  -- The seconds of the day and those before it are what is left of the sum by the days.
  generalize hsum : (clock.hour : Int) * 3600 + clock.minute * 60 + (min clock.second 59 : Nat) -
    offset = sum
  have hday : date.toDays + sum / (86400 : Nat) = t.day := by omega
  have hrest : (sum % (86400 : Nat)).toNat = t.second := by omega
  rw [hday, hrest, ← hnano, UtcTime.ofParts?_parts]

end Observatory.Time

namespace Observatory.UtcTime

open Time

variable {t : UtcTime} {cs : List Char}

theorem spelled_of_ofChars (h : ofChars cs = .ok t) : t.Spelled cs := by
  obtain ⟨⟨date, afterDate⟩, hdate, h⟩ := exists_of_ok_bind h
  obtain ⟨afterDivider, hdivider, h⟩ := exists_of_ok_bind h
  obtain ⟨⟨clock, afterClock⟩, hclock, h⟩ := exists_of_ok_bind h
  obtain ⟨⟨offset, afterOffset⟩, hoffset, hnamed⟩ := exists_of_ok_bind h
  dsimp only at hnamed
  split at hnamed
  next => cases hnamed
  next hend =>
    obtain ⟨dates, rfl, hdates⟩ := dateForm_of_readDate hdate
    obtain ⟨c, rfl, hc⟩ := exists_of_readDivider hdivider
    obtain ⟨clocks, blanks, rfl, hclocks, hblanks⟩ := clockForm_of_readClock hclock
    obtain ⟨offsets, rfl, hoffsets⟩ := offsetForm_of_readOffset hoffset
    have hblanks' : Blank afterOffset := by
      rw [blank_iff_trimStart]
      simpa using hend
    have htext : dates ++ c :: (clocks ++ blanks ++ (offsets ++ afterOffset)) =
        dates ++ c :: clocks ++ blanks ++ offsets ++ afterOffset := by
      simp only [List.append_assoc, List.cons_append]
    rw [htext]
    exact .mk hdates hc hclocks hblanks hoffsets hblanks' (names_of_resolve hnamed)

theorem Spelled.ofChars (h : t.Spelled cs) : ofChars cs = .ok t := by
  cases h with
  | @mk date clock offset divider dates clocks blanks offsets blanks' hdate hdivider hclock hblanks
      hoffset hblanks' hnames =>
  have hdigit : NoDigit (divider :: (clocks ++ (blanks ++ (offsets ++ blanks')))) := by
    rcases hdivider with rfl | rfl | rfl <;> rfl
  have hread := hdate.readDate hnames.valid hnames.firstYear_le hnames.le_lastYear hdigit
  -- A time of day ends where the offset begins: nothing in an offset could go on with it.
  have hread' := hclock.readClock hblanks (hoffset.opens blanks')
  have hend : (Text.trimStart blanks').isEmpty = true := by
    rw [blank_iff_trimStart.1 hblanks']
    rfl
  simp only [List.append_assoc, List.cons_append]
  unfold UtcTime.ofChars
  rw [hread, ok_bind]
  dsimp only
  rw [readDivider, if_pos hdivider, ok_bind, hread', ok_bind]
  dsimp only
  rw [hoffset.readOffset, ok_bind]
  dsimp only
  rw [hend]
  exact hnames.resolve

/-- The reader takes just the texts that the grammar makes, each as the time that it spells. -/
theorem parse_eq_ok_iff {text : String} : parse text = .ok t ↔ t.Spelled text.toList :=
  ⟨spelled_of_ofChars, Spelled.ofChars⟩

/-! ## Times that are read or shifted -/

theorem Spelled.leapEndsMinute (h : t.Spelled cs) : t.LeapEndsMinute := by
  cases h with
  | mk hdate hdivider hclock hblanks hoffset hblanks' hnames =>
  intro hleap
  obtain ⟨-, -, -, -, -, -, -, -, hfraction⟩ := hclock
  have hfraction_lt := hfraction.lt
  have hminutes := hoffset.dvd
  have hseconds := hnames.seconds
  have hnano := hnames.nano
  -- Only second 60 has so many nanoseconds, and offsets are whole minutes.
  split at hnano
  next hsixty =>
    simp only [hsixty, secondsPerDay] at hseconds
    omega
  next => omega

theorem LeapEndsMinute.plus (h : t.LeapEndsMinute) (shift : Duration) :
    (t.plus shift).LeapEndsMinute := by
  cases t.shifted_plus shift with
  | beyond _ hsame => rwa [hsame]
  | within hstays hrank =>
    intro _
    have hlast := h hstays.1
    have := t.second_lt; have := (t.plus shift).second_lt; have := (t.plus shift).nano_lt
    simp only [rank, secondsPerDay, nanosPerSecond] at *
    omega
  | onward _ _ hnano => exact leapEndsMinute_of_lt hnano

/-- The times that are read from a text, and those that shifts lead to from them. -/
inductive Obtained : UtcTime → Prop where
  | read {text : String} {t : UtcTime} (h : parse text = .ok t) : Obtained t
  | shifted {t : UtcTime} (h : Obtained t) (shift : Duration) : Obtained (t.plus shift)

theorem obtained_iff : t.Obtained ↔ t.LeapEndsMinute := by
  constructor
  · intro h
    induction h with
    | read h => exact (parse_eq_ok_iff.1 h).leapEndsMinute
    | shifted _ shift ih => exact ih.plus shift
  · intro h
    have hread := t.parse_text
    rw [h.reread] at hread
    exact .read hread

end Observatory.UtcTime

/-! ## The form of RFC 3339 -/

namespace Observatory.Time

open Text

/-- Digits, as many as the width says. -/
def Digits (width : Nat) (cs : List Char) : Prop :=
  cs.length = width ∧ ∀ c ∈ cs, c.isDigit = true

/-- The production `time-secfrac`, which may be left out. -/
inductive Secfrac : List Char → Prop where
  | absent : Secfrac []
  | present {ds : List Char} (hne : ds ≠ []) (hds : ∀ c ∈ ds, c.isDigit = true) :
      Secfrac ('.' :: ds)

/-- The production `time-offset`. -/
inductive TimeOffset : List Char → Prop where
  | zulu {c : Char} (h : c = 'Z' ∨ c = 'z') : TimeOffset [c]
  | numeric {sign : Char} {hour minute : List Char} (hsign : sign = '+' ∨ sign = '-')
      (hhour : Digits 2 hour) (hminute : Digits 2 minute) :
      TimeOffset (sign :: hour ++ ':' :: minute)

/-- The production `date-time` of RFC 3339, with a space in place of the `T` if one likes. -/
inductive DateTime : List Char → Prop where
  | mk {year month day hour minute second fraction offset : List Char} {divider : Char}
      (hyear : Digits 4 year) (hmonth : Digits 2 month) (hday : Digits 2 day)
      (hdivider : divider = 'T' ∨ divider = 't' ∨ divider = ' ')
      (hhour : Digits 2 hour) (hminute : Digits 2 minute) (hsecond : Digits 2 second)
      (hfraction : Secfrac fraction) (hoffset : TimeOffset offset) :
      DateTime (year ++ '-' :: month ++ '-' :: day ++ divider :: hour ++ ':' :: minute ++
        ':' :: second ++ fraction ++ offset)

theorem digits_padded (width n : Nat) : Digits width (padded width n) :=
  ⟨length_padded width n, isDigit_of_mem_padded⟩

theorem secfrac_fractionText (nano : Nat) : Secfrac (fractionText nano) := by
  have hpresent : ∀ width n, 0 < width → Secfrac ('.' :: padded width n) := by
    intro width n hpos
    refine .present ?_ isDigit_of_mem_padded
    rw [← List.length_pos_iff, length_padded]
    exact hpos
  unfold fractionText
  split_ifs
  · exact .absent
  · exact hpresent 3 _ (by decide)
  · exact hpresent 6 _ (by decide)
  · exact hpresent 9 _ (by decide)

/-- The written form of a time has the form of RFC 3339 if its year has four digits. -/
theorem dateTime_text {t : UtcTime} (hfirst : 0 ≤ (Date.ofDays t.day).year)
    (hlast : (Date.ofDays t.day).year ≤ 9999) : DateTime t.text.toList := by
  have hform := DateTime.mk (digits_padded 4 (Date.ofDays t.day).year.toNat)
    (digits_padded 2 (Date.ofDays t.day).month) (digits_padded 2 (Date.ofDays t.day).day)
    (.inl rfl) (digits_padded 2 (t.second / 3600)) (digits_padded 2 (t.second / 60 % 60))
    (digits_padded 2 (if nanosPerSecond ≤ t.nano then t.second % 60 + 1 else t.second % 60))
    (secfrac_fractionText (t.nano % nanosPerSecond)) (.zulu (.inl rfl))
  simpa only [UtcTime.text, UtcTime.stem, dateText, yearText, clockText,
    if_pos (And.intro hfirst hlast), String.toList_ofList, List.append_assoc, List.cons_append]
    using hform

end Observatory.Time
