import Mathlib
import Observatory.Text.Decimal

/-!
# Reading back decimal digits

The spellings of a number by `padded` and `atLeast` consist of digits and have that number as their
value, as far as `padded` has room for it.
-/

namespace Observatory.Text

theorem digitsValue_append (ds : List Char) (c : Char) :
    digitsValue (ds ++ [c]) = digitsValue ds * 10 + digitValue c := by
  simp [digitsValue]

theorem digitValue_lt (c : Char) : digitValue c < 10 := by
  unfold digitValue
  split
  next h =>
    simp only [Char.isDigit, Bool.and_eq_true, decide_eq_true_eq, UInt32.le_iff_toNat_le] at h
    have hhigh : c.toNat ≤ 57 := h.2
    have hzero : '0'.toNat = 48 := rfl
    omega
  next => decide

theorem digitsValue_lt (ds : List Char) : digitsValue ds < 10 ^ ds.length := by
  induction ds using List.reverseRecOn with
  | nil => exact Nat.one_pos
  | append_singleton ds c ih =>
    have hc := digitValue_lt c
    rw [digitsValue_append, List.length_append, List.length_singleton, Nat.pow_succ]
    omega

/-- The value of digits is their value to base ten. -/
theorem digitsValue_eq_ofDigitChars {ds : List Char} (h : ∀ c ∈ ds, c.isDigit = true) :
    digitsValue ds = Nat.ofDigitChars 10 ds 0 := by
  rw [digitsValue, Nat.ofDigitChars_eq_foldl]
  generalize 0 = n
  induction ds generalizing n with
  | nil => rfl
  | cons c ds ih =>
    have hc : digitValue c = c.toNat - '0'.toNat := by
      rw [digitValue, if_pos (h c List.mem_cons_self)]
    simp only [List.foldl_cons, hc, Nat.mul_comm n 10]
    exact ih (fun d hd => h d (List.mem_cons_of_mem c hd)) _

/-! ## Padded numbers -/

theorem digitChar_eq (n : Nat) : digitChar n = Nat.digitChar (n % 10) := by
  unfold digitChar
  have hn : n % 10 < 10 := Nat.mod_lt _ (by decide)
  generalize n % 10 = d at hn ⊢
  match d, hn with
  | 0, _ | 1, _ | 2, _ | 3, _ | 4, _ | 5, _ | 6, _ | 7, _ | 8, _ | 9, _ => rfl

@[simp]
theorem isDigit_digitChar (n : Nat) : (digitChar n).isDigit = true := by
  rw [digitChar_eq, Nat.isDigit_digitChar]
  exact decide_eq_true (Nat.mod_lt _ (by decide))

theorem digitValue_digitChar (n : Nat) : digitValue (digitChar n) = n % 10 := by
  rw [digitValue, if_pos (isDigit_digitChar n), digitChar_eq]
  exact Nat.toNat_digitChar_sub_48_of_lt_ten (Nat.mod_lt _ (by decide))

theorem isDigit_of_mem_padded {width n : Nat} : ∀ c ∈ padded width n, c.isDigit = true := by
  induction width generalizing n with
  | zero => simp [padded]
  | succ width ih =>
    intro c hc
    rcases List.mem_append.mp hc with hc | hc
    · exact ih c hc
    · rw [List.mem_singleton.mp hc, isDigit_digitChar]

/-- The value of the last digits of a number is what is left of the number. -/
theorem digitsValue_padded (width n : Nat) : digitsValue (padded width n) = n % 10 ^ width := by
  induction width generalizing n with
  | zero => simp [padded, digitsValue, Nat.mod_one]
  | succ width ih =>
    rw [padded, digitsValue_append, ih, digitValue_digitChar, Nat.pow_succ,
      Nat.mul_comm (10 ^ width) 10, Nat.mod_mul]
    omega

/-! ## Numbers of at least some digits -/

theorem isDigit_of_mem_atLeast {width n : Nat} : ∀ c ∈ atLeast width n, c.isDigit = true := by
  intro c hc
  simp only [atLeast, Nat.toString_eq_repr, Nat.toList_repr, List.mem_append,
    List.mem_replicate] at hc
  rcases hc with ⟨_, rfl⟩ | hc
  · rfl
  · exact Nat.isDigit_of_mem_toDigits (by decide) (by decide) hc

theorem atLeast_ne_nil (width n : Nat) : atLeast width n ≠ [] := by
  simp [atLeast, Nat.toDigits_ne_nil]

/-- The value of a number's digits, with any zeros in front, is the number. -/
theorem digitsValue_atLeast (width n : Nat) : digitsValue (atLeast width n) = n := by
  rw [digitsValue_eq_ofDigitChars isDigit_of_mem_atLeast]
  simp [atLeast, Nat.ofDigitChars_append]

theorem length_atLeast_le {width n count : Nat} (hpos : 0 < count) (hwidth : width ≤ count)
    (h : n < 10 ^ count) : (atLeast width n).length ≤ count := by
  have hdigits : (Nat.toDigits 10 n).length ≤ count := Nat.toDigits_length 10 n count hpos h
  simp only [atLeast, Nat.toString_eq_repr, Nat.toList_repr, List.length_append,
    List.length_replicate]
  omega

end Observatory.Text
