import Mathlib
import Observatory.Text.Utf8

/-!
# Reading back UTF-8

Reading undoes writing: the bytes of a text are read as that text, and no other bytes are. A
character is followed through by the count of its bytes; the narrower bounds that a first byte sets
for the byte after it are kept because a character is written in as few bytes as it needs and is no
surrogate.
-/

namespace Observatory.Text.Utf8

/-! ## Continuation bytes -/

/-- One more continuation byte within its bounds. -/
theorem readTail_cons {count low high bits accepted n : Nat} {bytes : List UInt8}
    (hn : n < 256) (hlow : low ≤ n) (hhigh : n ≤ high) :
    readTail (count + 1) low high bits accepted (UInt8.ofNat n :: bytes) =
      readTail count 0x80 0xBF (bits * 0x40 + (n - 0x80)) (accepted + 1) bytes := by
  simp only [readTail, UInt8.toNat_ofNat_of_lt' hn]
  rw [if_pos ⟨hlow, hhigh⟩]

/-! ## First bytes -/

theorem lead?_two {n : Nat} (hlow : 0x80 ≤ n) (hhigh : n < 0x800) :
    lead? (0xC0 + n / 0x40) = some ⟨1, 0x80, 0xBF, n / 0x40⟩ := by
  unfold lead?
  rw [if_pos (by omega)]
  simp

theorem lead?_three {n : Nat} (hlow : 0x800 ≤ n) (hhigh : n < 0x10000)
    (hsurrogate : n < 0xD800 ∨ 0xDFFF < n) :
    ∃ low high, lead? (0xE0 + n / 0x1000) = some ⟨2, low, high, n / 0x1000⟩ ∧
      low ≤ 0x80 + n / 0x40 % 0x40 ∧ 0x80 + n / 0x40 % 0x40 ≤ high := by
  unfold lead?
  rw [if_neg (by omega)]
  by_cases hE0 : n / 0x1000 = 0
  · rw [if_pos (by omega), hE0]
    exact ⟨0xA0, 0xBF, rfl, by omega, by omega⟩
  · rw [if_neg (by omega)]
    by_cases hED : n / 0x1000 = 0xD
    · rw [if_pos (by omega), hED]
      exact ⟨0x80, 0x9F, rfl, by omega, by omega⟩
    · rw [if_neg (by omega), if_pos (by omega), Nat.add_sub_cancel_left]
      exact ⟨0x80, 0xBF, rfl, by omega, by omega⟩

theorem lead?_four {n : Nat} (hlow : 0x10000 ≤ n) (hhigh : n < 0x110000) :
    ∃ low high, lead? (0xF0 + n / 0x40000) = some ⟨3, low, high, n / 0x40000⟩ ∧
      low ≤ 0x80 + n / 0x1000 % 0x40 ∧ 0x80 + n / 0x1000 % 0x40 ≤ high := by
  unfold lead?
  rw [if_neg (by omega), if_neg (by omega), if_neg (by omega), if_neg (by omega)]
  by_cases hF0 : n / 0x40000 = 0
  · rw [if_pos (by omega), hF0]
    exact ⟨0x90, 0xBF, rfl, by omega, by omega⟩
  · rw [if_neg (by omega)]
    by_cases hF4 : n / 0x40000 = 4
    · rw [if_neg (by omega), if_pos (by omega), hF4]
      exact ⟨0x80, 0x8F, rfl, by omega, by omega⟩
    · rw [if_pos (by omega), Nat.add_sub_cancel_left]
      exact ⟨0x80, 0xBF, rfl, by omega, by omega⟩

/-! ## Characters -/

/-- A byte below 0x80 is a character. -/
theorem decodeFrom_ascii (offset : Nat) {n : Nat} (hn : n < 0x80) (bytes : List UInt8) :
    decodeFrom offset (UInt8.ofNat n :: bytes) =
      (decodeFrom (offset + 1) bytes).map (Char.ofNat n :: ·) := by
  rw [decodeFrom]
  simp only [UInt8.toNat_ofNat_of_lt' (show n < 256 by omega), hn, if_true]
  cases decodeFrom (offset + 1) bytes <;> rfl

/-- A first byte and the continuation bytes that it announces are a character. -/
theorem decodeFrom_lead (offset : Nat) {first n : Nat} {lead : Lead} {bytes rest : List UInt8}
    (hfirst : 0x80 ≤ first) (hbyte : first < 256) (hlead : lead? first = some lead)
    (htail : readTail lead.tail lead.low lead.high lead.bits 1 bytes = .ok (n, rest)) :
    decodeFrom offset (UInt8.ofNat first :: bytes) =
      (decodeFrom (offset + 1 + lead.tail) rest).map (Char.ofNat n :: ·) := by
  rw [decodeFrom]
  simp only [UInt8.toNat_ofNat_of_lt' hbyte, hlead]
  rw [if_neg (by omega)]
  split
  next h =>
    rw [htail] at h
    cases h
  next h =>
    rw [htail] at h
    cases h
  next h =>
    rw [htail] at h
    cases h
    cases decodeFrom (offset + 1 + lead.tail) rest <;> rfl

/-- The bytes of a character are read as that character. -/
theorem decodeFrom_encodeChar (offset : Nat) (c : Char) (bytes : List UInt8) :
    ∃ offset', decodeFrom offset (encodeChar c ++ bytes) =
      (decodeFrom offset' bytes).map (c :: ·) := by
  have hvalid : c.toNat < 0xD800 ∨ 0xDFFF < c.toNat ∧ c.toNat < 0x110000 := c.valid
  conv in c :: _ => rw [← Char.ofNat_toNat c]
  unfold encodeChar
  generalize c.toNat = n at hvalid ⊢
  by_cases h1 : n < 0x80
  · rw [if_pos h1]
    exact ⟨_, decodeFrom_ascii offset h1 bytes⟩
  · rw [if_neg h1]
    by_cases h2 : n < 0x800
    · simp only [if_pos h2, List.cons_append, List.nil_append]
      refine ⟨_, decodeFrom_lead offset (by omega) (by omega) (lead?_two (by omega) h2) ?_⟩
      have hvalue : n / 0x40 * 0x40 + (0x80 + n % 0x40 - 0x80) = n := by omega
      dsimp only
      rw [readTail_cons (by omega) (by omega) (by omega), readTail, hvalue]
    · rw [if_neg h2]
      by_cases h3 : n < 0x10000
      · simp only [if_pos h3, List.cons_append, List.nil_append]
        obtain ⟨low, high, hlead, hlow, hhigh⟩ := lead?_three (n := n) (by omega) h3 (by omega)
        refine ⟨_, decodeFrom_lead offset (by omega) (by omega) hlead ?_⟩
        have hvalue : (n / 0x1000 * 0x40 + (0x80 + n / 0x40 % 0x40 - 0x80)) * 0x40 +
            (0x80 + n % 0x40 - 0x80) = n := by omega
        dsimp only
        rw [readTail_cons (by omega) hlow hhigh, readTail_cons (by omega) (by omega) (by omega),
          readTail, hvalue]
      · simp only [if_neg h3, List.cons_append, List.nil_append]
        obtain ⟨low, high, hlead, hlow, hhigh⟩ := lead?_four (n := n) (by omega) (by omega)
        refine ⟨_, decodeFrom_lead offset (by omega) (by omega) hlead ?_⟩
        have hvalue : ((n / 0x40000 * 0x40 + (0x80 + n / 0x1000 % 0x40 - 0x80)) * 0x40 +
            (0x80 + n / 0x40 % 0x40 - 0x80)) * 0x40 + (0x80 + n % 0x40 - 0x80) = n := by omega
        dsimp only
        rw [readTail_cons (by omega) hlow hhigh, readTail_cons (by omega) (by omega) (by omega),
          readTail_cons (by omega) (by omega) (by omega), readTail, hvalue]

/-! ## Texts -/

theorem encode_cons (c : Char) (cs : List Char) : encode (c :: cs) = encodeChar c ++ encode cs :=
  rfl

theorem length_encodeChar_le (c : Char) : (encodeChar c).length ≤ 4 := by
  unfold encodeChar
  dsimp only
  split_ifs <;> simp

theorem length_encode_le (cs : List Char) : (encode cs).length ≤ 4 * cs.length := by
  induction cs with
  | nil => exact Nat.le_refl 0
  | cons c cs ih =>
    have := length_encodeChar_le c
    rw [encode_cons, List.length_append, List.length_cons]
    omega

theorem decodeFrom_encode (offset : Nat) (cs : List Char) :
    decodeFrom offset (encode cs) = .ok cs := by
  induction cs generalizing offset with
  | nil => simp [encode, decodeFrom]
  | cons c cs ih =>
    obtain ⟨offset', hread⟩ := decodeFrom_encodeChar offset c (encode cs)
    rw [encode_cons, hread, ih offset']
    rfl

/-- The bytes of a text are read as that text. -/
theorem decode_encode (cs : List Char) : decode (encode cs) = .ok cs :=
  decodeFrom_encode 0 cs

/-! ## Bytes that are read -/

/-- A continuation byte that is read lies within its bounds. -/
theorem exists_of_readTail {count low high bits accepted n : Nat} {bytes rest : List UInt8}
    (h : readTail (count + 1) low high bits accepted bytes = .ok (n, rest)) :
    ∃ b more, bytes = b :: more ∧ low ≤ b.toNat ∧ b.toNat ≤ high ∧
      readTail count 0x80 0xBF (bits * 0x40 + (b.toNat - 0x80)) (accepted + 1) more =
        .ok (n, rest) := by
  cases bytes with
  | nil => cases h
  | cons b more =>
    rw [readTail] at h
    by_cases hbounds : low ≤ b.toNat ∧ b.toNat ≤ high
    · rw [if_pos hbounds] at h
      exact ⟨b, more, rfl, hbounds.1, hbounds.2, h⟩
    · rw [if_neg hbounds] at h
      cases h

/-- What a first byte announces: one, two or three bytes to follow, with the bounds that keep the
character from needing fewer, from being a surrogate and from lying beyond the last code point. -/
theorem cases_of_lead? {b : Nat} {lead : Lead} (h : lead? b = some lead) :
    (lead.tail = 1 ∧ 0xC2 ≤ b ∧ b ≤ 0xDF ∧ lead.bits = b - 0xC0 ∧
        lead.low = 0x80 ∧ lead.high = 0xBF) ∨
      (lead.tail = 2 ∧ 0xE0 ≤ b ∧ b ≤ 0xEF ∧ lead.bits = b - 0xE0 ∧
        0x80 ≤ lead.low ∧ lead.high ≤ 0xBF ∧ (b = 0xE0 → lead.low = 0xA0) ∧
        (b = 0xED → lead.high = 0x9F)) ∨
      (lead.tail = 3 ∧ 0xF0 ≤ b ∧ b ≤ 0xF4 ∧ lead.bits = b - 0xF0 ∧
        0x80 ≤ lead.low ∧ lead.high ≤ 0xBF ∧ (b = 0xF0 → lead.low = 0x90) ∧
        (b = 0xF4 → lead.high = 0x8F)) := by
  unfold lead? at h
  split_ifs at h <;> cases h <;> dsimp only <;> omega

theorem toNat_ofNat {n : Nat} (h : n < 0xD800 ∨ 0xDFFF < n ∧ n < 0x110000) :
    (Char.ofNat n).toNat = n := by
  rw [Char.toNat_ofNat, if_pos h]

theorem ofNat_eq {b : UInt8} {n : Nat} (h : n = b.toNat) : UInt8.ofNat n = b := by
  rw [h, UInt8.ofNat_toNat]

/-- A first byte and the continuation bytes that are read after it are the bytes of the character
that they make up. -/
theorem encodeChar_of_readTail {b : UInt8} {lead : Lead} {n : Nat} {bytes rest : List UInt8}
    (hlead : lead? b.toNat = some lead)
    (htail : readTail lead.tail lead.low lead.high lead.bits 1 bytes = .ok (n, rest)) :
    b :: bytes = encodeChar (Char.ofNat n) ++ rest := by
  -- A first byte fixes how many bytes follow, and its bounds on the second leave one spelling.
  rcases cases_of_lead? hlead with ⟨hcount, hlow, hhigh, hbits, hfirst, hlast⟩ |
    ⟨hcount, hlow, hhigh, hbits, hfirst, hlast, hE0, hED⟩ |
    ⟨hcount, hlow, hhigh, hbits, hfirst, hlast, hF0, hF4⟩
  · rw [hcount] at htail
    obtain ⟨c, more, rfl, hc, hc', htail⟩ := exists_of_readTail htail
    simp only [readTail, Except.ok.injEq, Prod.mk.injEq] at htail
    obtain ⟨hn, rfl⟩ := htail
    have hvalue : (Char.ofNat n).toNat = n := toNat_ofNat (by omega)
    simp only [encodeChar, hvalue]
    rw [if_neg (by omega), if_pos (by omega), ofNat_eq (b := b) (by omega),
      ofNat_eq (b := c) (by omega)]
    rfl
  · rw [hcount] at htail
    obtain ⟨c, more, rfl, hc, hc', htail⟩ := exists_of_readTail htail
    obtain ⟨d, more, rfl, hd, hd', htail⟩ := exists_of_readTail htail
    simp only [readTail, Except.ok.injEq, Prod.mk.injEq] at htail
    obtain ⟨hn, rfl⟩ := htail
    have hvalue : (Char.ofNat n).toNat = n := toNat_ofNat (by omega)
    simp only [encodeChar, hvalue]
    rw [if_neg (by omega), if_neg (by omega), if_pos (by omega), ofNat_eq (b := b) (by omega),
      ofNat_eq (b := c) (by omega), ofNat_eq (b := d) (by omega)]
    rfl
  · rw [hcount] at htail
    obtain ⟨c, more, rfl, hc, hc', htail⟩ := exists_of_readTail htail
    obtain ⟨d, more, rfl, hd, hd', htail⟩ := exists_of_readTail htail
    obtain ⟨e, more, rfl, he, he', htail⟩ := exists_of_readTail htail
    simp only [readTail, Except.ok.injEq, Prod.mk.injEq] at htail
    obtain ⟨hn, rfl⟩ := htail
    have hvalue : (Char.ofNat n).toNat = n := toNat_ofNat (by omega)
    simp only [encodeChar, hvalue]
    rw [if_neg (by omega), if_neg (by omega), if_neg (by omega), ofNat_eq (b := b) (by omega),
      ofNat_eq (b := c) (by omega), ofNat_eq (b := d) (by omega), ofNat_eq (b := e) (by omega)]
    rfl

theorem exists_of_cons {read : Except Fault (List Char)} {c : Char} {cs : List Char}
    (h : (do return c :: (← read)) = .ok cs) : ∃ tail, read = .ok tail ∧ cs = c :: tail := by
  cases read with
  | error fault => cases h
  | ok tail =>
    cases h
    exact ⟨tail, rfl, rfl⟩

theorem encode_of_decodeFrom {offset : Nat} {bytes : List UInt8} {cs : List Char}
    (h : decodeFrom offset bytes = .ok cs) : encode cs = bytes := by
  fun_induction decodeFrom offset bytes generalizing cs with
  | case1 offset =>
    cases h
    rfl
  | case2 offset b rest hascii ih =>
    obtain ⟨tail, htail, rfl⟩ := exists_of_cons h
    have hvalue : (Char.ofNat b.toNat).toNat = b.toNat := toNat_ofNat (by omega)
    have hchar : encodeChar (Char.ofNat b.toNat) = [b] := by
      simp only [encodeChar, hvalue, if_pos hascii, UInt8.ofNat_toNat]
    rw [encode_cons, hchar, ih htail]
    rfl
  | case3 offset b rest hascii hlead => cases h
  | case4 offset b rest hascii lead hlead accepted htail => cases h
  | case5 offset b rest hascii lead hlead htail => cases h
  | case6 offset b rest hascii lead hlead n rest' htail ih =>
    obtain ⟨tail, hrest, rfl⟩ := exists_of_cons h
    rw [encode_cons, ih hrest]
    exact (encodeChar_of_readTail hlead htail).symm

/-- Bytes that are read as a text are the bytes of that text. -/
theorem encode_of_decode {bytes : List UInt8} {cs : List Char} (h : decode bytes = .ok cs) :
    encode cs = bytes :=
  encode_of_decodeFrom h

end Observatory.Text.Utf8
