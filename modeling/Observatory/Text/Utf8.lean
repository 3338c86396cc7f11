/-!
# UTF-8

Characters as byte sequences, and back. Reading names the first byte at which a text stops being
well formed, and tells a sequence that is wrong from one that the end of the text cuts short.
-/

namespace Observatory.Text.Utf8

inductive Fault where
  /-- The `length` bytes from `offset` on begin no character. -/
  | malformed (length offset : Nat)
  /-- The text ends inside the character that begins at `offset`. -/
  | truncated (offset : Nat)
  deriving DecidableEq, Repr

def Fault.message : Fault → String
  | .malformed length offset => s!"invalid utf-8 sequence of {length} bytes from index {offset}"
  | .truncated offset => s!"incomplete utf-8 byte sequence from index {offset}"

def encodeChar (c : Char) : List UInt8 :=
  let n := c.toNat
  if n < 0x80 then [UInt8.ofNat n]
  else if n < 0x800 then [UInt8.ofNat (0xC0 + n / 0x40), UInt8.ofNat (0x80 + n % 0x40)]
  else if n < 0x10000 then
    [UInt8.ofNat (0xE0 + n / 0x1000), UInt8.ofNat (0x80 + n / 0x40 % 0x40),
     UInt8.ofNat (0x80 + n % 0x40)]
  else
    [UInt8.ofNat (0xF0 + n / 0x40000), UInt8.ofNat (0x80 + n / 0x1000 % 0x40),
     UInt8.ofNat (0x80 + n / 0x40 % 0x40), UInt8.ofNat (0x80 + n % 0x40)]

def encode (cs : List Char) : List UInt8 :=
  cs.flatMap encodeChar

structure Lead where
  tail : Nat
  /-- The least value of the byte after it. -/
  low : Nat
  high : Nat
  bits : Nat
  deriving DecidableEq, Repr

/-- Reads a first byte from 0x80 on. The narrower bounds keep out overlong spellings, surrogates
and everything beyond the last code point. -/
def lead? (b : Nat) : Option Lead :=
  if 0xC2 ≤ b ∧ b ≤ 0xDF then some ⟨1, 0x80, 0xBF, b - 0xC0⟩
  else if b = 0xE0 then some ⟨2, 0xA0, 0xBF, 0⟩
  else if b = 0xED then some ⟨2, 0x80, 0x9F, 0xD⟩
  else if 0xE1 ≤ b ∧ b ≤ 0xEF then some ⟨2, 0x80, 0xBF, b - 0xE0⟩
  else if b = 0xF0 then some ⟨3, 0x90, 0xBF, 0⟩
  else if 0xF1 ≤ b ∧ b ≤ 0xF3 then some ⟨3, 0x80, 0xBF, b - 0xF0⟩
  else if b = 0xF4 then some ⟨3, 0x80, 0x8F, 4⟩
  else none

inductive TailFault where
  /-- The byte after the first `accepted` bytes does not belong there. -/
  | wrong (accepted : Nat)
  | missing
  deriving DecidableEq, Repr

/-- Reads `count` bytes that continue a character, the first of them between `low` and `high`.
`accepted` bytes of the character are read already and make up `bits`. -/
def readTail : (count low high bits accepted : Nat) → List UInt8 →
    Except TailFault (Nat × List UInt8)
  | 0, _, _, bits, _, bytes => .ok (bits, bytes)
  | _ + 1, _, _, _, _, [] => .error .missing
  | count + 1, low, high, bits, accepted, b :: bytes =>
    if low ≤ b.toNat ∧ b.toNat ≤ high then
      readTail count 0x80 0xBF (bits * 0x40 + (b.toNat - 0x80)) (accepted + 1) bytes
    else .error (.wrong accepted)

/-- What is left after the continuation bytes is no longer than what was there. -/
theorem length_le_of_readTail {count low high bits accepted n : Nat} {bytes rest : List UInt8}
    (h : readTail count low high bits accepted bytes = .ok (n, rest)) :
    rest.length ≤ bytes.length := by
  induction count generalizing low high bits accepted bytes with
  | zero =>
    simp only [readTail, Except.ok.injEq, Prod.mk.injEq] at h
    simp [h.2]
  | succ count ih =>
    cases bytes with
    | nil => simp [readTail] at h
    | cons b bytes =>
      simp only [readTail] at h
      split at h
      · have := ih h
        simp only [List.length_cons]
        omega
      · cases h

def decodeFrom (offset : Nat) (bytes : List UInt8) : Except Fault (List Char) :=
  match bytes with
  | [] => .ok []
  | b :: rest =>
    if b.toNat < 0x80 then
      return Char.ofNat b.toNat :: (← decodeFrom (offset + 1) rest)
    else
      match lead? b.toNat with
      | none => .error (.malformed 1 offset)
      | some lead =>
        match _h : readTail lead.tail lead.low lead.high lead.bits 1 rest with
        | .error (.wrong accepted) => .error (.malformed accepted offset)
        | .error .missing => .error (.truncated offset)
        | .ok (n, rest') =>
          return Char.ofNat n :: (← decodeFrom (offset + 1 + lead.tail) rest')
termination_by bytes.length
decreasing_by
  · simp
  · have := length_le_of_readTail _h
    simp only [List.length_cons]
    omega

/-- Reads bytes as a text, or tells where they stop being one. -/
def decode (bytes : List UInt8) : Except Fault (List Char) :=
  decodeFrom 0 bytes

end Observatory.Text.Utf8
