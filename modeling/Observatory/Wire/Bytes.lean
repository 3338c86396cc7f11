import Observatory.Text.Utf8
import Observatory.Time.Rfc3339.Reader

/-!
# Bytes of basic values

Numbers take a fixed count of bytes, least significant first. A text is preceded by the count of
its bytes, a list by the count of its elements, both in eight bytes. A truth value is one byte.

A reader takes a value from the front of its input and gives back the rest. It never looks past
the end of the input, whatever counts the input declares.
-/

namespace Observatory.Wire

inductive DecodeError where
  | unexpectedEnd
  /-- A text is declared longer than the bytes that are left. -/
  | textTooLong
  /-- A tag names none of the `count` alternatives. -/
  | unknownTag (tag count : Nat)
  | badBool (byte : Nat)
  | badText (fault : Text.Utf8.Fault)
  | badTime (error : Time.TimeError)
  deriving DecidableEq, Repr

def DecodeError.message (error : DecodeError) : String :=
  "Failed to decode event: " ++
    match error with
    | .unexpectedEnd => "io error: unexpected end of file"
    | .textTooLong => "io error: "
    | .unknownTag tag count =>
      "invalid value: integer `" ++ toString tag ++
        "`, expected variant index 0 <= i < " ++ toString count
    | .badBool byte => s!"invalid u8 while decoding bool, expected 0 or 1, found {byte}"
    | .badText fault => s!"string is not valid utf8: {fault.message}"
    | .badTime error => error.message

/-! ## Writing -/

def littleEndian : (width n : Nat) → List UInt8
  | 0, _ => []
  | width + 1, n => UInt8.ofNat (n % 256) :: littleEndian width (n / 256)

def encodeText (s : String) : List UInt8 :=
  let bytes := Text.Utf8.encode s.toList
  littleEndian 8 bytes.length ++ bytes

def encodeList {α : Type} (encode : α → List UInt8) (xs : List α) : List UInt8 :=
  littleEndian 8 xs.length ++ xs.flatMap encode

/-! ## Reading -/

/-- Takes a value from the front of the bytes. -/
abbrev Reader (α : Type) := StateT (List UInt8) (Except DecodeError) α

def ofLittleEndian : List UInt8 → Nat
  | [] => 0
  | b :: bytes => b.toNat + 256 * ofLittleEndian bytes

def readNumber (width : Nat) : Reader Nat := fun bytes =>
  if bytes.length < width then .error .unexpectedEnd
  else .ok (ofLittleEndian (bytes.take width), bytes.drop width)

/-- Takes a tag of four bytes and gives the alternative that it names. -/
def readTag {α : Type} (alternatives : List α) : Reader α := do
  let tag ← readNumber 4
  match alternatives[tag]? with
  | some a => return a
  | none => throw (.unknownTag tag alternatives.length)

def readBool : Reader Bool := do
  let byte ← readNumber 1
  if byte = 0 then return false
  else if byte = 1 then return true
  else throw (.badBool byte)

def readSized (size : Nat) : Reader (List UInt8) := fun bytes =>
  if bytes.length < size then .error .textTooLong
  else .ok (bytes.take size, bytes.drop size)

def readText : Reader String := do
  let bytes ← readSized (← readNumber 8)
  match Text.Utf8.decode bytes with
  | .ok cs => return String.ofList cs
  | .error fault => throw (.badText fault)

def readMany {α : Type} (read : Reader α) : Nat → Reader (List α)
  | 0 => return []
  | count + 1 => do
    let x ← read
    return x :: (← readMany read count)

def readList {α : Type} (read : Reader α) : Reader (List α) := do
  readMany read (← readNumber 8)

theorem length_littleEndian (width n : Nat) : (littleEndian width n).length = width := by
  induction width generalizing n with
  | zero => rfl
  | succ width ih => simp [littleEndian, ih]

theorem ofLittleEndian_littleEndian {width n : Nat} (h : n < Nat.pow 256 width) :
    ofLittleEndian (littleEndian width n) = n := by
  induction width generalizing n with
  | zero => simp_all [littleEndian, ofLittleEndian]
  | succ width ih =>
    have hdiv : n / 256 < Nat.pow 256 width := by
      rw [Nat.div_lt_iff_lt_mul (by decide)]
      exact h
    simp only [littleEndian, ofLittleEndian, ih hdiv, UInt8.toNat_ofNat']
    omega

end Observatory.Wire
