import Observatory.Proofs.Text.Utf8
import Observatory.Wire.Bytes

/-!
# Self-delimiting readers

Two properties of readers carry over from the parts of a format to the whole. `Reads` says that a
reader takes a value from its bytes whatever follows them, `Local` that what a reader takes from
some bytes it also takes from any continuation of them. Together they rule out that a strict prefix
of the bytes of a value is read at all.
-/

namespace Observatory.Wire

variable {α β : Type}

/-- The reader takes `a` from `bytes` and leaves what follows. -/
def Reads (read : Reader α) (bytes : List UInt8) (a : α) : Prop :=
  ∀ rest, read (bytes ++ rest) = .ok (a, rest)

/-- What the reader takes from some bytes it takes from all their continuations. -/
def Local (read : Reader α) : Prop :=
  ∀ bytes a rest more, read bytes = .ok (a, rest) → read (bytes ++ more) = .ok (a, rest ++ more)

theorem bind_apply (read : Reader α) (next : α → Reader β) (bytes : List UInt8) :
    (read >>= next) bytes = (read bytes) >>= fun taken => next taken.1 taken.2 := rfl

theorem exists_of_bind {read : Reader α} {next : α → Reader β} {bytes rest : List UInt8} {b : β}
    (h : (read >>= next) bytes = .ok (b, rest)) :
    ∃ a left, read bytes = .ok (a, left) ∧ next a left = .ok (b, rest) := by
  rw [bind_apply] at h
  cases htaken : read bytes with
  | error error =>
    rw [htaken] at h
    cases h
  | ok taken =>
    rw [htaken] at h
    exact ⟨taken.1, taken.2, rfl, h⟩

theorem Reads.pure (a : α) : Reads (pure a) [] a := by
  intro rest
  rfl

theorem Reads.bind {read : Reader α} {next : α → Reader β} {bytes more : List UInt8} {a : α} {b : β}
    (hread : Reads read bytes a) (hnext : Reads (next a) more b) :
    Reads (read >>= next) (bytes ++ more) b := by
  intro rest
  rw [bind_apply, List.append_assoc, hread]
  exact hnext rest

theorem Reads.map {read : Reader α} {f : α → β} {bytes : List UInt8} {a : α}
    (hread : Reads read bytes a) : Reads (read >>= fun a => Pure.pure (f a)) bytes (f a) := by
  have h : Reads (read >>= fun a => Pure.pure (f a)) (bytes ++ []) (f a) :=
    hread.bind (Reads.pure (f a))
  rwa [List.append_nil] at h

theorem Local.pure (a : α) : Local (pure a : Reader α) := by
  intro bytes a' rest more h
  cases h
  rfl

theorem Local.throw (error : DecodeError) : Local (throw error : Reader α) := by
  intro bytes a rest more h
  cases h

theorem Local.bind {read : Reader α} {next : α → Reader β} (hread : Local read)
    (hnext : ∀ a, Local (next a)) : Local (read >>= next) := by
  intro bytes b rest more h
  obtain ⟨a, left, htaken, h⟩ := exists_of_bind h
  rw [bind_apply, hread bytes a left more htaken]
  exact hnext a left b rest more h

/-- No strict prefix of the bytes of a value is read. -/
theorem Reads.error_of_prefix {read : Reader α} {bytes cut : List UInt8} {a : α}
    (hread : Reads read bytes a) (hlocal : Local read) (hstem : cut <+: bytes)
    (hne : cut ≠ bytes) : ∃ error, read cut = .error error := by
  obtain ⟨more, rfl⟩ := hstem
  cases hcut : read cut with
  | error error => exact ⟨error, rfl⟩
  | ok taken =>
    obtain ⟨a', rest⟩ := taken
    have hlong := hlocal cut a' rest more hcut
    have hwhole := hread []
    rw [List.append_nil, hlong] at hwhole
    simp only [Except.ok.injEq, Prod.mk.injEq, List.append_eq_nil_iff] at hwhole
    obtain ⟨_, _, rfl⟩ := hwhole
    exact absurd (List.append_nil cut).symm hne

/-! ## Numbers and tags -/

theorem reads_number {width n : Nat} (h : n < Nat.pow 256 width) :
    Reads (readNumber width) (littleEndian width n) n := by
  intro rest
  have hlength := length_littleEndian width n
  have hlong : ¬ (littleEndian width n ++ rest).length < width := by simp [hlength]
  rw [readNumber, if_neg hlong, List.take_left' hlength, List.drop_left' hlength,
    ofLittleEndian_littleEndian h]

theorem local_number (width : Nat) : Local (readNumber width) := by
  intro bytes n rest more h
  unfold readNumber at h ⊢
  by_cases hshort : bytes.length < width
  · rw [if_pos hshort] at h
    cases h
  · have hle : width ≤ bytes.length := Nat.le_of_not_lt hshort
    have hlong : ¬ (bytes ++ more).length < width := by
      rw [List.length_append]
      omega
    rw [if_neg hshort] at h
    rw [if_neg hlong, List.take_append_of_le_length hle, List.drop_append_of_le_length hle]
    cases h
    rfl

theorem Reads.tag {alternatives : List α} {tag : Nat} {a : α}
    (hnumber : Reads (readNumber 4) (littleEndian 4 tag) tag) (h : alternatives[tag]? = some a) :
    Reads (readTag alternatives) (littleEndian 4 tag) a := by
  rw [← List.append_nil (littleEndian 4 tag)]
  refine hnumber.bind ?_
  simp only [h]
  exact Reads.pure a

theorem reads_tag {alternatives : List α} {tag : Nat} {a : α} (hfits : tag < 256)
    (h : alternatives[tag]? = some a) : Reads (readTag alternatives) (littleEndian 4 tag) a :=
  Reads.tag (reads_number (Nat.lt_of_lt_of_le hfits (by decide))) h

theorem local_tag (alternatives : List α) : Local (readTag alternatives) := by
  refine (local_number 4).bind fun tag => ?_
  split
  · exact Local.pure _
  · exact Local.throw _

theorem reads_bool (b : Bool) : Reads readBool (littleEndian 1 b.toNat) b := by
  rw [← List.append_nil (littleEndian 1 b.toNat)]
  refine (reads_number (Nat.lt_of_lt_of_le b.toNat_lt (by decide))).bind ?_
  cases b with
  | false => exact Reads.pure false
  | true => exact Reads.pure true

theorem local_bool : Local readBool := by
  refine (local_number 1).bind fun byte => ?_
  split
  · exact Local.pure false
  · split
    · exact Local.pure true
    · exact Local.throw _

/-! ## Texts and lists -/

theorem local_sized (size : Nat) : Local (readSized size) := by
  intro bytes taken rest more h
  unfold readSized at h ⊢
  by_cases hshort : bytes.length < size
  · rw [if_pos hshort] at h
    cases h
  · have hle : size ≤ bytes.length := Nat.le_of_not_lt hshort
    have hlong : ¬ (bytes ++ more).length < size := by
      rw [List.length_append]
      omega
    rw [if_neg hshort] at h
    rw [if_neg hlong, List.take_append_of_le_length hle, List.drop_append_of_le_length hle]
    cases h
    rfl

theorem reads_sized (bytes : List UInt8) : Reads (readSized bytes.length) bytes bytes := by
  intro rest
  have hlong : ¬ (bytes ++ rest).length < bytes.length := by simp
  rw [readSized, if_neg hlong, List.take_left' rfl, List.drop_left' rfl]

theorem Reads.text {s : String} (hcount : Reads (readNumber 8)
      (littleEndian 8 (Text.Utf8.encode s.toList).length) (Text.Utf8.encode s.toList).length) :
    Reads readText (encodeText s) s := by
  have hbytes : encodeText s = littleEndian 8 (Text.Utf8.encode s.toList).length ++
      (Text.Utf8.encode s.toList ++ []) := by
    rw [List.append_nil, encodeText]
  rw [hbytes]
  refine hcount.bind ((reads_sized _).bind ?_)
  rw [Text.Utf8.decode_encode]
  simp only [String.ofList_toList]
  exact Reads.pure s

/-- A text of fewer than 2⁶⁴ bytes is read back. -/
theorem reads_text {s : String} (h : (encodeText s).length < 2 ^ 64) :
    Reads readText (encodeText s) s := by
  rw [encodeText, List.length_append, length_littleEndian] at h
  exact Reads.text (reads_number (Nat.lt_of_le_of_lt (Nat.le_add_left _ _) h))

theorem local_text : Local readText := by
  refine (local_number 8).bind fun size => (local_sized size).bind fun bytes => ?_
  split
  · exact Local.pure _
  · exact Local.throw _

theorem reads_many {read : Reader α} {encode : α → List UInt8} {xs : List α}
    (hread : ∀ x ∈ xs, Reads read (encode x) x) :
    Reads (readMany read xs.length) (xs.flatMap encode) xs := by
  induction xs with
  | nil => exact Reads.pure []
  | cons x xs ih =>
    have hx := hread x List.mem_cons_self
    have hxs := ih fun y hy => hread y (List.mem_cons_of_mem x hy)
    rw [List.flatMap_cons]
    exact hx.bind hxs.map

theorem local_many {read : Reader α} (hread : Local read) (count : Nat) :
    Local (readMany read count) := by
  induction count with
  | zero => exact Local.pure []
  | succ count ih => exact hread.bind fun x => ih.bind fun xs => Local.pure (x :: xs)

theorem length_le_flatMap {encode : α → List UInt8} {x : α} {xs : List α} (hx : x ∈ xs) :
    (encode x).length ≤ (xs.flatMap encode).length := by
  induction xs with
  | nil => cases hx
  | cons y xs ih =>
    rw [List.flatMap_cons, List.length_append]
    rcases List.mem_cons.1 hx with rfl | hx
    · exact Nat.le_add_right _ _
    · exact Nat.le_trans (ih hx) (Nat.le_add_left _ _)

theorem count_le_flatMap {encode : α → List UInt8} (hpos : ∀ x, 0 < (encode x).length)
    (xs : List α) : xs.length ≤ (xs.flatMap encode).length := by
  induction xs with
  | nil => exact Nat.zero_le _
  | cons x xs ih =>
    have := hpos x
    rw [List.flatMap_cons, List.length_append, List.length_cons]
    omega

/-- A list whose bytes are fewer than 2⁶⁴ is read back if its elements are: its count fits eight
bytes because no element is without bytes. -/
theorem reads_list {read : Reader α} {encode : α → List UInt8} {xs : List α}
    (hpos : ∀ x, 0 < (encode x).length)
    (hread : ∀ x, (encode x).length < 2 ^ 64 → Reads read (encode x) x)
    (h : (encodeList encode xs).length < 2 ^ 64) :
    Reads (readList read) (encodeList encode xs) xs := by
  rw [encodeList, List.length_append, length_littleEndian] at h
  have hbytes : (xs.flatMap encode).length < 2 ^ 64 :=
    Nat.lt_of_le_of_lt (Nat.le_add_left _ _) h
  have hcount : xs.length < Nat.pow 256 8 := Nat.lt_of_le_of_lt (count_le_flatMap hpos xs) hbytes
  refine (reads_number hcount).bind (reads_many fun x hx => hread x ?_)
  exact Nat.lt_of_le_of_lt (length_le_flatMap hx) hbytes

theorem local_list {read : Reader α} (hread : Local read) : Local (readList read) :=
  (local_number 8).bind fun count => local_many hread count

end Observatory.Wire
