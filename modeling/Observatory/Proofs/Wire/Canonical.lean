import Observatory.Proofs.Wire.Event

/-!
# One spelling for every event

What a reader takes a value from is what the value is written as. Numbers, tags, truth values,
texts and lists have one spelling each, so an event has one for every spelling of its time.
-/

namespace Observatory.Wire

variable {α : Type}

/-- Bytes from which the reader takes a value begin with what the value is written as, and the
value is read from that alone. -/
def Canonical (read : Reader α) (encode : α → List UInt8) : Prop :=
  ∀ ⦃bytes a rest⦄, read bytes = .ok (a, rest) →
    bytes = encode a ++ rest ∧ Reads read (encode a) a

/-! ## Numbers and tags -/

theorem ofLittleEndian_lt (bytes : List UInt8) :
    ofLittleEndian bytes < Nat.pow 256 bytes.length := by
  induction bytes with
  | nil => exact Nat.one_pos
  | cons b bytes ih =>
    have hb := b.toNat_lt
    have hpow : Nat.pow 256 (b :: bytes).length = Nat.pow 256 bytes.length * 256 := rfl
    rw [hpow, ofLittleEndian]
    omega

theorem littleEndian_ofLittleEndian (bytes : List UInt8) :
    littleEndian bytes.length (ofLittleEndian bytes) = bytes := by
  induction bytes with
  | nil => rfl
  | cons b bytes ih =>
    have hb := b.toNat_lt
    have hlow : (b.toNat + 256 * ofLittleEndian bytes) % 256 = b.toNat := by omega
    have hhigh : (b.toNat + 256 * ofLittleEndian bytes) / 256 = ofLittleEndian bytes := by omega
    rw [List.length_cons, littleEndian, ofLittleEndian, hlow, hhigh, ih, UInt8.ofNat_toNat]

theorem lt_of_readNumber {width n : Nat} {bytes rest : List UInt8}
    (h : readNumber width bytes = .ok (n, rest)) : n < Nat.pow 256 width := by
  unfold readNumber at h
  by_cases hshort : bytes.length < width
  · rw [if_pos hshort] at h
    cases h
  · rw [if_neg hshort] at h
    cases h
    have hlt := ofLittleEndian_lt (bytes.take width)
    rwa [List.length_take, Nat.min_eq_left (Nat.le_of_not_lt hshort)] at hlt

theorem canonical_number (width : Nat) : Canonical (readNumber width) (littleEndian width) := by
  intro bytes n rest h
  refine ⟨?_, reads_number (lt_of_readNumber h)⟩
  unfold readNumber at h
  by_cases hshort : bytes.length < width
  · rw [if_pos hshort] at h
    cases h
  · rw [if_neg hshort] at h
    cases h
    have hback := littleEndian_ofLittleEndian (bytes.take width)
    rw [List.length_take, Nat.min_eq_left (Nat.le_of_not_lt hshort)] at hback
    rw [hback, List.take_append_drop]

theorem exists_word {n : Nat} {bytes rest : List UInt8}
    (h : readNumber 8 bytes = .ok (n, rest)) : ∃ word : UInt64, word.toNat = n :=
  ⟨UInt64.ofNat n, UInt64.toNat_ofNat_of_lt' (lt_of_readNumber h)⟩

theorem canonical_tag {alternatives : List α} {rank : α → Nat}
    (hrank : ∀ tag a, alternatives[tag]? = some a → rank a = tag) :
    Canonical (readTag alternatives) fun a => littleEndian 4 (rank a) := by
  intro bytes a rest hread
  obtain ⟨tag, left, hnumber, h⟩ := exists_of_bind hread
  obtain ⟨rfl, hreads⟩ := canonical_number 4 hnumber
  cases hnamed : alternatives[tag]? with
  | none =>
    rw [hnamed] at h
    cases h
  | some named =>
    rw [hnamed] at h
    cases h
    obtain rfl := hrank tag a hnamed
    exact ⟨rfl, hreads.tag hnamed⟩

theorem canonical_bool : Canonical readBool fun b => littleEndian 1 b.toNat := by
  intro bytes b rest hread
  obtain ⟨byte, left, hnumber, h⟩ := exists_of_bind hread
  obtain ⟨rfl, -⟩ := canonical_number 1 hnumber
  refine ⟨?_, reads_bool b⟩
  by_cases hfalse : byte = 0
  · rw [if_pos hfalse] at h
    cases h
    rw [hfalse]
    rfl
  · rw [if_neg hfalse] at h
    by_cases htrue : byte = 1
    · rw [if_pos htrue] at h
      cases h
      rw [htrue]
      rfl
    · rw [if_neg htrue] at h
      cases h

/-! ## Texts and lists -/

theorem canonical_text : Canonical readText encodeText := by
  intro bytes s rest hread
  obtain ⟨size, left, hnumber, hnext⟩ := exists_of_bind hread
  obtain ⟨taken, left', hsized, h⟩ := exists_of_bind hnext
  obtain ⟨rfl, hreads⟩ := canonical_number 8 hnumber
  unfold readSized at hsized
  by_cases hshort : left.length < size
  · rw [if_pos hshort] at hsized
    cases hsized
  · rw [if_neg hshort] at hsized
    cases hsized
    cases hdecode : Text.Utf8.decode (left.take size) with
    | error fault =>
      rw [hdecode] at h
      cases h
    | ok cs =>
      rw [hdecode] at h
      cases h
      have hencode : Text.Utf8.encode (String.ofList cs).toList = left.take size := by
        rw [String.toList_ofList]
        exact Text.Utf8.encode_of_decode hdecode
      have hsize : (Text.Utf8.encode (String.ofList cs).toList).length = size := by
        rw [hencode, List.length_take]
        omega
      -- The size that was declared is the one that would be written.
      rw [← hsize] at hreads
      refine ⟨?_, Reads.text hreads⟩
      rw [encodeText]
      rw [hsize, hencode, List.append_assoc, List.take_append_drop]

theorem canonical_many {read : Reader α} {encode : α → List UInt8}
    (hread : Canonical read encode) {count : Nat} {bytes rest : List UInt8} {xs : List α}
    (hmany : readMany read count bytes = .ok (xs, rest)) :
    xs.length = count ∧ bytes = xs.flatMap encode ++ rest ∧
      ∀ x ∈ xs, Reads read (encode x) x := by
  induction count generalizing bytes xs with
  | zero =>
    cases hmany
    exact ⟨rfl, rfl, fun x hx => by cases hx⟩
  | succ count ih =>
    obtain ⟨x, left, hx, hnext⟩ := exists_of_bind hmany
    obtain ⟨tail, left', htail, h⟩ := exists_of_bind hnext
    cases h
    obtain ⟨rfl, hreads⟩ := hread hx
    obtain ⟨hcount, rfl, hall⟩ := ih htail
    refine ⟨congrArg (· + 1) hcount, ?_, ?_⟩
    · rw [List.flatMap_cons, List.append_assoc]
    · intro y hy
      rcases List.mem_cons.1 hy with rfl | hy
      · exact hreads
      · exact hall y hy

theorem canonical_list {read : Reader α} {encode : α → List UInt8}
    (hread : Canonical read encode) : Canonical (readList read) (encodeList encode) := by
  intro bytes xs rest hlist
  obtain ⟨count, left, hnumber, hmany⟩ := exists_of_bind hlist
  obtain ⟨rfl, hreads⟩ := canonical_number 8 hnumber
  obtain ⟨rfl, rfl, hall⟩ := canonical_many hread hmany
  refine ⟨?_, hreads.bind (reads_many hall)⟩
  rw [encodeList, List.append_assoc]

/-! ## The parts of an event -/

theorem encodeKind_eq (kind : EventKind) : encodeKind kind = littleEndian 4 kind.ctorIdx := by
  cases kind <;> rfl

theorem canonical_kind : Canonical readKind encodeKind := by
  rw [funext encodeKind_eq]
  refine canonical_tag fun tag kind h => ?_
  match tag, h with
  | 0, h => cases h; rfl
  | 1, h => cases h; rfl

theorem canonical_source : Canonical readSource encodeSource := by
  intro bytes s rest hread
  obtain ⟨subsystem, left, htag, hnext⟩ := exists_of_bind hread
  obtain ⟨component, left', htext, h⟩ := exists_of_bind hnext
  cases h
  obtain ⟨rfl, hsubsystem⟩ := canonical_tag (fun _ _ => Subsystem.rank_of_ofRank?) htag
  obtain ⟨rfl, hcomponent⟩ := canonical_text htext
  exact ⟨(List.append_assoc _ _ _).symm, hsubsystem.bind hcomponent.map⟩

theorem canonical_valueType :
    Canonical (readTag [ValueType.bool, .int, .double, .text]) fun type =>
      littleEndian 4 type.ctorIdx := by
  refine canonical_tag fun tag type h => ?_
  match tag, h with
  | 0, h => cases h; rfl
  | 1, h => cases h; rfl
  | 2, h => cases h; rfl
  | 3, h => cases h; rfl

theorem canonical_value : Canonical readValue encodeValue := by
  intro bytes v rest hread
  obtain ⟨type, left, htype, hnext⟩ := exists_of_bind hread
  obtain ⟨rfl, hreads⟩ := canonical_valueType htype
  cases type with
  | bool =>
    obtain ⟨b, left', hbool, h⟩ := exists_of_bind hnext
    cases h
    obtain ⟨rfl, hb⟩ := canonical_bool hbool
    exact ⟨(List.append_assoc _ _ _).symm, hreads.bind hb.map⟩
  | int =>
    obtain ⟨n, left', hnumber, h⟩ := exists_of_bind hnext
    cases h
    -- Eight bytes are a word, so no number is cut off when it is stored.
    obtain ⟨word, rfl⟩ := exists_word hnumber
    obtain ⟨rfl, hword⟩ := canonical_number 8 hnumber
    have hbytes : encodeValue (.int (UInt64.ofNat word.toNat).toInt64) =
        littleEndian 4 ValueType.int.ctorIdx ++ littleEndian 8 word.toNat := by
      rw [encodeValue, UInt64.ofNat_toNat, UInt64.toUInt64_toInt64]
      rfl
    rw [hbytes]
    exact ⟨(List.append_assoc _ _ _).symm, hreads.bind hword.map⟩
  | double =>
    obtain ⟨n, left', hnumber, h⟩ := exists_of_bind hnext
    cases h
    obtain ⟨word, rfl⟩ := exists_word hnumber
    obtain ⟨rfl, hword⟩ := canonical_number 8 hnumber
    have hbytes : encodeValue (.double ⟨UInt64.ofNat word.toNat⟩) =
        littleEndian 4 ValueType.double.ctorIdx ++ littleEndian 8 word.toNat := by
      rw [encodeValue, UInt64.ofNat_toNat]
      rfl
    rw [hbytes]
    exact ⟨(List.append_assoc _ _ _).symm, hreads.bind hword.map⟩
  | text =>
    obtain ⟨s, left', htext, h⟩ := exists_of_bind hnext
    cases h
    obtain ⟨rfl, hs⟩ := canonical_text htext
    exact ⟨(List.append_assoc _ _ _).symm, hreads.bind hs.map⟩

theorem canonical_parameter : Canonical readParameter encodeParameter := by
  intro bytes p rest hread
  obtain ⟨name, left, hname, hnext⟩ := exists_of_bind hread
  obtain ⟨values, left', hvalues, h⟩ := exists_of_bind hnext
  cases h
  obtain ⟨rfl, hreads⟩ := canonical_text hname
  obtain ⟨rfl, hlist⟩ := canonical_list canonical_value hvalues
  exact ⟨(List.append_assoc _ _ _).symm, hreads.bind hlist.map⟩

theorem exists_of_readTime {bytes rest : List UInt8} {t : UtcTime}
    (hread : readTime bytes = .ok (t, rest)) :
    ∃ text, bytes = encodeText text ++ rest ∧ UtcTime.parse text = .ok t ∧
      Reads readTime (encodeText text) t := by
  obtain ⟨text, left, htext, h⟩ := exists_of_bind hread
  obtain ⟨rfl, hreads⟩ := canonical_text htext
  cases hparse : UtcTime.parse text with
  | error error =>
    rw [hparse] at h
    cases h
  | ok time =>
    rw [hparse] at h
    cases h
    exact ⟨text, rfl, hparse, Reads.time hreads hparse⟩

/-! ## Events -/

/-- An event that is read stands there as it is written, but for the spelling of its time, and is
read again from what it is written as. -/
theorem exists_of_readEvent {bytes rest : List UInt8} {e : Event}
    (h : readEvent bytes = .ok (e, rest)) :
    ∃ text, bytes = e.spelled text ++ rest ∧ UtcTime.parse text = .ok e.time ∧
      Reads readEvent (e.spelled text) e ∧ Reads readEvent e.toBytes e := by
  obtain ⟨kind, left, hkind, h⟩ := exists_of_bind h
  obtain ⟨id, left, hid, h⟩ := exists_of_bind h
  obtain ⟨source, left, hsource, h⟩ := exists_of_bind h
  obtain ⟨name, left, hname, h⟩ := exists_of_bind h
  obtain ⟨time, left, htime, h⟩ := exists_of_bind h
  obtain ⟨params, left, hparams, h⟩ := exists_of_bind h
  cases h
  obtain ⟨rfl, -⟩ := canonical_kind hkind
  obtain ⟨rfl, readsId⟩ := canonical_text hid
  obtain ⟨rfl, readsSource⟩ := canonical_source hsource
  obtain ⟨rfl, readsName⟩ := canonical_text hname
  -- The time alone has many spellings, and the reader takes any of them.
  obtain ⟨text, rfl, hparse, readsTime⟩ := exists_of_readTime htime
  obtain ⟨rfl, readsParams⟩ := canonical_list canonical_parameter hparams
  have hends := (UtcTime.parse_eq_ok_iff.1 hparse).leapEndsMinute
  have readsWritten := reads_time time
  rw [hends.reread] at readsWritten
  refine ⟨text, ?_, hparse, reads_spelled readsId readsSource readsName readsTime readsParams,
    reads_spelled readsId readsSource readsName readsWritten readsParams⟩
  simp only [Event.spelled, List.append_assoc]

end Observatory.Wire
