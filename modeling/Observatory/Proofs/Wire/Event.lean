import Observatory.Proofs.Time.Grammar
import Observatory.Proofs.Wire.Bytes
import Observatory.Wire.Event

/-!
# Events are self-delimiting

The bytes of an event are read back as that event, whatever follows them, and no strict prefix of
them is read as an event. So no event's bytes begin another's, and different events have different
bytes. All of this rests on the reader of each part, from the innermost parts outwards.

The time is the one part that its bytes may not tell from others: what is read back is the time that
its text names.
-/

namespace Observatory.Wire

theorem reads_kind (kind : EventKind) : Reads readKind (encodeKind kind) kind := by
  cases kind with
  | system => exact reads_tag (by decide) rfl
  | observe => exact reads_tag (by decide) rfl

theorem reads_source {s : Source} (h : (encodeText s.component).length < 2 ^ 64) :
    Reads readSource (encodeSource s) s := by
  have hrank : s.subsystem.rank < 256 := Nat.lt_of_lt_of_le s.subsystem.rank_lt (by decide)
  exact (reads_tag hrank s.subsystem.ofRank?_rank).bind (reads_text h).map

theorem local_source : Local readSource :=
  (local_tag Subsystem.all).bind fun _ => local_text.bind fun _ => Local.pure _

/-! ## Values -/

theorem reads_valueType (type : ValueType) :
    Reads (readTag [ValueType.bool, .int, .double, .text]) (littleEndian 4 type.ctorIdx) type := by
  cases type with
  | bool => exact reads_tag (by decide) rfl
  | int => exact reads_tag (by decide) rfl
  | double => exact reads_tag (by decide) rfl
  | text => exact reads_tag (by decide) rfl

theorem reads_word (n : UInt64) : Reads (readNumber 8) (littleEndian 8 n.toNat) n.toNat :=
  reads_number n.toNat_lt

theorem reads_value {v : Value} (h : (encodeValue v).length < 2 ^ 64) :
    Reads readValue (encodeValue v) v := by
  cases v with
  | bool b => exact (reads_valueType .bool).bind (reads_bool b).map
  | int n =>
    have hback : (UInt64.ofNat n.toUInt64.toNat).toInt64 = n := by
      rw [UInt64.ofNat_toNat, Int64.toInt64_toUInt64]
    have hread : Reads readValue (encodeValue (.int n))
        (.int (UInt64.ofNat n.toUInt64.toNat).toInt64) :=
      (reads_valueType .int).bind (reads_word n.toUInt64).map
    rwa [hback] at hread
  | double d =>
    have hread : Reads readValue (encodeValue (.double d)) (.double ⟨UInt64.ofNat d.bits.toNat⟩) :=
      (reads_valueType .double).bind (reads_word d.bits).map
    rwa [UInt64.ofNat_toNat] at hread
  | text s =>
    have htext : (encodeText s).length < 2 ^ 64 := by
      rw [encodeValue, List.length_append] at h
      omega
    exact (reads_valueType .text).bind (reads_text htext).map

theorem local_value : Local readValue := by
  refine (local_tag _).bind fun type => ?_
  cases type with
  | bool => exact local_bool.bind fun _ => Local.pure _
  | int => exact (local_number 8).bind fun _ => Local.pure _
  | double => exact (local_number 8).bind fun _ => Local.pure _
  | text => exact local_text.bind fun _ => Local.pure _

theorem length_encodeValue_pos (v : Value) : 0 < (encodeValue v).length := by
  cases v with
  | bool b => exact Nat.succ_pos _
  | int n => exact Nat.succ_pos _
  | double d => exact Nat.succ_pos _
  | text s => exact Nat.succ_pos _

/-! ## Parameters -/

theorem reads_parameter {p : Parameter} (h : (encodeParameter p).length < 2 ^ 64) :
    Reads readParameter (encodeParameter p) p := by
  rw [encodeParameter, List.length_append] at h
  have hname : (encodeText p.name).length < 2 ^ 64 := by omega
  have hvalues : (encodeList encodeValue p.values).length < 2 ^ 64 := by omega
  have hlist := reads_list length_encodeValue_pos (fun v => reads_value (v := v)) hvalues
  exact (reads_text hname).bind hlist.map

theorem local_parameter : Local readParameter :=
  local_text.bind fun _ => (local_list local_value).bind fun _ => Local.pure _

theorem length_encodeParameter_pos (p : Parameter) : 0 < (encodeParameter p).length :=
  Nat.succ_pos _

/-! ## Times -/

theorem length_encodeTime_lt (t : UtcTime) : (encodeTime t).length < 2 ^ 64 := by
  have hchars := t.length_text_le
  have hbytes := Text.Utf8.length_encode_le t.text.toList
  rw [encodeTime, encodeText, List.length_append, length_littleEndian]
  omega

theorem Reads.time {text : String} {t : UtcTime} (htext : Reads readText (encodeText text) text)
    (h : UtcTime.parse text = .ok t) : Reads readTime (encodeText text) t := by
  rw [← List.append_nil (encodeText text)]
  refine htext.bind ?_
  rw [h]
  exact Reads.pure t

theorem reads_time (t : UtcTime) : Reads readTime (encodeTime t) t.reread :=
  Reads.time (reads_text (length_encodeTime_lt t)) t.parse_text

theorem local_time : Local readTime := by
  refine local_text.bind fun text => ?_
  split
  · exact Local.pure _
  · exact Local.throw _

end Observatory.Wire

/-! ## Events -/

namespace Observatory.Event

/-- The bytes of an event with its time spelled as `text`. -/
def spelled (e : Event) (text : String) : List UInt8 :=
  Wire.encodeKind e.kind ++ Wire.encodeText e.id.text ++ Wire.encodeSource e.source ++
    Wire.encodeText e.name.text ++ Wire.encodeText text ++
    Wire.encodeList Wire.encodeParameter e.params.toList

theorem toBytes_eq_spelled (e : Event) : e.toBytes = e.spelled e.time.text :=
  rfl

/-- The event at the time that the text of its time names. -/
def reread (e : Event) : Event :=
  e.withTime e.time.reread

theorem reread_eq_self {e : Event} (h : e.time.LeapEndsMinute) : e.reread = e := by
  rw [reread, h.reread]
  rfl

end Observatory.Event

namespace Observatory.Wire

/-- An event is read from its parts, whatever the spelling of its time. -/
theorem reads_spelled {e : Event} {text : String}
    (hid : Reads readText (encodeText e.id.text) e.id.text)
    (hsource : Reads readSource (encodeSource e.source) e.source)
    (hname : Reads readText (encodeText e.name.text) e.name.text)
    (htime : Reads readTime (encodeText text) e.time)
    (hparams : Reads (readList readParameter) (encodeList encodeParameter e.params.toList)
      e.params.toList) : Reads readEvent (e.spelled text) e := by
  unfold Event.spelled
  simp only [List.append_assoc]
  exact (reads_kind e.kind).bind <| hid.bind <| hsource.bind <| hname.bind <|
    htime.bind hparams.map

theorem reads_spelled_of_length {e : Event} {text : String}
    (hparse : UtcTime.parse text = .ok e.time) (h : (e.spelled text).length < 2 ^ 64) :
    Reads readEvent (e.spelled text) e := by
  unfold Event.spelled at h
  simp only [List.length_append, encodeSource] at h
  have hid : (encodeText e.id.text).length < 2 ^ 64 := by omega
  have hsource : (encodeText e.source.component).length < 2 ^ 64 := by omega
  have hname : (encodeText e.name.text).length < 2 ^ 64 := by omega
  have htime : (encodeText text).length < 2 ^ 64 := by omega
  have hparams : (encodeList encodeParameter e.params.toList).length < 2 ^ 64 := by omega
  have hlist := reads_list length_encodeParameter_pos (fun p => reads_parameter (p := p)) hparams
  exact reads_spelled (reads_text hid) (reads_source hsource) (reads_text hname)
    (Reads.time (reads_text htime) hparse) hlist

theorem reads_event {e : Event} (h : e.toBytes.length < 2 ^ 64) :
    Reads readEvent e.toBytes e.reread :=
  reads_spelled_of_length (e := e.reread) e.time.parse_text h

theorem local_event : Local readEvent :=
  (local_tag kinds).bind fun _ => local_text.bind fun _ => local_source.bind fun _ =>
    local_text.bind fun _ => local_time.bind fun _ => (local_list local_parameter).bind fun _ =>
      Local.pure _

end Observatory.Wire

namespace Observatory.Event

theorem ofBytes_of_ok {bytes rest : List UInt8} {e : Event}
    (h : Wire.readEvent bytes = .ok (e, rest)) : ofBytes bytes = .ok e := by
  unfold ofBytes StateT.run
  rw [h]
  rfl

theorem ofBytes_of_error {bytes : List UInt8} {error : Wire.DecodeError}
    (h : Wire.readEvent bytes = .error error) : ofBytes bytes = .error error := by
  unfold ofBytes StateT.run
  rw [h]
  rfl

theorem ofBytes_toBytes_append {e : Event} (h : e.toBytes.length < 2 ^ 64) (rest : List UInt8) :
    ofBytes (e.toBytes ++ rest) = .ok e.reread :=
  ofBytes_of_ok (Wire.reads_event h rest)

theorem ofBytes_toBytes {e : Event} (h : e.toBytes.length < 2 ^ 64) :
    ofBytes e.toBytes = .ok e.reread := by
  rw [← List.append_nil e.toBytes]
  exact ofBytes_toBytes_append h []

/-- The bytes of an event delimit themselves, if its time was read or is a shift of one that was.
Counts of bytes and elements take eight bytes, so the bytes of an event that is written must be
fewer than 2⁶⁴, as are all bytes in memory. -/
theorem toBytes_selfDelimiting {e : Event} (htime : e.time.Obtained)
    (h : e.toBytes.length < 2 ^ 64) :
    (∀ rest, ofBytes (e.toBytes ++ rest) = .ok e) ∧
      (∀ cut, cut <+: e.toBytes → cut ≠ e.toBytes → ∃ error, ofBytes cut = .error error) ∧
      ∀ other : Event, other.time.Obtained → other.toBytes <+: e.toBytes → other = e := by
  have hself := reread_eq_self (UtcTime.obtained_iff.1 htime)
  have hback : ∀ rest, ofBytes (e.toBytes ++ rest) = .ok e := by
    intro rest
    rw [ofBytes_toBytes_append h, hself]
  refine ⟨hback, ?_, ?_⟩
  · intro cut hstem hne
    obtain ⟨error, herror⟩ := Wire.Reads.error_of_prefix (Wire.reads_event h) Wire.local_event hstem
      hne
    exact ⟨error, ofBytes_of_error herror⟩
  · -- Both events are read from the bytes of the longer one.
    intro other hobtained hstem
    have hother : other.toBytes.length < 2 ^ 64 := Nat.lt_of_le_of_lt hstem.length_le h
    obtain ⟨rest, hrest⟩ := hstem
    have hread := ofBytes_toBytes_append hother rest
    have hwhole := hback []
    rw [hrest, reread_eq_self (UtcTime.obtained_iff.1 hobtained)] at hread
    rw [List.append_nil, hread] at hwhole
    exact Except.ok.inj hwhole

/-- An event in the last second there is, a leap second, with a name given twice, a NaN with a
payload, a negative zero and the least integer. -/
def lastMoment : Event where
  kind := .observe
  id := ⟨"-1"⟩
  source := ⟨.container, "a.é "⟩
  name := ⟨""⟩
  time := ⟨lastDay, 86399, 1999999999, by decide, by decide, by decide, by decide⟩
  params := ⟨[⟨"x", [.bool true, .int Int64.minValue, .double ⟨0x7FF8000000000001⟩]⟩,
    ⟨"x", [.text "", .double ⟨0x8000000000000000⟩]⟩]⟩

theorem toBytes_selfDelimiting_lastMoment :
    lastMoment.time.Obtained ∧ lastMoment.toBytes.length < 2 ^ 64 ∧
      (∀ rest, ofBytes (lastMoment.toBytes ++ rest) = .ok lastMoment) ∧
      (∀ cut, cut <+: lastMoment.toBytes → cut ≠ lastMoment.toBytes →
        ∃ error, ofBytes cut = .error error) ∧
      ∀ other : Event, other.time.Obtained → other.toBytes <+: lastMoment.toBytes →
        other = lastMoment := by
  have htime : lastMoment.time.Obtained := UtcTime.obtained_iff.2 (by decide)
  have hsize : lastMoment.toBytes.length < 2 ^ 64 := by decide +kernel
  exact ⟨htime, hsize, toBytes_selfDelimiting htime hsize⟩

end Observatory.Event
