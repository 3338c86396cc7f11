import Observatory.Proofs.Event.Parameter
import Observatory.Proofs.Identity.Key
import Observatory.Proofs.Wire.Canonical

/-!
# Bytes of valid events

The constructors of events keep the rules for names: a component name without padding and
separator, an event name that is not empty, no parameter name twice. Reading bytes checks none of
them. So the bytes that are read as valid events are those that an event made by the constructors
is written as, and no others.
-/

namespace Observatory

/-! ## Valid events -/

namespace Event

/-- The rules for names that the constructors keep. -/
structure Valid (e : Event) : Prop where
  source : e.source.IsValid
  name : e.name.IsValid
  params : e.params.names.Nodup

/-- The events that the constructors make. -/
inductive Made : Event → Prop
  | create {subsystem : Subsystem} {component text : String} {source : Source} {name : EventName}
      (kind : EventKind) (id : EventId) (now : UtcTime) :
      Source.create subsystem component = .ok source → EventName.create text = .ok name →
      Made (create kind ⟨source, name⟩ id now)
  | withParameter {e : Event} (p : Parameter) (fresh : EventId) :
      Made e → Made (e.withParameter p fresh)
  | withoutParameter {e : Event} (name : String) (fresh : EventId) :
      Made e → Made (e.withoutParameter name fresh)
  | withTime {e : Event} (time : UtcTime) : Made e → Made (e.withTime time)

theorem Made.valid {e : Event} (h : e.Made) : e.Valid := by
  induction h with
  | create kind id now hsource hname =>
    exact ⟨Source.isValid_of_create hsource, EventName.isValid_of_create hname, List.nodup_nil⟩
  | withParameter p fresh _ ih =>
    exact ⟨ih.source, ih.name, ParameterSet.nodup_insert ih.params p⟩
  | withoutParameter name fresh _ ih =>
    exact ⟨ih.source, ih.name, ParameterSet.nodup_erase ih.params name⟩
  | withTime time _ ih => exact ⟨ih.source, ih.name, ih.params⟩

theorem Valid.made {e : Event} (h : e.Valid) : e.Made := by
  obtain ⟨kind, id, source, name, time, ⟨params⟩⟩ := e
  obtain ⟨hsource, hname, hparams⟩ := h
  unfold ParameterSet.names at hparams
  dsimp only at hsource hname hparams
  -- The parameters are added one after another, and each of them is new when it is.
  induction params using List.reverseRecOn with
  | nil => exact Made.create kind id time hsource hname
  | append_singleton params p ih =>
    rw [List.map_append, List.map_cons, List.map_nil, ← List.concat_eq_append,
      List.nodup_concat] at hparams
    obtain ⟨hnew, hnodup⟩ := hparams
    have hmade := (ih hnodup).withParameter p id
    rwa [Event.withParameter, ParameterSet.insert, ParameterSet.insertInto_of_not_mem hnew]
      at hmade

/-! ## Reading -/

/-- The bytes begin with an event that the constructors make, whatever the spelling of its time. -/
def BeginsMade (bytes : List UInt8) : Prop :=
  ∃ made text, Made made ∧ UtcTime.parse text = .ok made.time ∧ made.spelled text <+: bytes

theorem made_of_beginsMade {bytes : List UInt8} {e : Event} (hsize : bytes.length < 2 ^ 64)
    (h : ofBytes bytes = .ok e) (hbegins : BeginsMade bytes) : e.Made := by
  obtain ⟨made, text, hmade, hparse, rest, rfl⟩ := hbegins
  have hspelled : (made.spelled text).length < 2 ^ 64 := by
    rw [List.length_append] at hsize
    omega
  have hread := ofBytes_of_ok (Wire.reads_spelled_of_length hparse hspelled rest)
  rw [h] at hread
  obtain rfl := Except.ok.inj hread
  exact hmade

theorem beginsMade_of_made {bytes : List UInt8} {e : Event} (h : ofBytes bytes = .ok e)
    (hmade : e.Made) : BeginsMade bytes := by
  cases hread : Wire.readEvent bytes with
  | error error =>
    rw [ofBytes_of_error hread] at h
    cases h
  | ok taken =>
    obtain ⟨e', rest⟩ := taken
    rw [ofBytes_of_ok hread] at h
    obtain rfl := Except.ok.inj h
    obtain ⟨text, rfl, hparse, -⟩ := Wire.exists_of_readEvent hread
    exact ⟨e', text, hmade, hparse, List.prefix_append _ _⟩

/-- What is read from bytes keeps the rules for names if and only if the bytes begin with an event
that the constructors make. Its key is then read back from its written form, which tells it apart
from the keys of other such events, and taking a parameter out leaves none of that name. -/
theorem valid_iff_beginsMade {bytes : List UInt8} {e : Event} (hsize : bytes.length < 2 ^ 64)
    (h : ofBytes bytes = .ok e) :
    (e.Valid ↔ BeginsMade bytes) ∧
      (BeginsMade bytes → EventKey.parse e.key.canonical = .ok e.key ∧
        (∀ bytes' e', bytes'.length < 2 ^ 64 → ofBytes bytes' = .ok e' → BeginsMade bytes' →
          (e.key = e'.key ↔ e.key.canonical = e'.key.canonical)) ∧
        ∀ name fresh, (e.withoutParameter name fresh).params.contains name = false) := by
  have hiff : e.Valid ↔ BeginsMade bytes :=
    ⟨fun hvalid => beginsMade_of_made h hvalid.made,
      fun hbegins => (made_of_beginsMade hsize h hbegins).valid⟩
  refine ⟨hiff, fun hbegins => ?_⟩
  have hvalid := hiff.2 hbegins
  refine ⟨EventKey.parse_canonical hvalid.source hvalid.name, ?_, ?_⟩
  · intro bytes' e' hsize' h' hbegins'
    have hvalid' := (made_of_beginsMade hsize' h' hbegins').valid
    exact ⟨congrArg EventKey.canonical, EventKey.eq_of_canonical hvalid.source hvalid.name
      hvalid'.source hvalid'.name⟩
  · intro name fresh
    exact ParameterSet.contains_erase hvalid.params name

/-- A position with two parameters. -/
def position : Event :=
  ((create .observe ⟨⟨.tcs, "pk"⟩, ⟨"pos.now"⟩⟩ ⟨"1"⟩ .epoch).withParameter ⟨"ra", [.int 1]⟩
    ⟨"2"⟩).withParameter ⟨"dec", []⟩ ⟨"3"⟩

/-- The bytes of the position, its time spelled with an offset from UTC, and one byte more. -/
def positionBytes : List UInt8 :=
  position.spelled "1970-01-01T01:00:00+01:00" ++ [0xFF]

theorem beginsMade_position : BeginsMade positionBytes := by
  have hcreate := Made.create .observe ⟨"1"⟩ .epoch (Eq.refl (Source.create .tcs "pk"))
    (Eq.refl (EventName.create "pos.now"))
  exact ⟨position, _, (hcreate.withParameter _ _).withParameter _ _, by decide +kernel,
    List.prefix_append _ _⟩

theorem ofBytes_positionBytes : ofBytes positionBytes = .ok position :=
  ofBytes_of_ok (Wire.reads_spelled_of_length (by decide +kernel) (by decide +kernel) [0xFF])

theorem valid_iff_beginsMade_position :
    positionBytes.length < 2 ^ 64 ∧ ofBytes positionBytes = .ok position ∧
      BeginsMade positionBytes ∧ position.Valid ∧
      EventKey.parse position.key.canonical = .ok position.key ∧
      (position.withoutParameter "ra" ⟨"4"⟩).params.contains "ra" = false := by
  have hsize : positionBytes.length < 2 ^ 64 := by decide +kernel
  obtain ⟨hiff, hbegins⟩ := valid_iff_beginsMade hsize ofBytes_positionBytes
  obtain ⟨hparse, -, herased⟩ := hbegins beginsMade_position
  exact ⟨hsize, ofBytes_positionBytes, beginsMade_position, hiff.2 beginsMade_position, hparse,
    herased "ra" ⟨"4"⟩⟩

/-- An event whose component name holds a separator and which has two parameters of one name. -/
def dotted : Event where
  kind := .system
  id := ⟨"1"⟩
  source := ⟨.csw, "a.b"⟩
  name := ⟨"c"⟩
  time := .epoch
  params := ⟨[⟨"x", []⟩, ⟨"x", []⟩]⟩

/-- The event breaks the rules, and yet it is read from its bytes: its key is written as that of
another channel, and taking a parameter out leaves the other one of that name. -/
theorem not_valid_dotted :
    ofBytes dotted.toBytes = .ok dotted ∧ ¬ dotted.Valid ∧
      EventKey.parse dotted.key.canonical = .ok ⟨⟨.csw, "a"⟩, ⟨"b.c"⟩⟩ ∧
      (dotted.withoutParameter "x" ⟨"2"⟩).params.contains "x" = true := by
  refine ⟨?_, ?_, by decide +kernel, by decide +kernel⟩
  · have hread := ofBytes_toBytes (e := dotted) (by decide +kernel)
    rwa [reread_eq_self (by decide)] at hread
  · intro hvalid
    exact absurd hvalid.source (by decide +kernel)

end Event

end Observatory
