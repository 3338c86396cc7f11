import Observatory.Proofs.Wire.Canonical

/-!
# Decoding any bytes

Bytes from anywhere either are an event, spelled as the event is written but for its time, or they
are refused. The time may have any form that the grammar of times gives to it, also forms that
RFC 3339 does not know. Whatever lengths the bytes declare, no more is built from them than they
hold. To say so where reading fails too, the readers of lists are followed by readers that count
what they build.
-/

namespace Observatory.Wire

variable {α β : Type}

/-! ## Counting what is built -/

/-- A reader that counts the elements of lists that it has built, whether or not it comes to its
end. -/
abbrev Counted (α : Type) := StateT (List UInt8) (ExceptT DecodeError (StateM Nat)) α

/-- A reader that builds no list. -/
def uncounted (read : Reader α) : Counted α := fun bytes =>
  ExceptT.mk (pure (read bytes))

def element (read : Counted α) : Counted α := do
  let x ← read
  modifyThe Nat (· + 1)
  return x

def countMany (read : Counted α) : Nat → Counted (List α)
  | 0 => return []
  | count + 1 => do
    let x ← element read
    return x :: (← countMany read count)

def countList (read : Counted α) : Counted (List α) := do
  countMany read (← uncounted (readNumber 8))

def countParameter : Counted Parameter := do
  let name ← uncounted readText
  return ⟨name, ← countList (uncounted readValue)⟩

/-- Takes an event and counts its parameters and their values. -/
def countEvent : Counted Event := do
  let kind ← uncounted readKind
  let id ← uncounted readText
  let source ← uncounted readSource
  let name ← uncounted readText
  let time ← uncounted readTime
  let params ← countList countParameter
  return { kind, id := ⟨id⟩, source, name := ⟨name⟩, time, params := ⟨params⟩ }

/-- What a reader leaves of its bytes, and `cost` bytes more where it comes to its end. -/
def leftOver (cost : Nat) : Except DecodeError (α × List UInt8) → Nat
  | .ok (_, rest) => rest.length + cost
  | .error _ => 0

/-- The counting reader reads as the plain one does, and what it builds is paid for with bytes that
it takes, with `cost` of them to spare. -/
def Counts (counted : Counted α) (read : Reader α) (cost : Nat) : Prop :=
  ∀ bytes built, ∃ built', (counted.run bytes).run.run built = (read bytes, built') ∧
    built' + leftOver cost (read bytes) ≤ built + bytes.length

theorem run_bind_error {counted : Counted α} (next : α → Counted β) {bytes : List UInt8}
    {built built' : Nat} {error : DecodeError}
    (h : (counted.run bytes).run.run built = (.error error, built')) :
    ((counted >>= next).run bytes).run.run built = (.error error, built') := by
  simp only [StateT.run_bind, ExceptT.run_bind, h]
  rfl

theorem run_bind_ok {counted : Counted α} (next : α → Counted β) {bytes left : List UInt8}
    {built built' : Nat} {a : α} (h : (counted.run bytes).run.run built = (.ok (a, left), built')) :
    ((counted >>= next).run bytes).run.run built = ((next a).run left).run.run built' := by
  simp only [StateT.run_bind, ExceptT.run_bind, h]
  rfl

theorem Counts.mono {counted : Counted α} {read : Reader α} {cost cost' : Nat}
    (h : Counts counted read cost) (hle : cost' ≤ cost) : Counts counted read cost' := by
  intro bytes built
  obtain ⟨built', hrun, hbuilt⟩ := h bytes built
  refine ⟨built', hrun, Nat.le_trans (Nat.add_le_add_left ?_ _) hbuilt⟩
  cases read bytes with
  | error error => exact Nat.le_refl 0
  | ok taken => exact Nat.add_le_add_left hle _

theorem Counts.pure (a : α) : Counts (pure a) (pure a) 0 :=
  fun _ built => ⟨built, rfl, Nat.le_refl _⟩

theorem Counts.bind {counted : Counted α} {read : Reader α} {next : α → Counted β}
    {next' : α → Reader β} {cost cost' : Nat} (hread : Counts counted read cost)
    (hnext : ∀ a, Counts (next a) (next' a) cost') :
    Counts (counted >>= next) (read >>= next') (cost + cost') := by
  intro bytes built
  obtain ⟨built', hrun, hbuilt⟩ := hread bytes built
  cases htaken : read bytes with
  | error error =>
    rw [htaken] at hrun hbuilt
    refine ⟨built', ?_, ?_⟩
    · rw [run_bind_error next hrun, bind_apply, htaken]
      rfl
    · rw [bind_apply, htaken]
      exact hbuilt
  | ok taken =>
    obtain ⟨a, left⟩ := taken
    rw [htaken] at hrun hbuilt
    -- The second reader goes on with the count of the first.
    obtain ⟨built'', hrun', hbuilt'⟩ := hnext a left built'
    refine ⟨built'', ?_, ?_⟩
    · rw [run_bind_ok next hrun, bind_apply, htaken]
      exact hrun'
    · rw [bind_apply, htaken]
      change built'' + leftOver (cost + cost') (next' a left) ≤ built + bytes.length
      cases hlast : next' a left with
      | error error =>
        rw [hlast] at hbuilt'
        simp only [leftOver] at hbuilt hbuilt' ⊢
        omega
      | ok last =>
        rw [hlast] at hbuilt'
        simp only [leftOver] at hbuilt hbuilt' ⊢
        omega

/-- A reader that builds no list has the bytes of the value to spare. -/
theorem Canonical.toCounts {read : Reader α} {encode : α → List UInt8} {cost : Nat}
    (hread : Canonical read encode) (hcost : ∀ a, cost ≤ (encode a).length) :
    Counts (uncounted read) read cost := by
  intro bytes built
  refine ⟨built, rfl, Nat.add_le_add_left ?_ built⟩
  cases htaken : read bytes with
  | error error => exact Nat.zero_le _
  | ok taken =>
    obtain ⟨a, rest⟩ := taken
    obtain ⟨rfl, -⟩ := hread htaken
    have := hcost a
    rw [leftOver, List.length_append]
    omega

theorem counts_time : Counts (uncounted readTime) readTime 0 := by
  intro bytes built
  refine ⟨built, rfl, Nat.add_le_add_left ?_ built⟩
  cases htaken : readTime bytes with
  | error error => exact Nat.zero_le _
  | ok taken =>
    obtain ⟨t, rest⟩ := taken
    obtain ⟨text, rfl, -⟩ := exists_of_readTime htaken
    rw [leftOver, List.length_append]
    omega

theorem Counts.element {counted : Counted α} {read : Reader α} {cost : Nat}
    (hread : Counts counted read (cost + 1)) : Counts (element counted) read cost := by
  intro bytes built
  obtain ⟨built', hrun, hbuilt⟩ := hread bytes built
  cases htaken : read bytes with
  | error error =>
    rw [htaken] at hrun hbuilt
    exact ⟨built', run_bind_error _ hrun, hbuilt⟩
  | ok taken =>
    obtain ⟨a, rest⟩ := taken
    rw [htaken] at hrun hbuilt
    -- The element is paid for with one of its bytes.
    refine ⟨built' + 1, run_bind_ok _ hrun, ?_⟩
    simp only [leftOver] at hbuilt ⊢
    omega

theorem Counts.many {counted : Counted α} {read : Reader α} (hread : Counts counted read 1)
    (count : Nat) : Counts (countMany counted count) (readMany read count) 0 := by
  induction count with
  | zero => exact Counts.pure []
  | succ count ih => exact hread.element.bind fun x => ih.bind fun xs => Counts.pure (x :: xs)

theorem Counts.list {counted : Counted α} {read : Reader α} (hread : Counts counted read 1) :
    Counts (countList counted) (readList read) 0 :=
  ((canonical_number 8).toCounts fun _ => Nat.zero_le _).bind fun count => hread.many count

theorem counts_value : Counts (uncounted readValue) readValue 1 :=
  canonical_value.toCounts length_encodeValue_pos

theorem counts_text : Counts (uncounted readText) readText 1 :=
  canonical_text.toCounts fun _ => Nat.succ_pos _

theorem counts_parameter : Counts countParameter readParameter 1 :=
  counts_text.bind fun _ => counts_value.list.bind fun _ => Counts.pure _

theorem counts_event : Counts countEvent readEvent 0 := by
  have hkind : Counts (uncounted readKind) readKind 0 :=
    canonical_kind.toCounts fun _ => Nat.zero_le _
  have htext : Counts (uncounted readText) readText 0 := counts_text.mono (Nat.zero_le 1)
  have hsource : Counts (uncounted readSource) readSource 0 :=
    canonical_source.toCounts fun _ => Nat.zero_le _
  exact hkind.bind fun _ => htext.bind fun _ => hsource.bind fun _ => htext.bind fun _ =>
    counts_time.bind fun _ => counts_parameter.list.bind fun _ => Counts.pure _

end Observatory.Wire

namespace Observatory.Event

/-- Any bytes are an event or are refused, and no more elements of lists are built from them than
there are bytes. The bytes of an event are those that it is written as, but for another form of its
time, and nothing after them matters. Every form of its time is read so. The event is read again,
and so written again, from what it is written as. -/
theorem ofBytes_canonical (bytes : List UInt8) :
    (∃ built, (Wire.countEvent.run bytes).run.run 0 = (Wire.readEvent bytes, built) ∧
        built ≤ bytes.length) ∧
      ((∃ error, ofBytes bytes = .error error) ∨
        ∃ e text rest, ofBytes bytes = .ok e ∧ bytes = e.spelled text ++ rest ∧
          (∀ more, Wire.readEvent (e.spelled text ++ more) = .ok (e, more)) ∧
          e.time.Spelled text.toList ∧
          (∀ other : String, e.time.Spelled other.toList → (e.spelled other).length < 2 ^ 64 →
            ofBytes (e.spelled other) = .ok e) ∧
          e.toBytes = e.spelled e.time.text ∧ ofBytes e.toBytes = .ok e) := by
  constructor
  · obtain ⟨built, hrun, hbuilt⟩ := Wire.counts_event bytes 0
    refine ⟨built, hrun, ?_⟩
    omega
  · cases hread : Wire.readEvent bytes with
    | error error => exact .inl ⟨error, ofBytes_of_error hread⟩
    | ok taken =>
      obtain ⟨e, rest⟩ := taken
      obtain ⟨text, hbytes, hparse, hspelled, hwritten⟩ := Wire.exists_of_readEvent hread
      have hback : Wire.readEvent e.toBytes = .ok (e, []) := by
        simpa only [List.append_nil] using hwritten []
      refine .inr ⟨e, text, rest, ofBytes_of_ok hread, hbytes, hspelled,
        UtcTime.parse_eq_ok_iff.1 hparse, fun other hother hsize => ?_, e.toBytes_eq_spelled,
        ofBytes_of_ok hback⟩
      have hreads := Wire.reads_spelled_of_length (UtcTime.parse_eq_ok_iff.2 hother) hsize
      rw [← List.append_nil (e.spelled other)]
      exact ofBytes_of_ok (hreads [])

/-- The bytes of an event have one text in the place of its time. -/
theorem eq_of_spelled {e : Event} {text other : String} {rest : List UInt8}
    (h : e.spelled text = e.spelled other ++ rest)
    (htext : (Wire.encodeText text).length < 2 ^ 64)
    (hother : (Wire.encodeText other).length < 2 ^ 64) : text = other := by
  unfold spelled at h
  simp only [List.append_assoc, List.append_cancel_left_eq] at h
  have hread := Wire.reads_text htext (Wire.encodeList Wire.encodeParameter e.params.toList)
  rw [h, Wire.reads_text hother] at hread
  exact (congrArg Prod.fst (Except.ok.inj hread)).symm

/-- The epoch in a form that RFC 3339 does not know. -/
def looseEpoch : String :=
  "1970- 1- 1 0: 0: 0 utc"

theorem not_dateTime_looseEpoch : ¬Time.DateTime looseEpoch.toList := by
  intro hform
  generalize hcs : looseEpoch.toList = cs at hform
  obtain ⟨⟨hyear, -⟩, ⟨hlength, hmonth⟩, -, -, -, -, -, -, -⟩ := hform
  obtain ⟨a, b, rfl⟩ := List.length_eq_two.1 hlength
  -- A blank stands where the month should begin.
  have hfirst : looseEpoch.toList[5]? = some a := by
    rw [hcs]
    simp [List.getElem?_append, hyear]
  have hblank : looseEpoch.toList[5]? = some ' ' := by decide
  obtain rfl := Option.some.inj (hblank.symm.trans hfirst)
  exact absurd (hmonth ' ' List.mem_cons_self) (by decide)

/-- An event without parameters, its time in that form. -/
def looselyTimed : List UInt8 :=
  (Event.invalid ⟨⟨.csw, "a"⟩, ⟨"b"⟩⟩).spelled looseEpoch

/-- The event is read, and its time stands there neither as it is written nor in another form of
RFC 3339. -/
theorem not_dateTime_looselyTimed : ∃ e, ofBytes looselyTimed = .ok e ∧
    ¬∃ text rest, looselyTimed = e.spelled text ++ rest ∧
      (text = e.time.text ∨ Time.DateTime text.toList) := by
  have hparse : UtcTime.parse looseEpoch = .ok (Event.invalid ⟨⟨.csw, "a"⟩, ⟨"b"⟩⟩).time := by
    decide +kernel
  have hreads := Wire.reads_spelled_of_length hparse (by decide +kernel)
  have hread := ofBytes_of_ok (hreads [])
  rw [List.append_nil] at hread
  refine ⟨_, hread, ?_⟩
  rintro ⟨text, rest, hbytes, htext⟩
  have hsize : (Wire.encodeText text).length < 2 ^ 64 := by
    have hall : looselyTimed.length < 2 ^ 64 := by decide +kernel
    rw [hbytes] at hall
    simp only [spelled, List.length_append] at hall
    omega
  obtain rfl := eq_of_spelled hbytes (by decide +kernel) hsize
  rcases htext with hwritten | hform
  · exact absurd hwritten (by decide +kernel)
  · exact not_dateTime_looseEpoch hform

end Observatory.Event
