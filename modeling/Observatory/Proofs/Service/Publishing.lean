import Observatory.Proofs.Service.Simulation
import Observatory.Proofs.Store.History
import Observatory.Proofs.Table

/-!
# Publishes along a run

What a trace says of the writes of a run, and what every run keeps of them: writes are stamped in
ascending order, each is answered once at most, and what is in flight was not answered yet.
-/

namespace Observatory

namespace Store

variable {s : Store} {key : EventKey} {flight : InFlight} {current : Stamped}

theorem get?_undo_of_ne (h : key ≠ flight.written.key) :
    (s.undo flight).entries.get? key = s.entries.get? key :=
  get?_restore_of_ne h

theorem get?_undo_self (hcurrent : s.entries.get? flight.written.key = some current)
    (hid : current.event.id = flight.written.event.id) :
    (s.undo flight).entries.get? flight.written.key = flight.previous :=
  get?_restore_self hcurrent hid

theorem undo_of_ne (hcurrent : s.entries.get? flight.written.key = some current)
    (hid : current.event.id ≠ flight.written.event.id) : s.undo flight = s :=
  restore_of_ne hcurrent hid

end Store

/-- The writes of a trace, in order. -/
def writes (t : List Mark) : List Stamped :=
  t.filterMap fun
    | .written w => some w
    | _ => none

/-- The write was made and the transport has neither taken nor refused it. -/
def Open (t : List Mark) (w : Stamped) : Prop :=
  .written w ∈ t ∧ .accepted w ∉ t ∧ .refused w ∉ t

/-- The write was refused while a later write on its key had no answer. -/
def Overtaken (t : List Mark) (w : Stamped) : Prop :=
  ∃ before after v, t = before ++ .refused w :: after ∧ v.key = w.key ∧ w.stamp < v.stamp ∧
    Open before v

/-- The write that a mark is about. -/
def Mark.write? : Mark → Option Stamped
  | .written w | .accepted w | .refused w | .crashed w => some w
  | _ => none

/-- Whether a mark is about a publish or the store as a whole. -/
def Mark.isPublishing : Mark → Bool
  | .written _ | .accepted _ | .refused _ | .crashed _ | .cleared => true
  | _ => false

theorem Mark.write?_of_isPublishing {m : Mark} (h : m.isPublishing = false) :
    m.write? = none := by
  cases m with
  | written w => cases h
  | accepted w => cases h
  | refused w => cases h
  | crashed w => cases h
  | _ => rfl

theorem mem_writes {t : List Mark} {w : Stamped} : w ∈ writes t ↔ .written w ∈ t := by
  unfold writes
  rw [List.mem_filterMap]
  constructor
  · rintro ⟨m, hm, h⟩
    cases m with
    | written w' =>
      cases h
      exact hm
    | _ => cases h
  · intro h
    exact ⟨.written w, h, rfl⟩

theorem writes_append (t t' : List Mark) : writes (t ++ t') = writes t ++ writes t' :=
  List.filterMap_append

theorem writes_quiet {marks : List Mark} (h : ∀ m ∈ marks, m.write? = none) :
    writes marks = [] := by
  rw [writes, List.filterMap_eq_nil_iff]
  intro m hm
  cases m with
  | written w => cases h _ hm
  | _ => rfl

theorem mem_quiet {t marks : List Mark} {m : Mark} {w : Stamped}
    (h : ∀ m ∈ marks, m.write? = none) (hm : m.write? = some w) : m ∈ t ++ marks ↔ m ∈ t := by
  rw [List.mem_append]
  constructor
  · rintro (hin | hin)
    · exact hin
    · rw [h m hin] at hm
      cases hm
  · exact Or.inl

theorem open_quiet {t marks : List Mark} {w : Stamped} (h : ∀ m ∈ marks, m.write? = none) :
    Open (t ++ marks) w ↔ Open t w := by
  unfold Open
  rw [mem_quiet h rfl, mem_quiet h rfl, mem_quiet h rfl]

/-- The mark tells what became of the write: an answer, or a crash in place of one. -/
inductive Mark.Settles (w : Stamped) : Mark → Prop where
  | accepted : Settles w (.accepted w)
  | refused : Settles w (.refused w)
  | crashed : Settles w (.crashed w)

namespace Mark.Settles

variable {t : List Mark} {m x : Mark} {v w : Stamped}

/-- In a trace that goes on with what became of one write, nothing is new of the others. -/
theorem mem_concat (hm : m.Settles v) (hne : w ≠ v) (hx : x.write? = some w) :
    x ∈ t ++ [m] ↔ x ∈ t := by
  have hother : x ≠ m := by
    rintro rfl
    cases hm <;> exact hne (Option.some.inj hx).symm
  rw [List.mem_append, List.mem_singleton, or_iff_left hother]

theorem open_concat (hm : m.Settles v) (hne : w ≠ v) : Open (t ++ [m]) w ↔ Open t w := by
  unfold Open
  rw [hm.mem_concat hne rfl, hm.mem_concat hne rfl, hm.mem_concat hne rfl]

theorem written_concat (hm : m.Settles v) : .written w ∈ t ++ [m] ↔ .written w ∈ t := by
  rw [List.mem_append, List.mem_singleton, or_iff_left]
  rintro rfl
  cases hm

theorem writes_concat (hm : m.Settles v) : writes (t ++ [m]) = writes t := by
  rw [writes_append]
  cases hm <;> exact List.append_nil _

/-- A write whose fate is open is not accepted and refused at once. -/
theorem not_both (hm : m.Settles v) (hopen : Open t v) (haccepted : .accepted v ∈ t ++ [m]) :
    .refused v ∉ t ++ [m] := by
  intro hrefused
  rw [List.mem_append, List.mem_singleton] at haccepted hrefused
  cases haccepted.resolve_left hopen.2.1
  cases hrefused.resolve_left hopen.2.2

/-- A write that is open still was not settled just now. -/
theorem ne_of_open (hm : m.Settles v) (hopen : Open (t ++ [m]) w) (hcrash : .crashed w ∉ t ++ [m]) :
    w ≠ v := by
  rintro rfl
  have hlast : m ∈ t ++ [m] := List.mem_append_right t List.mem_cons_self
  cases hm with
  | accepted => exact hopen.2.1 hlast
  | refused => exact hopen.2.2 hlast
  | crashed => exact hcrash hlast

end Mark.Settles

theorem Overtaken.append {t : List Mark} {w : Stamped} (h : Overtaken t w) (marks : List Mark) :
    Overtaken (t ++ marks) w := by
  obtain ⟨before, after, v, rfl, hv⟩ := h
  refine ⟨before, after ++ marks, v, ?_, hv⟩
  rw [List.append_assoc, List.cons_append]

theorem Overtaken.refused {t : List Mark} {w : Stamped} (h : Overtaken t w) : .refused w ∈ t := by
  obtain ⟨before, after, v, rfl, _⟩ := h
  exact List.mem_append_right before List.mem_cons_self

namespace View

/-- The steps of a view as far as publishes and the store are concerned. -/
inductive Publishing (v : View) : List Mark → View → Prop where
  | quiet (marks : List Mark) (v' : View) (hmarks : ∀ m ∈ marks, m.isPublishing = false)
      (hstore : v'.store = v.store) (hflight : v'.flight = v.flight) : Publishing v marks v'
  | clear (v' : View) (hstore : v'.store = v.store.clear) (hflight : v'.flight = v.flight) :
      Publishing v [.cleared] v'
  | offer (id : PublisherId) (event : Event) (flight : InFlight) (v' : View)
      (hfree : v.flight id = none)
      (hwritten : flight.written = (v.store.put event.key event).1.written)
      (hprevious : flight.previous = (v.store.put event.key event).1.previous)
      (hstore : v'.store = (v.store.put event.key event).2)
      (hflight : v'.flight = Function.update v.flight id (some flight)) :
      Publishing v [.written flight.written] v'
  | accept (id : PublisherId) (flight : InFlight) (v' : View)
      (hin : v.flight id = some flight) (hstore : v'.store = v.store)
      (hflight : v'.flight = Function.update v.flight id none) :
      Publishing v [.accepted flight.written] v'
  | refuse (id : PublisherId) (flight : InFlight) (v' : View)
      (hin : v.flight id = some flight) (hstore : v'.store = v.store.undo flight)
      (hflight : v'.flight = Function.update v.flight id none) :
      Publishing v [.refused flight.written] v'
  | crash (id : PublisherId) (flight : InFlight) (v' : View)
      (hin : v.flight id = some flight) (hstore : v'.store = v.store)
      (hflight : v'.flight = Function.update v.flight id none) :
      Publishing v [.crashed flight.written] v'

/-- Only publishers and clearing reach the store. -/
theorem Step.publishing {v v' : View} {marks : List Mark} (h : Step v marks v') :
    Publishing v marks v' := by
  cases h with
  | read marks h =>
    refine .quiet marks _ (fun m hm => ?_) rfl rfl
    obtain ⟨key, rfl⟩ := h m hm
    rfl
  | clear => exact .clear _ rfl rfl
  | offer id event flight hfree hwritten hprevious =>
    exact .offer id event flight _ hfree hwritten hprevious rfl rfl
  | accept id flight backend hin hpublish => exact .accept id flight _ hin rfl rfl
  | refuse id flight hin => exact .refuse id flight _ hin rfl rfl
  | crash id flight hin => exact .crash id flight _ hin rfl rfl
  | rewire backend => exact .quiet _ _ (List.forall_mem_singleton.2 rfl) rfl rfl
  | shutdown => exact .quiet _ _ (List.forall_mem_nil _) rfl rfl
  | subscribe id target rate hfree => exact .quiet _ _ (List.forall_mem_nil _) rfl rfl
  | register id target rate due backend hstanding hregister =>
    exact .quiet _ _ (List.forall_mem_singleton.2 rfl) rfl rfl
  | activate id target rate due now hstanding =>
    exact .quiet _ _ (List.forall_mem_singleton.2 rfl) rfl rfl
  | flow id target rate p next came went stage between after hstanding hin hout =>
    refine .quiet _ _ (fun m hm => ?_) rfl rfl
    rcases List.mem_append.1 hm with hm | hm
    · obtain ⟨w, rfl⟩ := hin.came hm
      rfl
    · obtain ⟨e, _, _, rfl⟩ := hout.went hm
      rfl
  | deposit id target rate p e hstanding =>
    exact .quiet _ _ (List.forall_mem_singleton.2 rfl) rfl rfl
  | endCall id target rate p e due ending stage hstanding hstage =>
    exact .quiet _ _ (List.forall_mem_nil _) rfl rfl
  | stop id target rate stage backend hstanding hbackend =>
    exact .quiet _ _ (List.forall_mem_nil _) rfl rfl

/-- What is in flight after an offer is what was offered, or was in flight before. -/
theorem flight_of_offer {v v' : View} {id id' : PublisherId} {flight flight' : InFlight}
    (hflight : v'.flight = Function.update v.flight id (some flight))
    (hin : v'.flight id' = some flight') :
    (id' = id ∧ flight' = flight) ∨ (id' ≠ id ∧ v.flight id' = some flight') := by
  rw [hflight] at hin
  by_cases hid : id' = id
  · rw [hid, Function.update_self] at hin
    exact .inl ⟨hid, (Option.some.inj hin).symm⟩
  · rw [Function.update_of_ne hid] at hin
    exact .inr ⟨hid, hin⟩

/-- What is in flight after an answer was in flight before, with another publisher. -/
theorem flight_of_answer {v v' : View} {id id' : PublisherId} {flight : InFlight}
    (hflight : v'.flight = Function.update v.flight id none) (hin : v'.flight id' = some flight) :
    id' ≠ id ∧ v.flight id' = some flight := by
  rw [hflight] at hin
  by_cases hid : id' = id
  · rw [hid, Function.update_self] at hin
    cases hin
  · rw [Function.update_of_ne hid] at hin
    exact ⟨hid, hin⟩

end View

/-- What every run keeps of its writes. -/
structure Accounted (t : List Mark) (v : View) : Prop where
  ascending : (writes t).Pairwise fun a b => a.stamp < b.stamp
  positive : ∀ w, .written w ∈ t → 0 < w.stamp
  bounded : ∀ w, .written w ∈ t → w.stamp ≤ v.store.lastStamp
  accepted : ∀ w, .accepted w ∈ t → .written w ∈ t ∧ .refused w ∉ t
  refused : ∀ w, .refused w ∈ t → .written w ∈ t
  crashed : ∀ w, .crashed w ∈ t → .written w ∈ t
  inFlight : ∀ id flight, v.flight id = some flight →
    Open t flight.written ∧ .crashed flight.written ∉ t
  apart : ∀ id id' flight flight', v.flight id = some flight → v.flight id' = some flight' →
    flight.written = flight'.written → id = id'
  settled : ∀ w, Open t w → .crashed w ∉ t →
    ∃ id flight, v.flight id = some flight ∧ flight.written = w

namespace Accounted

variable {t marks : List Mark} {v v' : View}

theorem eq_of_stamp (h : Accounted t v) {a b : Stamped} (ha : .written a ∈ t)
    (hb : .written b ∈ t) (heq : a.stamp = b.stamp) : a = b := by
  have hstamps : ((writes t).map Stamped.stamp).Nodup := by
    rw [List.Nodup, List.pairwise_map]
    exact h.ascending.imp Nat.ne_of_lt
  exact List.inj_on_of_nodup_map hstamps (mem_writes.2 ha) (mem_writes.2 hb) heq

/-- Steps that are not about writes keep the account. -/
theorem frame (h : Accounted t v) (hmarks : ∀ m ∈ marks, m.write? = none)
    (hstamp : v'.store.lastStamp = v.store.lastStamp) (hflight : v'.flight = v.flight) :
    Accounted (t ++ marks) v' where
  ascending := by
    rw [writes_append, writes_quiet hmarks, List.append_nil]
    exact h.ascending
  positive w hw := h.positive w ((mem_quiet hmarks rfl).1 hw)
  bounded w hw := by
    rw [hstamp]
    exact h.bounded w ((mem_quiet hmarks rfl).1 hw)
  accepted w hw := by
    rw [mem_quiet hmarks rfl] at hw
    rw [mem_quiet hmarks rfl, mem_quiet hmarks rfl]
    exact h.accepted w hw
  refused w hw := by
    rw [mem_quiet hmarks rfl] at hw ⊢
    exact h.refused w hw
  crashed w hw := by
    rw [mem_quiet hmarks rfl] at hw ⊢
    exact h.crashed w hw
  inFlight id flight hin := by
    rw [hflight] at hin
    rw [open_quiet hmarks, mem_quiet hmarks rfl]
    exact h.inFlight id flight hin
  apart := by
    rw [hflight]
    exact h.apart
  settled w hopen hcrash := by
    rw [open_quiet hmarks] at hopen
    rw [mem_quiet hmarks rfl] at hcrash
    rw [hflight]
    exact h.settled w hopen hcrash

theorem offer (h : Accounted t v) {id : PublisherId} {flight : InFlight}
    (hfree : v.flight id = none) (hwritten : flight.written.stamp = v.store.lastStamp + 1)
    (hstamp : v'.store.lastStamp = v.store.lastStamp + 1)
    (hflight : v'.flight = Function.update v.flight id (some flight)) :
    Accounted (t ++ [.written flight.written]) v' := by
  -- The stamp of the write is greater than all before, so nothing was seen of it yet.
  have hnew : .written flight.written ∉ t := by
    intro hmem
    have := h.bounded _ hmem
    omega
  have hfresh : Open (t ++ [.written flight.written]) flight.written ∧
      .crashed flight.written ∉ t ++ [.written flight.written] := by
    simp only [Open, List.mem_append, List.mem_singleton, reduceCtorEq, or_false, or_true,
      true_and]
    exact ⟨⟨fun hw => hnew (h.accepted _ hw).1, fun hw => hnew (h.refused _ hw)⟩,
      fun hw => hnew (h.crashed _ hw)⟩
  refine ⟨?ascending, ?positive, ?bounded, ?accepted, ?refused, ?crashed, ?inFlight, ?apart,
    ?settled⟩
  case ascending =>
    rw [writes_append, List.pairwise_append]
    refine ⟨h.ascending, List.pairwise_singleton _ _, ?_⟩
    intro a ha b hb
    have := h.bounded a (mem_writes.1 ha)
    rw [show b = flight.written from List.mem_singleton.1 hb]
    omega
  case positive =>
    intro w hw
    rcases List.mem_append.1 hw with hw | hw
    · exact h.positive w hw
    · cases List.mem_singleton.1 hw
      omega
  case bounded =>
    intro w hw
    rw [hstamp]
    rcases List.mem_append.1 hw with hw | hw
    · exact Nat.le_succ_of_le (h.bounded w hw)
    · cases List.mem_singleton.1 hw
      omega
  case accepted =>
    intro w hw
    simp only [List.mem_append, List.mem_singleton, reduceCtorEq, or_false] at hw ⊢
    exact ⟨.inl (h.accepted w hw).1, (h.accepted w hw).2⟩
  case refused =>
    intro w hw
    simp only [List.mem_append, List.mem_singleton, reduceCtorEq, or_false] at hw ⊢
    exact .inl (h.refused w hw)
  case crashed =>
    intro w hw
    simp only [List.mem_append, List.mem_singleton, reduceCtorEq, or_false] at hw ⊢
    exact .inl (h.crashed w hw)
  case inFlight =>
    intro id' flight' hin
    rcases View.flight_of_offer hflight hin with ⟨_, rfl⟩ | ⟨_, hin⟩
    · exact hfresh
    · obtain ⟨hopen, hcrash⟩ := h.inFlight id' flight' hin
      simp only [Open, List.mem_append, List.mem_singleton, reduceCtorEq, or_false] at hopen ⊢
      exact ⟨⟨.inl hopen.1, hopen.2⟩, hcrash⟩
  case apart =>
    have hother : ∀ id' flight', v.flight id' = some flight' →
        flight'.written ≠ flight.written := by
      intro id' flight' hin heq
      exact hnew (heq ▸ (h.inFlight id' flight' hin).1.1)
    intro a b fa fb ha hb heq
    rcases View.flight_of_offer hflight ha with ⟨rfl, rfl⟩ | ⟨_, ha⟩
    · rcases View.flight_of_offer hflight hb with ⟨rfl, _⟩ | ⟨_, hb⟩
      · rfl
      · exact absurd heq.symm (hother b fb hb)
    · rcases View.flight_of_offer hflight hb with ⟨rfl, rfl⟩ | ⟨_, hb⟩
      · exact absurd heq (hother a fa ha)
      · exact h.apart a b fa fb ha hb heq
  case settled =>
    intro w hopen hcrash
    rw [hflight]
    by_cases hw : w = flight.written
    · exact ⟨id, flight, Function.update_self .., hw.symm⟩
    · simp only [Open, List.mem_append, List.mem_singleton, reduceCtorEq, or_false,
        Mark.written.injEq, hw] at hopen hcrash
      obtain ⟨id', flight', hin, heq⟩ := h.settled w hopen hcrash
      refine ⟨id', flight', ?_, heq⟩
      rw [Function.update_of_ne, hin]
      rintro rfl
      rw [hfree] at hin
      cases hin

/-- An answer, or a crash in place of one, ends the publish in flight. -/
theorem answer (h : Accounted t v) {id : PublisherId} {flight : InFlight} {m : Mark}
    (hin : v.flight id = some flight) (hm : m.Settles flight.written)
    (hstamp : v'.store.lastStamp = v.store.lastStamp)
    (hflight : v'.flight = Function.update v.flight id none) : Accounted (t ++ [m]) v' := by
  obtain ⟨hopen, hcrash⟩ := h.inFlight id flight hin
  -- Publishers do not share writes, so the answer is about none of the others in flight.
  have hother : ∀ id' flight', v'.flight id' = some flight' →
      v.flight id' = some flight' ∧ flight'.written ≠ flight.written := by
    intro id' flight' hin'
    obtain ⟨hid, hin'⟩ := View.flight_of_answer hflight hin'
    exact ⟨hin', fun heq => hid (h.apart id' id flight' flight hin' hin heq)⟩
  refine ⟨?ascending, ?positive, ?bounded, ?accepted, ?refused, ?crashed, ?inFlight, ?apart,
    ?settled⟩
  case ascending =>
    rw [hm.writes_concat]
    exact h.ascending
  case positive => exact fun w hw => h.positive w (hm.written_concat.1 hw)
  case bounded =>
    intro w hw
    rw [hstamp]
    exact h.bounded w (hm.written_concat.1 hw)
  case accepted =>
    intro w hw
    rw [hm.written_concat]
    by_cases hne : w = flight.written
    · subst hne
      exact ⟨hopen.1, hm.not_both hopen hw⟩
    · rw [hm.mem_concat hne rfl] at hw ⊢
      exact h.accepted w hw
  case refused =>
    intro w hw
    rw [hm.written_concat]
    by_cases hne : w = flight.written
    · exact hne ▸ hopen.1
    · exact h.refused w ((hm.mem_concat hne rfl).1 hw)
  case crashed =>
    intro w hw
    rw [hm.written_concat]
    by_cases hne : w = flight.written
    · exact hne ▸ hopen.1
    · exact h.crashed w ((hm.mem_concat hne rfl).1 hw)
  case inFlight =>
    intro id' flight' hin'
    obtain ⟨hold, hne⟩ := hother id' flight' hin'
    rw [hm.open_concat hne, hm.mem_concat hne rfl]
    exact h.inFlight id' flight' hold
  case apart =>
    intro a b fa fb ha hb heq
    exact h.apart a b fa fb (hother a fa ha).1 (hother b fb hb).1 heq
  case settled =>
    intro w hopen' hcrash'
    have hne := hm.ne_of_open hopen' hcrash'
    rw [hm.open_concat hne] at hopen'
    rw [hm.mem_concat hne rfl] at hcrash'
    obtain ⟨id', flight', hin', heq⟩ := h.settled w hopen' hcrash'
    refine ⟨id', flight', ?_, heq⟩
    rw [hflight, Function.update_of_ne, hin']
    rintro rfl
    rw [hin] at hin'
    cases hin'
    exact hne heq.symm

/-- What one step keeps. -/
theorem step (h : Accounted t v) (hstep : View.Publishing v marks v') :
    Accounted (t ++ marks) v' := by
  cases hstep with
  | quiet _ _ hmarks hstore hflight =>
    exact h.frame (fun m hm => Mark.write?_of_isPublishing (hmarks m hm)) (hstore ▸ rfl) hflight
  | clear _ hstore hflight =>
    exact h.frame (List.forall_mem_singleton.2 rfl) (hstore ▸ rfl) hflight
  | offer id event flight _ hfree hwritten hprevious hstore hflight =>
    exact h.offer hfree (hwritten ▸ rfl) (hstore ▸ rfl) hflight
  | accept id flight _ hin hstore hflight =>
    exact h.answer hin .accepted (hstore ▸ rfl) hflight
  | refuse id flight _ hin hstore hflight =>
    exact h.answer hin .refused (hstore ▸ Store.lastStamp_restore ..) hflight
  | crash id flight _ hin hstore hflight =>
    exact h.answer hin .crashed (hstore ▸ rfl) hflight

end Accounted

namespace Service

variable {settings : Settings} {origin : UtcTime} {transport : Transport} {t : List Mark}
  {s : Service}

/-- Whether no publish is in flight. -/
def isIdle (s : Service) : Bool :=
  s.publishers.values.all fun p => p.inFlight.isNone

theorem inFlight_of_isIdle (h : s.isIdle = true) (id : PublisherId) :
    (s.publisher id).inFlight = none := by
  unfold publisher
  cases hp : s.publishers.get? id with
  | none => rfl
  | some p =>
    have hnone := List.all_eq_true.1 h p (Table.mem_values_of_get? hp)
    exact Option.isNone_iff_eq_none.1 hnone

theorem accounted_start : Accounted [] (withTransport settings origin transport).view where
  ascending := List.Pairwise.nil
  positive _ hw := absurd hw List.not_mem_nil
  bounded _ hw := absurd hw List.not_mem_nil
  accepted _ hw := absurd hw List.not_mem_nil
  refused _ hw := absurd hw List.not_mem_nil
  crashed _ hw := absurd hw List.not_mem_nil
  inFlight _ _ hin := nomatch hin
  apart _ _ _ _ hin := nomatch hin
  settled _ hopen := absurd hopen.1 List.not_mem_nil

theorem Run.accounted (run : Run (withTransport settings origin transport) t s) :
    Accounted t s.view := by
  induction run with
  | start => exact accounted_start
  | step _ h ih => exact ih.step (step_view h).publishing

/-- At rest every write has its answer, unless the transport crashed. -/
theorem Run.answered (run : Run (withTransport settings origin transport) t s)
    (hcrash : ∀ w, .crashed w ∉ t) (hrest : ∀ id, (s.publisher id).inFlight = none)
    {w : Stamped} (hw : .written w ∈ t) : .accepted w ∈ t ∨ .refused w ∈ t := by
  by_contra hnone
  rw [not_or] at hnone
  obtain ⟨id, flight, hin, _⟩ := run.accounted.settled w ⟨hw, hnone⟩ (hcrash w)
  have hnothing : s.view.flight id = none := hrest id
  rw [hnothing] at hin
  cases hin

end Service

end Observatory
