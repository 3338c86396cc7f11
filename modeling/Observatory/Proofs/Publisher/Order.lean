import Observatory.Proofs.Publisher.Journal

/-!
# Publishing in order

A publisher offers its events to the transport one after another, in the order of the calls, and
every call learns what came of its own event. The calls before closing stand in one line: those that
were answered, the one that is in flight, and the queue.
-/

namespace Observatory

/-! ## Reading a journal -/

namespace Moment

/-- The calls, in order. -/
def calls (t : List Moment) : List (Ticket × Event) :=
  t.filterMap fun
    | .called ticket event => some (ticket, event)
    | _ => none

/-- What was offered to the transport, in order. -/
def offers (t : List Moment) : List (Ticket × Stamped) :=
  t.filterMap fun
    | .offered ticket w => some (ticket, w)
    | _ => none

/-- The offers that are through, in order of the answers. -/
def answers (t : List Moment) : List (Ticket × Stamped) :=
  t.filterMap fun
    | .accepted ticket w | .refused ticket w | .crashed ticket w => some (ticket, w)
    | _ => none

/-- The calls before the publisher was closed. -/
def earlyCalls (t : List Moment) : List (Ticket × Event) :=
  calls (t.takeWhile (· ≠ .closed))

/-- The call that an offer is made for. -/
def call (o : Ticket × Stamped) : Ticket × Event :=
  (o.1, o.2.event)

variable {t t' : List Moment} {ticket : Ticket} {event : Event} {w : Stamped}

@[simp]
theorem calls_append (t t' : List Moment) : calls (t ++ t') = calls t ++ calls t' :=
  List.filterMap_append

@[simp]
theorem offers_append (t t' : List Moment) : offers (t ++ t') = offers t ++ offers t' :=
  List.filterMap_append

@[simp]
theorem answers_append (t t' : List Moment) : answers (t ++ t') = answers t ++ answers t' :=
  List.filterMap_append

theorem mem_answers_of_accepted (h : .accepted ticket w ∈ t) : (ticket, w) ∈ answers t :=
  List.mem_filterMap.2 ⟨_, h, rfl⟩

theorem mem_offers : (ticket, w) ∈ offers t ↔ .offered ticket w ∈ t := by
  unfold offers
  rw [List.mem_filterMap]
  constructor
  · rintro ⟨m, hm, heq⟩
    cases m with
    | offered _ _ =>
      cases heq
      exact hm
    | _ => cases heq
  · intro h
    exact ⟨_, h, rfl⟩

theorem earlyCalls_initial (t : List Moment) : earlyCalls t <+: calls t :=
  (List.takeWhile_prefix _).filterMap _

/-- Closing ends what counts as early. -/
theorem earlyCalls_append (t t' : List Moment) :
    earlyCalls (t ++ t') = if .closed ∈ t then earlyCalls t else earlyCalls t ++ earlyCalls t' := by
  unfold earlyCalls
  induction t with
  | nil => simp [calls]
  | cons m t ih =>
    by_cases hm : m = .closed
    · subst hm
      simp
    · have hmem : .closed ∈ m :: t ↔ .closed ∈ t := by simp [Ne.symm hm]
      simp only [List.cons_append, List.takeWhile_cons, decide_eq_true_eq, ne_eq, hm,
        not_false_eq_true, if_true, hmem]
      simp only [calls, List.filterMap_cons] at ih ⊢
      split
      · exact ih
      · rw [ih]
        split
        · rfl
        · rfl

end Moment

/-! ## The line -/

/-- The call of a publish in flight. -/
def InFlight.call (flight : InFlight) : Ticket × Event :=
  (flight.ticket, flight.written.event)

/-- The call of a request. -/
def Request.call (request : Request) : Ticket × Event :=
  (request.ticket, request.event)

namespace Publisher

open Moment

variable {p p' : Publisher} {last last' : Nat} {t marks : List Moment} {ticket : Ticket}
  {event : Event} {flight : InFlight}

/-- The calls that have no outcome yet, in the order in which they get one. -/
def waiting (p : Publisher) : List (Ticket × Event) :=
  (p.inFlight.map InFlight.call).toList ++ p.queue.map Request.call

theorem waiting_of_inFlight (h : p.inFlight = some flight) :
    p.waiting = flight.call :: p.queue.map Request.call := by
  simp [waiting, h]

theorem outcome?_settleCall (p : Publisher) (ticket ticket' : Ticket) (outcome : Outcome) :
    (p.settleCall ticket' outcome).outcome? ticket =
      if ticket = ticket' then some outcome else p.outcome? ticket := by
  unfold settleCall outcome?
  split
  next h => rw [h, Table.get?_insert_self]
  next h => rw [Table.get?_insert_of_ne _ _ h]

/-- The publisher with the outcome that its driver's end gives to some requests. -/
def abandon (p : Publisher) (requests : List Request) : Publisher :=
  requests.foldl
    (fun p request => p.settleCall request.ticket (.error ⟨request.event, .driverStopped⟩)) p

theorem outcome?_abandon_of_not_mem {requests : List Request}
    (h : ticket ∉ (requests.map Request.call).map Prod.fst) :
    (p.abandon requests).outcome? ticket = p.outcome? ticket := by
  induction requests generalizing p with
  | nil => rfl
  | cons request requests ih =>
    simp only [List.map_cons, List.mem_cons, not_or] at h
    change (Publisher.abandon _ requests).outcome? ticket = _
    rw [ih h.2]
    exact (outcome?_settleCall ..).trans (if_neg h.1)

theorem outcome?_abandon_of_mem {requests : List Request}
    (h : ticket ∈ (requests.map Request.call).map Prod.fst) :
    ∃ event, (ticket, event) ∈ requests.map Request.call ∧
      (p.abandon requests).outcome? ticket = some (.error ⟨event, .driverStopped⟩) := by
  induction requests generalizing p with
  | nil => cases h
  | cons request requests ih =>
    by_cases hlater : ticket ∈ (requests.map Request.call).map Prod.fst
    · obtain ⟨event, hmem, houtcome⟩ := ih (p := p.settleCall request.ticket _) hlater
      exact ⟨event, List.mem_cons_of_mem _ hmem, houtcome⟩
    · rw [List.map_cons, List.map_cons, List.mem_cons] at h
      obtain rfl : ticket = request.ticket := h.resolve_right hlater
      refine ⟨request.event, List.mem_cons_self, ?_⟩
      change (Publisher.abandon _ requests).outcome? request.ticket = _
      rw [outcome?_abandon_of_not_mem hlater, outcome?_settleCall, if_pos rfl]

theorem abandon_eq (p : Publisher) (requests : List Request) :
    p.abandon requests = { p with outcomes := (p.abandon requests).outcomes } := by
  induction requests generalizing p with
  | nil => rfl
  | cons request requests ih => exact ih _

/-- A crash leaves nothing to wait for, and gives an outcome to all that waited. -/
theorem crash_eq (p : Publisher) (flight : InFlight) :
    p.crash flight =
      { p with
        queue := []
        inFlight := none
        stopped := true
        outcomes := ((p.settleCall flight.ticket
          (.error ⟨flight.written.event, .driverStopped⟩)).abandon p.queue).outcomes } := by
  have hqueue : (p.settleCall flight.ticket
      (.error ⟨flight.written.event, .driverStopped⟩)).queue = p.queue := rfl
  change { Publisher.abandon _ _ with queue := [], inFlight := none, stopped := true } = _
  rw [abandon_eq, hqueue]
  rfl

theorem outcome?_crash (p : Publisher) (flight : InFlight) (ticket : Ticket) :
    (p.crash flight).outcome? ticket = ((p.settleCall flight.ticket
      (.error ⟨flight.written.event, .driverStopped⟩)).abandon p.queue).outcome? ticket := by
  rw [crash_eq]
  rfl

/-- Only calls that wait and new ones get an outcome. -/
theorem Move.outcome?_eq (h : p.Move last last' marks p')
    (hwait : ticket ∉ p.waiting.map Prod.fst) (hnew : ∀ event, (ticket, event) ∉ calls marks) :
    p'.outcome? ticket = p.outcome? ticket := by
  have hflight : ∀ flight, p.inFlight = some flight →
      ticket ≠ flight.ticket ∧ ticket ∉ (p.queue.map Request.call).map Prod.fst := by
    intro flight hflight
    rwa [waiting_of_inFlight hflight, List.map_cons, List.mem_cons, not_or] at hwait
  cases h with
  | rest hlast => rfl
  | close hlast => rfl
  | enqueue event hlast hopen hrunning => rfl
  | turnAway event reason hlast hreason hshut =>
    refine (outcome?_settleCall ..).trans (if_neg ?_)
    rintro rfl
    exact hnew event List.mem_cons_self
  | offer request rest flight hlast hrunning hfree hqueue hticket hwritten => rfl
  | accept flight hlast hrunning hin =>
    exact (outcome?_settleCall ..).trans (if_neg (hflight flight hin).1)
  | refuse flight error hlast hrunning hin =>
    exact (outcome?_settleCall ..).trans (if_neg (hflight flight hin).1)
  | crash flight hlast hrunning hin =>
    obtain ⟨hticket, hqueue⟩ := hflight flight hin
    rw [outcome?_crash, outcome?_abandon_of_not_mem hqueue, outcome?_settleCall, if_neg hticket]

theorem Move.ticket_eq (h : p.Move last last' marks p') (hnew : (ticket, event) ∈ calls marks) :
    ticket = p.nextTicket := by
  cases h with
  | enqueue | turnAway =>
    cases List.mem_singleton.1 hnew
    rfl
  | _ => cases hnew

theorem Move.nextTicket_eq (h : p.Move last last' marks p') :
    p'.nextTicket = p.nextTicket + (calls marks).length := by
  cases h with
  | crash => rw [crash_eq]; rfl
  | _ => rfl

/-- Calls join the line at its end, and answers take them off its front. -/
theorem Move.line (h : p.Move last last' marks p') (hrunning : p'.stopped = false) :
    p.waiting ++ (if p.closed then [] else calls marks) =
      (answers marks).map call ++ p'.waiting := by
  cases h with
  | rest hlast => simp [answers, calls]
  | close hlast => simp [answers, calls, waiting, Publisher.close]
  | enqueue event hlast hopen _ => simp [answers, calls, waiting, hopen, Request.call]
  | turnAway event reason hlast hreason hshut =>
    have hclosed : p.closed = true :=
      hshut.resolve_right fun hstopped => Bool.false_ne_true (hrunning.symm.trans hstopped)
    simp [answers, waiting, hclosed, settleCall]
  | offer request rest flight hlast _ hfree hqueue hticket hwritten =>
    simp [answers, calls, waiting, hfree, hqueue, hticket, hwritten, Request.call, InFlight.call]
  | accept flight hlast _ hin =>
    simp [answers, calls, waiting, hin, call, InFlight.call, settleCall]
  | refuse flight error hlast _ hin =>
    simp [answers, calls, waiting, hin, call, InFlight.call, settleCall]
  | crash flight hlast _ hin =>
    rw [crash_eq] at hrunning
    cases hrunning

/-- Only who is at the front of the line is answered. -/
theorem Move.answers_initial (h : p.Move last last' marks p') :
    (answers marks).map call <+: p.waiting := by
  cases h with
  | accept flight hlast _ hin | refuse flight _ hlast _ hin | crash flight hlast _ hin =>
    rw [waiting_of_inFlight hin]
    exact List.cons_prefix_cons.2 ⟨rfl, List.nil_prefix⟩
  | _ => exact List.nil_prefix

/-- The answer is to the offer in flight. -/
theorem Move.offered (h : p.Move last last' marks p') :
    (p.inFlight.map fun flight => (flight.ticket, flight.written)).toList ++ offers marks =
      answers marks ++ (p'.inFlight.map fun flight => (flight.ticket, flight.written)).toList := by
  cases h with
  | offer request rest flight hlast _ hfree hqueue hticket hwritten =>
    simp [offers, answers, hfree]
  | accept flight hlast _ hin => simp [offers, answers, hin]
  | refuse flight error hlast _ hin => simp [offers, answers, hin]
  | crash flight hlast _ hin => simp [offers, answers, hin, crash_eq]
  | _ => simp [offers, answers, Publisher.close, settleCall]

/-- Who waits goes on waiting, or gets the answer to what it published. -/
theorem Move.settles (h : p.Move last last' marks p') (hwait : (ticket, event) ∈ p.waiting)
    (hapart : (p.waiting.map Prod.fst).Nodup) :
    (ticket, event) ∈ p'.waiting ∨
      (∃ w, .accepted ticket w ∈ marks ∧ w.event = event ∧
        p'.outcome? ticket = some (.ok ())) ∨
      ∃ reason, (∀ w, .accepted ticket w ∉ marks) ∧
        p'.outcome? ticket = some (.error ⟨event, reason⟩) := by
  cases h with
  | rest hlast => exact .inl hwait
  | close hlast => exact .inl hwait
  | enqueue e hlast hopen hrunning =>
    refine .inl ?_
    simp only [waiting, List.map_append, ← List.append_assoc]
    exact List.mem_append_left _ hwait
  | turnAway e reason hlast hreason hshut => exact .inl hwait
  | offer request rest flight hlast hrunning hfree hqueue hticket hwritten =>
    refine .inl ?_
    simpa [waiting, hfree, hqueue, Request.call, InFlight.call, hticket, hwritten] using hwait
  | accept flight hlast hrunning hin =>
    rw [waiting_of_inFlight hin] at hwait
    rcases List.mem_cons.1 hwait with heq | hqueue
    · cases heq
      exact .inr (.inl ⟨flight.written, List.mem_cons_self, rfl,
        (outcome?_settleCall ..).trans (if_pos rfl)⟩)
    · exact .inl hqueue
  | refuse flight error hlast hrunning hin =>
    rw [waiting_of_inFlight hin] at hwait
    rcases List.mem_cons.1 hwait with heq | hqueue
    · cases heq
      exact .inr (.inr ⟨_, by simp, (outcome?_settleCall ..).trans (if_pos rfl)⟩)
    · exact .inl hqueue
  | crash flight hlast hrunning hin =>
    refine .inr (.inr ⟨.driverStopped, by simp, ?_⟩)
    rw [waiting_of_inFlight hin] at hwait hapart
    rw [outcome?_crash]
    -- The queue is settled last, but the event in flight has a ticket of its own.
    have hinj : ∀ {e}, (ticket, e) ∈ p.queue.map Request.call →
        (ticket, event) = (ticket, e) := fun hmem =>
      List.inj_on_of_nodup_map hapart hwait (List.mem_cons_of_mem _ hmem) rfl
    by_cases hlater : ticket ∈ (p.queue.map Request.call).map Prod.fst
    · obtain ⟨e, hmem, houtcome⟩ := outcome?_abandon_of_mem hlater
      cases hinj hmem
      exact houtcome
    · rw [outcome?_abandon_of_not_mem hlater]
      rcases List.mem_cons.1 hwait with heq | hqueue
      · cases heq
        exact (outcome?_settleCall ..).trans (if_pos rfl)
      · exact absurd (List.mem_map_of_mem hqueue) hlater

/-- What has become of a call. -/
inductive Fate (t : List Moment) (p : Publisher) (ticket : Ticket) (event : Event) : Prop where
  | waiting (hwait : (ticket, event) ∈ p.waiting)
  | accepted (w : Stamped) (hmark : .accepted ticket w ∈ t) (hevent : w.event = event)
      (houtcome : p.outcome? ticket = some (.ok ()))
  | failed (reason : FailureReason) (hmark : ∀ w, .accepted ticket w ∉ t)
      (houtcome : p.outcome? ticket = some (.error ⟨event, reason⟩))

/-- What a publisher keeps of its journal. -/
structure Orderly (t : List Moment) (p : Publisher) (last : Nat) : Prop where
  tickets : (calls t).map Prod.fst = List.range p.nextTicket
  closed : p.closed = true ↔ .closed ∈ t
  line : p.stopped = false → earlyCalls t = (answers t).map call ++ p.waiting
  halted : p.stopped = true → p.waiting = [] ∧ ∃ ticket w, .crashed ticket w ∈ t
  answered : (answers t).map call <+: earlyCalls t
  flight : offers t =
    answers t ++ (p.inFlight.map fun flight => (flight.ticket, flight.written)).toList
  ascending : (offers t).Pairwise fun a b => a.2.stamp < b.2.stamp
  bounded : ∀ o ∈ offers t, o.2.stamp ≤ last
  turns : ∀ before ticket w, before ++ [.offered ticket w] <+: t → answers before = offers before
  undecided : ∀ call ∈ p.waiting, p.outcome? call.1 = none
  unused : ∀ ticket, p.nextTicket ≤ ticket → p.outcome? ticket = none
  late : ∀ ticket event, (ticket, event) ∈ calls t → (ticket, event) ∉ earlyCalls t →
    p.outcome? ticket = some (.error ⟨event, .publisherClosed⟩)
  fates : ∀ ticket event, (ticket, event) ∈ calls t → Fate t p ticket event

theorem orderly_start : Orderly [] .start 0 where
  tickets := rfl
  closed := by simp [Publisher.start]
  line _ := rfl
  halted h := nomatch h
  answered := List.nil_prefix
  flight := rfl
  ascending := .nil
  bounded _ h := nomatch h
  turns before ticket w h := by
    have hlength := h.length_le
    simp at hlength
  undecided _ h := nomatch h
  unused _ _ := rfl
  late _ _ h := nomatch h
  fates _ _ h := nomatch h

namespace Orderly

theorem nodup_tickets (h : Orderly t p last) : ((calls t).map Prod.fst).Nodup :=
  h.tickets ▸ List.nodup_range

/-- No two calls have the same ticket. -/
theorem event_eq (h : Orderly t p last) {event' : Event} (hcall : (ticket, event) ∈ calls t)
    (hcall' : (ticket, event') ∈ calls t) : event = event' :=
  congrArg Prod.snd (List.inj_on_of_nodup_map h.nodup_tickets hcall hcall' rfl)

theorem lt_nextTicket (h : Orderly t p last) (hcall : (ticket, event) ∈ calls t) :
    ticket < p.nextTicket := by
  rw [← List.mem_range, ← h.tickets]
  exact List.mem_map_of_mem hcall

theorem mem_calls_of_answered (h : Orderly t p last) {o : Ticket × Stamped}
    (ho : o ∈ answers t) : call o ∈ calls t :=
  (earlyCalls_initial t).mem (h.answered.mem (List.mem_map_of_mem ho))

/-- Only a publisher whose driver runs keeps someone waiting. -/
theorem running_of_mem (h : Orderly t p last) (hwait : (ticket, event) ∈ p.waiting) :
    p.stopped = false := by
  by_contra hstopped
  rw [(h.halted (by simpa using hstopped)).1] at hwait
  cases hwait

/-- The calls before closing have different tickets, the answered ones and those that wait. -/
theorem nodup_line (h : Orderly t p last) (hrunning : p.stopped = false) :
    (((answers t).map call ++ p.waiting).map Prod.fst).Nodup := by
  rw [← h.line hrunning]
  exact h.nodup_tickets.sublist ((earlyCalls_initial t).sublist.map _)

theorem mem_early_of_waiting (h : Orderly t p last) (hwait : (ticket, event) ∈ p.waiting) :
    (ticket, event) ∈ earlyCalls t := by
  rw [h.line (h.running_of_mem hwait)]
  exact List.mem_append_right _ hwait

theorem mem_calls_of_waiting (h : Orderly t p last) (hwait : (ticket, event) ∈ p.waiting) :
    (ticket, event) ∈ calls t :=
  (earlyCalls_initial t).mem (h.mem_early_of_waiting hwait)

theorem nodup_waiting (h : Orderly t p last) : (p.waiting.map Prod.fst).Nodup := by
  cases hstopped : p.stopped with
  | true =>
    rw [(h.halted hstopped).1]
    exact List.nodup_nil
  | false =>
    have hnodup := h.nodup_line hstopped
    rw [List.map_append] at hnodup
    exact hnodup.of_append_right

/-- Who waits was not answered. -/
theorem not_accepted_of_waiting (h : Orderly t p last) (hwait : (ticket, event) ∈ p.waiting)
    (w : Stamped) : .accepted ticket w ∉ t := by
  intro hmark
  have hnodup := h.nodup_line (h.running_of_mem hwait)
  rw [List.map_append, List.nodup_append] at hnodup
  have hanswer : (ticket, w.event) ∈ (answers t).map call :=
    List.mem_map.2 ⟨_, mem_answers_of_accepted hmark, rfl⟩
  exact hnodup.2.2 _ (List.mem_map_of_mem hanswer) _ (List.mem_map_of_mem hwait) rfl

/-- An outcome is there to stay. -/
theorem outcome?_stays (h : Orderly t p last) (hmove : p.Move last last' marks p')
    {outcome : Outcome} (houtcome : p.outcome? ticket = some outcome) :
    p'.outcome? ticket = some outcome := by
  rw [← houtcome]
  refine hmove.outcome?_eq (fun hwait => ?_) (fun event hnew => ?_)
  · obtain ⟨call, hcall, rfl⟩ := List.mem_map.1 hwait
    rw [h.undecided call hcall] at houtcome
    cases houtcome
  · rw [h.unused ticket (hmove.ticket_eq hnew).ge] at houtcome
    cases houtcome

theorem earlyCalls_step (h : Orderly t p last) (hmove : p.Move last last' marks p') :
    earlyCalls (t ++ marks) = earlyCalls t ++ if p.closed then [] else calls marks := by
  have hmarks : earlyCalls marks = calls marks := by cases hmove <;> rfl
  rw [earlyCalls_append, hmarks]
  simp only [← h.closed]
  split <;> simp

theorem tickets_step (h : Orderly t p last) (hmove : p.Move last last' marks p') :
    (calls (t ++ marks)).map Prod.fst = List.range p'.nextTicket := by
  rw [calls_append, List.map_append, h.tickets]
  cases hmove with
  | enqueue | turnAway => exact List.range_succ.symm
  | crash => rw [crash_eq]; exact List.append_nil _
  | _ => exact List.append_nil _

theorem closed_step (h : Orderly t p last) (hmove : p.Move last last' marks p') :
    p'.closed = true ↔ .closed ∈ t ++ marks := by
  rw [List.mem_append, ← h.closed]
  cases hmove with
  | close => simp [Publisher.close]
  | crash => simp [crash_eq]
  | _ => simp [settleCall]

theorem line_step (h : Orderly t p last) (hmove : p.Move last last' marks p')
    (hrunning : p'.stopped = false) :
    earlyCalls (t ++ marks) = (answers (t ++ marks)).map call ++ p'.waiting := by
  have hbefore : p.stopped = false := by
    cases hmove with
    | crash => rw [crash_eq] at hrunning; cases hrunning
    | _ => exact hrunning
  rw [h.earlyCalls_step hmove, h.line hbefore, List.append_assoc, hmove.line hrunning,
    answers_append, List.map_append, List.append_assoc]

theorem halted_step (h : Orderly t p last) (hmove : p.Move last last' marks p')
    (hstopped : p'.stopped = true) :
    p'.waiting = [] ∧ ∃ ticket w, .crashed ticket w ∈ t ++ marks := by
  have hbefore : p.stopped = true → p'.waiting = [] →
      p'.waiting = [] ∧ ∃ ticket w, .crashed ticket w ∈ t ++ marks := by
    intro hstopped hnone
    obtain ⟨-, ticket, w, hcrash⟩ := h.halted hstopped
    exact ⟨hnone, ticket, w, List.mem_append_left _ hcrash⟩
  cases hmove with
  | rest hlast => exact hbefore hstopped (h.halted hstopped).1
  | close hlast => exact hbefore hstopped (h.halted hstopped).1
  | turnAway event reason hlast hreason hshut => exact hbefore hstopped (h.halted hstopped).1
  | crash flight hlast _ hin =>
    rw [crash_eq]
    exact ⟨rfl, flight.ticket, flight.written, by simp⟩
  | enqueue event hlast hopen hrunning => exact absurd hstopped (by simp [hrunning])
  | offer request rest flight hlast hrunning => exact absurd hstopped (by simp [hrunning])
  | accept flight hlast hrunning => exact absurd hstopped (by simp [hrunning, settleCall])
  | refuse flight error hlast hrunning => exact absurd hstopped (by simp [hrunning, settleCall])

theorem flight_step (h : Orderly t p last) (hmove : p.Move last last' marks p') :
    offers (t ++ marks) = answers (t ++ marks) ++
      (p'.inFlight.map fun flight => (flight.ticket, flight.written)).toList := by
  rw [offers_append, answers_append, h.flight, List.append_assoc, List.append_assoc, hmove.offered]

theorem answered_step (h : Orderly t p last) (hmove : p.Move last last' marks p') :
    (answers (t ++ marks)).map call <+: earlyCalls (t ++ marks) := by
  rw [h.earlyCalls_step hmove, answers_append, List.map_append]
  have hmore := hmove.answers_initial
  -- The driver answers who waits, and nobody waits once it has stopped.
  cases hstopped : p.stopped with
  | true =>
    rw [(h.halted hstopped).1, List.prefix_nil] at hmore
    rw [hmore, List.append_nil]
    exact h.answered.trans (List.prefix_append _ _)
  | false =>
    rw [h.line hstopped, List.append_assoc, List.prefix_append_right_inj]
    exact hmore.trans (List.prefix_append _ _)

theorem ascending_step (h : Orderly t p last) (hmove : p.Move last last' marks p') :
    (offers (t ++ marks)).Pairwise fun a b => a.2.stamp < b.2.stamp := by
  rw [offers_append]
  cases hmove with
  | offer request rest flight hlast _ hfree hqueue hticket hwritten =>
    refine List.pairwise_append.2 ⟨h.ascending, List.pairwise_singleton _ _, ?_⟩
    intro a ha b hb
    cases List.mem_singleton.1 hb
    rw [hwritten]
    exact Nat.lt_succ_of_le (h.bounded a ha)
  | _ => simpa [offers] using h.ascending

theorem bounded_step (h : Orderly t p last) (hmove : p.Move last last' marks p')
    {o : Ticket × Stamped} (ho : o ∈ offers (t ++ marks)) : o.2.stamp ≤ last' := by
  rw [offers_append, List.mem_append] at ho
  cases hmove with
  | offer request rest flight hlast _ hfree hqueue hticket hwritten =>
    rcases ho with ho | ho
    · exact hlast ▸ Nat.le_succ_of_le (h.bounded o ho)
    · cases List.mem_singleton.1 ho
      rw [hwritten, hlast]
  | _ => exact (h.bounded o (ho.resolve_right (by simp [offers]))).trans ‹last ≤ last'›

theorem turns_step (h : Orderly t p last) (hmove : p.Move last last' marks p')
    {before : List Moment} {w : Stamped} (hoffer : before ++ [.offered ticket w] <+: t ++ marks) :
    answers before = offers before := by
  -- An offer that was not there before is the last moment of the journal.
  have hlater : ∀ m, marks = [m] → before ++ [.offered ticket w] <+: t ∨
      before = t ∧ m = .offered ticket w := by
    rintro m rfl
    refine (List.prefix_concat_iff.1 hoffer).symm.imp_right fun heq => ?_
    simpa [eq_comm] using List.append_inj' heq rfl
  cases hmove with
  | rest hlast =>
    rw [List.append_nil] at hoffer
    exact h.turns before ticket w hoffer
  | offer request rest flight hlast _ hfree hqueue hticket hwritten =>
    rcases hlater _ rfl with hbefore | ⟨rfl, _⟩
    · exact h.turns before ticket w hbefore
    · simpa [hfree] using h.flight.symm
  | _ =>
    rcases hlater _ rfl with hbefore | ⟨_, heq⟩
    · exact h.turns before ticket w hbefore
    · cases heq

theorem unused_step (h : Orderly t p last) (hmove : p.Move last last' marks p')
    (hticket : p'.nextTicket ≤ ticket) : p'.outcome? ticket = none := by
  rw [hmove.nextTicket_eq] at hticket
  have hbefore : p.nextTicket ≤ ticket := (Nat.le_add_right _ _).trans hticket
  rw [hmove.outcome?_eq, h.unused ticket hbefore]
  · intro hwait
    obtain ⟨⟨_, event⟩, hcall, rfl⟩ := List.mem_map.1 hwait
    exact hbefore.not_gt (h.lt_nextTicket (h.mem_calls_of_waiting hcall))
  · intro event hnew
    rw [hmove.ticket_eq hnew] at hticket
    exact hticket.not_gt (Nat.lt_add_of_pos_right (List.length_pos_of_mem hnew))

theorem undecided_step (h : Orderly t p last) (hmove : p.Move last last' marks p')
    {call : Ticket × Event} (hcall : call ∈ p'.waiting) : p'.outcome? call.1 = none := by
  -- An answer decides the call that it is for, and those in the queue have other tickets.
  have hqueue : ∀ flight, p.inFlight = some flight → ∀ outcome, call ∈ p.queue.map Request.call →
      (p.settleCall flight.ticket outcome).outcome? call.1 = none := by
    intro flight hin outcome hcall
    have hnodup := h.nodup_waiting
    rw [waiting_of_inFlight hin, List.map_cons, List.nodup_cons] at hnodup
    have hne : call.1 ≠ flight.ticket := by
      intro heq
      exact hnodup.1 (List.mem_map.2 ⟨call, hcall, heq⟩)
    rw [outcome?_settleCall, if_neg hne]
    refine h.undecided call ?_
    rw [waiting_of_inFlight hin]
    exact List.mem_cons_of_mem _ hcall
  cases hmove with
  | rest hlast => exact h.undecided call hcall
  | close hlast => exact h.undecided call hcall
  | enqueue event hlast hopen hrunning =>
    simp only [waiting, List.map_append, ← List.append_assoc] at hcall
    rcases List.mem_append.1 hcall with hcall | hcall
    · exact h.undecided call hcall
    · cases List.mem_singleton.1 hcall
      exact h.unused p.nextTicket le_rfl
  | turnAway event reason hlast hreason hshut =>
    obtain ⟨ticket, _⟩ := call
    have hne := (h.lt_nextTicket (h.mem_calls_of_waiting hcall)).ne
    exact ((outcome?_settleCall ..).trans (if_neg hne)).trans (h.undecided _ hcall)
  | offer request rest flight hlast hrunning hfree hqueue' hticket hwritten =>
    refine h.undecided call ?_
    simpa [waiting, hfree, hqueue', Request.call, InFlight.call, hticket, hwritten] using hcall
  | accept flight hlast hrunning hin => exact hqueue flight hin _ hcall
  | refuse flight error hlast hrunning hin => exact hqueue flight hin _ hcall
  | crash flight hlast hrunning hin =>
    rw [crash_eq] at hcall
    cases hcall

theorem late_step (h : Orderly t p last) (hmove : p.Move last last' marks p')
    (hcall : (ticket, event) ∈ calls (t ++ marks))
    (hlate : (ticket, event) ∉ earlyCalls (t ++ marks)) :
    p'.outcome? ticket = some (.error ⟨event, .publisherClosed⟩) := by
  rw [h.earlyCalls_step hmove, List.mem_append, not_or] at hlate
  rw [calls_append, List.mem_append] at hcall
  rcases hcall with hcall | hcall
  · exact h.outcome?_stays hmove (h.late ticket event hcall hlate.1)
  · have hclosed : p.closed = true := by
      by_contra hopen
      exact hlate.2 (by rwa [if_neg hopen])
    cases hmove with
    | enqueue _ hlast hopen hrunning => exact absurd hclosed (by simp [hopen])
    | turnAway _ reason hlast hreason hshut =>
      cases List.mem_singleton.1 hcall
      rw [if_pos hclosed] at hreason
      rw [← hreason]
      exact (outcome?_settleCall ..).trans (if_pos rfl)
    | _ => cases hcall

theorem fates_step (h : Orderly t p last) (hmove : p.Move last last' marks p')
    (hcall : (ticket, event) ∈ calls (t ++ marks)) : Fate (t ++ marks) p' ticket event := by
  rw [calls_append, List.mem_append] at hcall
  rcases hcall with hcall | hcall
  · cases h.fates ticket event hcall with
    | accepted w hmark hevent houtcome =>
      exact .accepted w (List.mem_append_left _ hmark) hevent (h.outcome?_stays hmove houtcome)
    | failed reason hmark houtcome =>
      refine .failed reason (fun w hin => ?_) (h.outcome?_stays hmove houtcome)
      -- Only who waits is accepted, and whoever failed waits no more.
      have hnew := (List.mem_append.1 hin).resolve_left (hmark w)
      have hwait := hmove.answers_initial.mem
        (List.mem_map_of_mem (f := call) (mem_answers_of_accepted hnew))
      have hnone : p.outcome? ticket = none := h.undecided _ hwait
      rw [hnone] at houtcome
      cases houtcome
    | waiting hwait =>
      rcases hmove.settles hwait h.nodup_waiting with hwait' | ⟨w, hmark, hevent, houtcome⟩ |
        ⟨reason, hmark, houtcome⟩
      · exact .waiting hwait'
      · exact .accepted w (List.mem_append_right _ hmark) hevent houtcome
      · refine .failed reason (fun w hin => ?_) houtcome
        exact (List.mem_append.1 hin).elim (h.not_accepted_of_waiting hwait w) (hmark w)
  · have hfresh : ∀ w, .accepted ticket w ∉ t := fun w hmark =>
      (h.lt_nextTicket (h.mem_calls_of_answered (mem_answers_of_accepted hmark))).ne
        (hmove.ticket_eq hcall)
    cases hmove with
    | enqueue _ hlast hopen hrunning =>
      cases List.mem_singleton.1 hcall
      exact .waiting (by simp [waiting, Request.call])
    | turnAway _ reason hlast hreason hshut =>
      cases List.mem_singleton.1 hcall
      exact .failed reason (by simpa using hfresh) ((outcome?_settleCall ..).trans (if_pos rfl))
    | _ => cases hcall

theorem step (h : Orderly t p last) (hmove : p.Move last last' marks p') :
    Orderly (t ++ marks) p' last' where
  tickets := h.tickets_step hmove
  closed := h.closed_step hmove
  line := h.line_step hmove
  halted := h.halted_step hmove
  answered := h.answered_step hmove
  flight := h.flight_step hmove
  ascending := h.ascending_step hmove
  bounded _ := h.bounded_step hmove
  turns _ _ _ := h.turns_step hmove
  undecided _ := h.undecided_step hmove
  unused _ := h.unused_step hmove
  late _ _ := h.late_step hmove
  fates _ _ := h.fates_step hmove

end Orderly

end Publisher

end Observatory
