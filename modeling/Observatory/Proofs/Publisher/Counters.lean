import Observatory.Proofs.Publisher.Calls
import Observatory.Proofs.Subscription.Frame

/-!
# Counting publishes

A service counts the publishes that its transport took and those that it refused. A call that is
turned away at once, or that loses its driver, is counted nowhere: so the counter of failures is
short by just these calls.
-/

namespace Observatory

open Moment Publisher

/-! ## Journals of all publishers -/

namespace Service

variable {s s' : Service} {a : Action} {id id' : PublisherId}

/-- The publisher to which an action can do something. -/
def touched? (s : Service) : Action → Option PublisherId
  | .publish id _ | .closePublisher id | .step (.publisher id) => some id
  | .shutdown => some .shared
  | .step (.task name) => (s.tasks.get? name).map TaskEntry.publisher
  | _ => none

/-- What an action does to publishers. -/
def journal (s : Service) (a : Action) : List (PublisherId × Moment) :=
  (s.touched? a).elim [] fun id => (s.moments id a).map (Prod.mk id)

theorem moments_of_untouched (h : s.touched? a ≠ some id) : s.moments id a = [] := by
  cases a with
  | publish id' event => exact if_neg fun heq => h (congrArg some heq)
  | closePublisher id' => exact if_neg fun heq => h (congrArg some heq)
  | shutdown => exact if_neg fun heq => h (congrArg some heq.1)
  | step actor =>
    cases actor with
    | publisher id' => exact if_neg fun heq => h (congrArg some heq)
    | task name =>
      simp only [touched?] at h
      simp only [moments]
      cases hentry : s.tasks.get? name with
      | none => rfl
      | some entry =>
        rw [hentry] at h
        exact if_neg fun heq => h (congrArg some heq)
    | subscription name => rfl
  | _ => rfl

/-- The calls of a journal, in order. -/
def callsOf (t : List (PublisherId × Moment)) : List (PublisherId × Ticket) :=
  t.filterMap fun (id, moment) =>
    match moment with
    | .called ticket _ => some (id, ticket)
    | _ => none

theorem callsOf_append (t t' : List (PublisherId × Moment)) :
    callsOf (t ++ t') = callsOf t ++ callsOf t' :=
  List.filterMap_append

theorem callsOf_journal (htouched : s.touched? a = some id) :
    callsOf (s.journal a) = (calls (s.moments id a)).map fun call => (id, call.1) := by
  rw [journal, htouched, Option.elim_some, callsOf, calls, List.filterMap_map, List.map_filterMap]
  congr 1
  funext moment
  cases moment <;> rfl

end Service

/-! ## Grades -/

/-- Which answers of the transport are counted. -/
structure Grade where
  accepted : Bool
  refused : Bool

namespace Grade

/-- Whether a moment is an answer that is counted. -/
def ofMoment (g : Grade) : Moment → Bool
  | .accepted _ _ => g.accepted
  | .refused _ _ => g.refused
  | _ => false

/-- Whether an outcome is due to an answer that is counted. -/
def ofOutcome (g : Grade) : Outcome → Bool
  | .ok () => g.accepted
  | .error ⟨_, .transport _⟩ => g.refused
  | .error _ => false

theorem countP_singleton (g : Grade) (moment : Moment) :
    [moment].countP g.ofMoment = (g.ofMoment moment).toNat := by
  cases h : g.ofMoment moment <;> simp [h]

end Grade

namespace Publisher

variable {p p' : Publisher} {last last' : Nat} {t marks : List Moment}

theorem Move.eq_of_nil (h : p.Move last last' [] p') : p' = p := by
  cases h
  rfl

theorem Move.calls_cases (h : p.Move last last' marks p') :
    calls marks = [] ∨ ∃ event, calls marks = [(p.nextTicket, event)] := by
  cases h with
  | enqueue event | turnAway event => exact .inr ⟨event, rfl⟩
  | _ => exact .inl rfl

/-- A ticket is used once its call is made. -/
theorem Move.lt_nextTicket_iff (h : p.Move last last' marks p') (ticket : Ticket) :
    ticket < p'.nextTicket ↔ ticket < p.nextTicket ∨ ticket ∈ (calls marks).map Prod.fst := by
  cases h with
  | enqueue | turnAway =>
    simp only [calls, List.filterMap_cons, List.filterMap_nil, List.map_cons, List.map_nil,
      List.mem_singleton]
    exact Nat.lt_succ_iff_lt_or_eq
  | crash => simp [crash_eq, calls]
  | _ => simp [calls, Publisher.close, settleCall]

/-- An answer that is counted gives its outcome to one call. All other calls keep their grade, and
all calls do where no answer is counted. -/
def Graded (g : Grade) (p : Publisher) (marks : List Moment) (p' : Publisher) : Prop :=
  (marks.countP g.ofMoment = 0 ∧
      ∀ ticket, (p'.outcome? ticket).any g.ofOutcome = (p.outcome? ticket).any g.ofOutcome) ∨
    ∃ ticket, marks.countP g.ofMoment = 1 ∧ calls marks = [] ∧ ticket < p.nextTicket ∧
      (p.outcome? ticket).any g.ofOutcome = false ∧
      (p'.outcome? ticket).any g.ofOutcome = true ∧
      ∀ other ≠ ticket, p'.outcome? other = p.outcome? other

theorem Graded.answer {g : Grade} {flight : InFlight} {moment : Moment} {outcome : Outcome}
    (ho : Orderly t p last) (hflight : p.inFlight = some flight)
    (hgrade : g.ofMoment moment = g.ofOutcome outcome) (hcalls : calls [moment] = [])
    (hsettled : ∀ ticket, p'.outcome? ticket =
      if ticket = flight.ticket then some outcome else p.outcome? ticket) :
    Graded g p [moment] p' := by
  have hwait : flight.call ∈ p.waiting := by
    rw [waiting_of_inFlight hflight]
    exact List.mem_cons_self
  have hnone : p.outcome? flight.ticket = none := ho.undecided flight.call hwait
  cases hcounted : g.ofOutcome outcome with
  | false =>
    refine .inl ⟨by simp [hgrade, hcounted], fun ticket => ?_⟩
    rw [hsettled]
    split
    next heq =>
      rw [heq, hnone]
      exact hcounted
    next => rfl
  | true =>
    refine .inr ⟨flight.ticket, by simp [hgrade, hcounted], hcalls,
      ho.lt_nextTicket (ho.mem_calls_of_waiting hwait), by rw [hnone]; rfl, ?_, ?_⟩
    · rw [hsettled, if_pos rfl]
      exact hcounted
    · intro other hne
      rw [hsettled, if_neg hne]

theorem outcome?_crash_of_mem {flight : InFlight} {ticket : Ticket}
    (hflight : p.inFlight = some flight) (h : ticket ∈ p.waiting.map Prod.fst) :
    ∃ event, (p.crash flight).outcome? ticket = some (.error ⟨event, .driverStopped⟩) := by
  rw [waiting_of_inFlight hflight, List.map_cons, List.mem_cons] at h
  rw [outcome?_crash]
  by_cases hqueue : ticket ∈ (p.queue.map Request.call).map Prod.fst
  · obtain ⟨event, -, houtcome⟩ := outcome?_abandon_of_mem hqueue
    exact ⟨event, houtcome⟩
  · have hticket : ticket = flight.ticket := h.resolve_right hqueue
    rw [outcome?_abandon_of_not_mem hqueue, outcome?_settleCall, if_pos hticket]
    exact ⟨_, rfl⟩

theorem Move.graded (h : p.Move last last' marks p') (ho : Orderly t p last) (g : Grade) :
    Graded g p marks p' := by
  cases h with
  | rest | close | enqueue | offer => exact .inl ⟨rfl, fun _ => rfl⟩
  | turnAway event reason hlast hreason hshut =>
    refine .inl ⟨rfl, fun ticket => ?_⟩
    rw [outcome?_settleCall]
    split
    next heq =>
      rw [heq, ho.unused p.nextTicket le_rfl, hreason]
      split <;> rfl
    next => rfl
  | accept flight hlast hrunning hflight =>
    refine .answer ho hflight ?_ rfl fun ticket => outcome?_settleCall ..
    rfl
  | refuse flight error hlast hrunning hflight =>
    refine .answer ho hflight ?_ rfl fun ticket => outcome?_settleCall ..
    rfl
  | crash flight hlast hrunning hflight =>
    -- The driver takes all waiting calls with it, and none of them gets an answer that counts.
    refine .inl ⟨rfl, fun ticket => ?_⟩
    by_cases hwait : ticket ∈ p.waiting.map Prod.fst
    · obtain ⟨event, houtcome⟩ := outcome?_crash_of_mem hflight hwait
      obtain ⟨call, hcall, rfl⟩ := List.mem_map.1 hwait
      rw [houtcome, ho.undecided call hcall]
      rfl
    · have hcrash : p.Move last last [.crashed flight.ticket flight.written] (p.crash flight) :=
        .crash flight le_rfl hrunning hflight
      rw [hcrash.outcome?_eq hwait fun event hnew => by cases hnew]

end Publisher

/-! ## Counters -/

/-- The counters of publishes. -/
def Hub.counts (h : Hub) : Nat × Nat :=
  (h.metrics.published, h.metrics.failures)

/-- What the service has counted of some answers. -/
def Hub.counted (h : Hub) (g : Grade) : Nat :=
  (if g.accepted then h.counts.1 else 0) + if g.refused then h.counts.2 else 0

theorem Hub.counted_of_still {h h' : Hub} (heq : h'.still = h.still) (g : Grade) :
    h'.counted g = h.counted g := by
  have hcounts : h'.counts = h.counts := congrArg (fun part => part.2.2.2) heq
  rw [counted, counted, hcounts]

namespace Publisher

variable {p p' : Publisher} {h h' : Hub} {flight : InFlight}

theorem counted_accept (p : Publisher) (h : Hub) (flight : InFlight) (g : Grade) :
    (p.accept h flight).2.counted g = h.counted g + g.accepted.toNat := by
  obtain ⟨accepted, refused⟩ := g
  cases accepted with
  | false => rfl
  | true => exact Nat.add_right_comm _ _ _

theorem counted_refuse (p : Publisher) (h : Hub) (flight : InFlight) (error : TransportError)
    (g : Grade) : (p.refuse h flight error).2.counted g = h.counted g + g.refused.toNat := by
  obtain ⟨accepted, refused⟩ := g
  cases refused with
  | false => rfl
  | true => exact (Nat.add_assoc _ _ _).symm

theorem counted_answer (hstep : p.answer h flight = (p', h')) (g : Grade) :
    h'.counted g = h.counted g + [flight.answer h].countP g.ofMoment := by
  rw [g.countP_singleton]
  unfold Publisher.answer at hstep
  unfold InFlight.answer
  cases hverdict : flight.verdict with
  | crash =>
    rw [hverdict] at hstep
    cases hstep
    rfl
  | fail error =>
    simp only [hverdict] at hstep ⊢
    have hrefuse := p.counted_refuse h flight error g
    rwa [hstep] at hrefuse
  | handOn =>
    simp only [hverdict] at hstep ⊢
    cases hpublish : h.transport.backend.publish flight.written with
    | error error =>
      simp only [hpublish] at hstep ⊢
      have hrefuse := p.counted_refuse h flight error g
      rwa [hstep] at hrefuse
    | ok backend =>
      simp only [hpublish] at hstep ⊢
      have haccept := p.counted_accept (h.withBackend backend) flight g
      rwa [hstep] at haccept

theorem counted_advance (hstep : p.advance? h = some (p', h')) (g : Grade) :
    h'.counted g = h.counted g + (p.moments h).countP g.ofMoment := by
  unfold Publisher.moments
  obtain ⟨-, ⟨flight, hflight, -, hanswer⟩ | ⟨request, rest, hfree, hqueue, hoffer⟩⟩ :=
    cases_of_advance hstep
  · simp only [hflight]
    exact counted_answer hanswer g
  · simp only [hfree, hqueue]
    cases hoffer
    rfl

end Publisher

namespace Service

variable {s s' : Service} {a : Action} {id : PublisherId} {settings : Settings} {origin : UtcTime}
  {transport : Transport} {t : List (PublisherId × Moment)}

theorem counted_task (task : PublishTask) (p : Publisher) (g : Grade) :
    (task.moments p).countP g.ofMoment = 0 := by
  unfold PublishTask.moments
  split
  · split <;> rfl
  · rfl

theorem countP_journal (htouched : s.touched? a = some id) (g : Grade) :
    (s.journal a).countP (fun entry => g.ofMoment entry.2) =
      (s.moments id a).countP g.ofMoment := by
  rw [journal, htouched, Option.elim_some, List.countP_map]
  rfl

theorem counted_step (h : s.perform? a = some s') (g : Grade) :
    s'.hub.counted g = s.hub.counted g +
      (s.journal a).countP fun entry => g.ofMoment entry.2 := by
  cases a with
  | step actor =>
    cases actor with
    -- Only answers count, and only drivers of publishers get answers.
    | publisher id =>
      obtain ⟨p, p', hub, hp, hstep, rfl⟩ := exists_of_advancePublisher h
      rw [countP_journal rfl, moments, if_pos rfl, publisher_of_get? hp]
      exact counted_advance hstep g
    | task name =>
      obtain ⟨entry, task, p, hentry, -, rfl⟩ := exists_of_advanceTask h
      have htouched : s.touched? (.step (.task name)) = some entry.publisher := by
        rw [touched?, hentry]
        rfl
      rw [countP_journal htouched]
      simp only [moments, hentry, if_true, counted_task]
      rfl
    | subscription name =>
      obtain ⟨sub, sub', hub, -, hstep, rfl⟩ := exists_of_advanceSubscription h
      exact Hub.counted_of_still (Subscription.still_advance hstep) g
  | publish id event =>
    cases h
    rw [countP_journal rfl, moments, if_pos rfl]
    rfl
  | closePublisher id =>
    cases h
    rw [countP_journal rfl, moments, if_pos rfl, hub_closePublisher]
    rfl
  | shutdown =>
    cases h
    rw [countP_journal rfl, moments, hub_shutdown]
    split <;> rfl
  | startPeriodic name publisher schedule generate reports =>
    obtain ⟨tasks, rfl⟩ := exists_of_startPeriodic h
    rfl
  | startStream name publisher item reports =>
    obtain ⟨tasks, rfl⟩ := exists_of_startStream h
    rfl
  | subscribe name target rate consumer =>
    simp only [perform?] at h
    split at h
    · cases h
    · cases h
      rfl
  | usePublisher _ | cancelTask _ | takeFailures _ | raiseCancel _ | endUnsubscribe _
  | dropConsumer _ | take _ | takeCalls _ _ | get _ | getAll _ | clearStore | script _ | rewire _
  | wait _ =>
    cases h
    rfl

/-! ## Calls and counters -/

def tally (good : Outcome → Bool) (s : Service) (made : List (PublisherId × Ticket)) : Nat :=
  made.countP fun call => (s.outcome? call.1 call.2).any good

/-- What a service has counted when `made` are the calls that were made. -/
structure Counted (made : List (PublisherId × Ticket)) (s : Service) : Prop where
  nodup : made.Nodup
  mem_iff : ∀ id ticket, (id, ticket) ∈ made ↔ ticket < (s.publisher id).nextTicket
  counted : ∀ g : Grade, s.hub.counted g = tally g.ofOutcome s made

theorem counted_start : Counted [] (withTransport settings origin transport) where
  nodup := .nil
  mem_iff id ticket := ⟨(nomatch ·), (absurd · (Nat.not_lt_zero ticket))⟩
  counted g := by
    obtain ⟨accepted, refused⟩ := g
    cases accepted <;> cases refused <;> rfl

theorem countP_succ {α : Type} {p q : α → Bool} {xs : List α} {x : α} (hnodup : xs.Nodup)
    (hx : x ∈ xs) (hp : p x = false) (hq : q x = true) (hsame : ∀ y ≠ x, q y = p y) :
    xs.countP q = xs.countP p + 1 := by
  obtain ⟨before, after, rfl⟩ := List.append_of_mem hx
  have hne : ∀ y ∈ before ++ after, y ≠ x := by
    rintro y hy rfl
    exact (List.nodup_middle.1 hnodup).notMem hy
  have hbefore : before.countP q = before.countP p := List.countP_congr fun y hy => by
    rw [hsame y (hne y (List.mem_append_left _ hy))]
  have hafter : after.countP q = after.countP p := List.countP_congr fun y hy => by
    rw [hsame y (hne y (List.mem_append_right _ hy))]
  rw [List.countP_append, List.countP_append, List.countP_cons_of_pos hq,
    List.countP_cons_of_neg (by simp [hp]), hbefore, hafter]
  omega

theorem outcome?_of_untouched (hstep : s.perform? a = some s') (h : s.touched? a ≠ some id)
    (ticket : Ticket) : s'.outcome? id ticket = s.outcome? id ticket := by
  have hmove : (s.publisher id).Move _ _ (s.moments id a) (s'.publisher id) := move hstep
  rw [moments_of_untouched h] at hmove
  unfold outcome?
  rw [hmove.eq_of_nil]

theorem mem_callsOf_journal {ticket : Ticket} : (id, ticket) ∈ callsOf (s.journal a) ↔
    ticket ∈ (calls (s.moments id a)).map Prod.fst := by
  by_cases htouched : s.touched? a = some id
  · rw [callsOf_journal htouched]
    simp
  · rw [moments_of_untouched htouched]
    refine ⟨fun hmem => ?_, (nomatch ·)⟩
    cases hother : s.touched? a with
    | none =>
      rw [journal, hother] at hmem
      cases hmem
    | some id' =>
      rw [callsOf_journal hother, List.mem_map] at hmem
      obtain ⟨call, -, heq⟩ := hmem
      cases heq
      exact absurd hother htouched

theorem nodup_callsOf_journal (hstep : s.perform? a = some s') :
    (callsOf (s.journal a)).Nodup := by
  cases htouched : s.touched? a with
  | none =>
    rw [journal, htouched]
    exact .nil
  | some id =>
    rw [callsOf_journal htouched]
    have hmove : (s.publisher id).Move _ _ (s.moments id a) (s'.publisher id) := move hstep
    rcases hmove.calls_cases with hnone | ⟨event, hone⟩
    · rw [hnone]
      exact .nil
    · rw [hone]
      exact List.nodup_singleton _

theorem tally_journal (ho : ∀ id, ∃ t, Orderly t (s.publisher id) s.hub.store.lastStamp)
    (hstep : s.perform? a = some s') (g : Grade) :
    tally g.ofOutcome s' (callsOf (s.journal a)) = 0 := by
  refine List.countP_eq_zero.2 ?_
  rintro ⟨id, ticket⟩ hcall
  obtain ⟨t, hordered⟩ := ho id
  have hmove : (s.publisher id).Move _ _ (s.moments id a) (s'.publisher id) := move hstep
  have hnew := mem_callsOf_journal.1 hcall
  obtain ⟨call, hcalled, rfl⟩ := List.mem_map.1 hnew
  rcases hmove.graded hordered g with ⟨-, hsame⟩ | ⟨_, -, hnone, -⟩
  · -- A ticket has no outcome before its call, and what is settled at once is not counted.
    have hunused := hordered.unused call.1 (hmove.ticket_eq hcalled).ge
    have hgrade := hsame call.1
    rw [hunused] at hgrade
    change ¬((s'.publisher id).outcome? call.1).any g.ofOutcome = true
    rw [hgrade]
    exact Bool.false_ne_true
  · rw [hnone] at hcalled
    cases hcalled

/-- An answer that is counted gives its outcome to one of the calls that were made. -/
theorem Counted.tally_step {made : List (PublisherId × Ticket)} (h : Counted made s)
    (ho : ∀ id, ∃ t, Orderly t (s.publisher id) s.hub.store.lastStamp)
    (hstep : s.perform? a = some s') (g : Grade) : tally g.ofOutcome s' made =
      tally g.ofOutcome s made + (s.journal a).countP fun entry => g.ofMoment entry.2 := by
  cases htouched : s.touched? a with
  | none =>
    rw [journal, htouched]
    refine List.countP_congr fun call _ => ?_
    have hother : s.touched? a ≠ some call.1 := by simp [htouched]
    rw [outcome?_of_untouched hstep hother]
  | some id =>
    obtain ⟨t, hordered⟩ := ho id
    -- Outcomes change on the one publisher that is touched, and there on one call at most.
    have hother : ∀ id' ≠ id, ∀ ticket, s'.outcome? id' ticket = s.outcome? id' ticket :=
      fun id' hne => outcome?_of_untouched hstep (by simp [htouched, Ne.symm hne])
    rw [countP_journal htouched]
    have hmove : (s.publisher id).Move _ _ (s.moments id a) (s'.publisher id) := move hstep
    rcases hmove.graded hordered g with ⟨hcount, hsame⟩ |
      ⟨ticket, hcount, -, hlt, hbefore, hafter, hrest⟩
    · rw [hcount]
      refine List.countP_congr fun call _ => ?_
      by_cases hid : call.1 = id
      · rw [hid]
        exact iff_of_eq (congrArg (· = true) (hsame call.2))
      · rw [hother call.1 hid]
    · rw [hcount]
      refine countP_succ (x := (id, ticket)) h.nodup ((h.mem_iff id ticket).2 hlt) hbefore hafter ?_
      rintro ⟨id', ticket'⟩ hne
      by_cases hid : id' = id
      · subst hid
        have hticket : ticket' ≠ ticket := fun heq => hne (heq ▸ rfl)
        exact congrArg _ (hrest ticket' hticket)
      · dsimp only
        rw [hother id' hid]

theorem Counted.step {made : List (PublisherId × Ticket)} (h : Counted made s)
    (ho : ∀ id, ∃ t, Orderly t (s.publisher id) s.hub.store.lastStamp)
    (hstep : s.perform? a = some s') :
    Counted (made ++ callsOf (s.journal a)) s' where
  nodup := by
    refine List.nodup_append.2 ⟨h.nodup, nodup_callsOf_journal hstep, ?_⟩
    rintro call hmade ⟨id, ticket⟩ hnew rfl
    obtain ⟨called, hcalled, rfl⟩ := List.mem_map.1 (mem_callsOf_journal.1 hnew)
    have hlt := (h.mem_iff id called.1).1 hmade
    have hmove : (s.publisher id).Move _ _ (s.moments id a) (s'.publisher id) := move hstep
    exact hlt.ne (hmove.ticket_eq hcalled)
  mem_iff id ticket := by
    rw [List.mem_append, h.mem_iff, mem_callsOf_journal]
    have hmove : (s.publisher id).Move _ _ (s.moments id a) (s'.publisher id) := move hstep
    exact (hmove.lt_nextTicket_iff ticket).symm
  counted g := by
    have happend : tally g.ofOutcome s' (made ++ callsOf (s.journal a)) =
        tally g.ofOutcome s' made + tally g.ofOutcome s' (callsOf (s.journal a)) :=
      List.countP_append
    rw [happend, tally_journal ho hstep, h.tally_step ho hstep, counted_step hstep, h.counted g,
      Nat.add_zero]

theorem Trail.counted (trail : Trail journal (withTransport settings origin transport) t s) :
    Counted (callsOf t) s := by
  induction trail with
  | start => exact counted_start
  | step trail hstep ih =>
    rw [callsOf_append]
    refine ih.step (fun id => ?_) hstep
    obtain ⟨t', trail'⟩ := trail.exists_other (moments id)
    exact ⟨t', trail'.orderly⟩

def succeeded : Outcome → Bool
  | .ok () => true
  | .error _ => false

def failed : Outcome → Bool
  | .ok () => false
  | .error _ => true

/-- Whether a publish failed because its publisher was closed or its driver had stopped. -/
def turnedAway : Outcome → Bool
  | .ok () => false
  | .error failure => failure.reason = .publisherClosed ∨ failure.reason = .driverStopped

theorem counted_accepted (h : Hub) : h.counted ⟨true, false⟩ = h.metrics.published :=
  rfl

theorem counted_refused (h : Hub) : h.counted ⟨false, true⟩ = h.metrics.failures :=
  Nat.zero_add _

theorem tally_succeeded (s : Service) (made : List (PublisherId × Ticket)) :
    tally (⟨true, false⟩ : Grade).ofOutcome s made = tally succeeded s made := by
  have hsame : (⟨true, false⟩ : Grade).ofOutcome = succeeded := by
    funext outcome
    rcases outcome with ⟨event, reason⟩ | ⟨⟩
    · cases reason <;> rfl
    · rfl
  rw [hsame]

/-- A publish fails because the transport refuses it or because it is turned away. -/
theorem tally_failed (s : Service) (made : List (PublisherId × Ticket)) :
    tally (⟨false, true⟩ : Grade).ofOutcome s made + tally turnedAway s made =
      tally failed s made := by
  unfold tally
  induction made with
  | nil => rfl
  | cons call made ih =>
    simp only [List.countP_cons]
    rw [← ih]
    rcases s.outcome? call.1 call.2 with _ | ⟨event, reason⟩ | ⟨⟩
    · rfl
    · cases reason with
      | publisherClosed => exact (Nat.add_assoc _ _ _).symm
      | driverStopped => exact (Nat.add_assoc _ _ _).symm
      | transport error => exact Nat.add_right_comm _ _ _
    · rfl

theorem tally_turnedAway_eq_zero {s : Service} {made : List (PublisherId × Ticket)} :
    tally turnedAway s made = 0 ↔ ∀ id ticket failure, (id, ticket) ∈ made →
      s.outcome? id ticket = some (.error failure) →
      failure.reason ≠ .publisherClosed ∧ failure.reason ≠ .driverStopped := by
  unfold tally
  rw [List.countP_eq_zero]
  constructor
  · intro hnone id ticket failure hmade houtcome
    have hkept := hnone (id, ticket) hmade
    simpa [houtcome, turnedAway] using hkept
  · rintro hkept ⟨id, ticket⟩ hmade
    cases houtcome : s.outcome? id ticket with
    | none => exact Bool.false_ne_true
    | some outcome =>
      rcases outcome with failure | ⟨⟩
      · simpa [turnedAway] using hkept id ticket failure hmade houtcome
      · exact Bool.false_ne_true

/-- Every call is counted when the transport answers it, and only then: the counter of failures is
short by the calls that were turned away. So it counts the failed calls exactly if no call failed
because its publisher was closed or its driver had stopped. -/
theorem Trail.counts (trail : Trail journal (withTransport settings origin transport) t s) :
    (callsOf t).Nodup ∧ s.hub.metrics.published = tally succeeded s (callsOf t) ∧
      s.hub.metrics.failures + tally turnedAway s (callsOf t) = tally failed s (callsOf t) ∧
      (s.hub.metrics.failures = tally failed s (callsOf t) ↔
        ∀ id ticket failure, (id, ticket) ∈ callsOf t →
          s.outcome? id ticket = some (.error failure) →
          failure.reason ≠ .publisherClosed ∧ failure.reason ≠ .driverStopped) := by
  have hcounted := trail.counted
  have hpublished := hcounted.counted ⟨true, false⟩
  have hfailures := hcounted.counted ⟨false, true⟩
  rw [counted_accepted, tally_succeeded] at hpublished
  rw [counted_refused] at hfailures
  have hsum := tally_failed s (callsOf t)
  rw [← hfailures] at hsum
  refine ⟨hcounted.nodup, hpublished, hsum, ?_⟩
  rw [← tally_turnedAway_eq_zero]
  omega

/-- Of the calls on one publisher the transport takes the first and refuses the second, and the
third comes too late; the call on the other publisher waits. -/
theorem counts_lastOrders : ∃ t s, Trail journal logService t s ∧
    callsOf t = [(.own 0, 0), (.own 0, 1), (.own 0, 2), (.own 1, 0)] ∧
      s.hub.metrics.published = 1 ∧ tally succeeded s (callsOf t) = 1 ∧
      s.hub.metrics.failures = 1 ∧ tally failed s (callsOf t) = 2 ∧
      tally turnedAway s (callsOf t) = 1 := by
  obtain ⟨t, s, trail, hgood⟩ := exists_trail_of_observed journal logService lastOrders
    (fun t s => decide (callsOf t = [(.own 0, 0), (.own 0, 1), (.own 0, 2), (.own 1, 0)] ∧
      s.hub.metrics.published = 1 ∧ s.hub.metrics.failures = 1 ∧
      tally failed s (callsOf t) = 2)) (by decide +kernel)
  obtain ⟨hcalls, hpublished, hfailures, hfailed⟩ := of_decide_eq_true hgood
  obtain ⟨-, hsucceeded, hsum, -⟩ := trail.counts
  refine ⟨t, s, trail, hcalls, hpublished, hsucceeded ▸ hpublished, hfailures, hfailed, ?_⟩
  omega

/-- An event is published, the publisher is closed, and another event comes too late. -/
def lateCall : List Action :=
  [.publish .shared (sharedEvent "a"), .step (.publisher .shared), .step (.publisher .shared),
    .closePublisher .shared, .publish .shared (sharedEvent "b")]

/-- A call that comes too late fails, and no counter knows of it. -/
theorem not_counts : ¬∀ t s, Trail journal logService t s →
    (∀ call ∈ callsOf t, s.outcome? call.1 call.2 ≠ none) →
    s.hub.metrics.published = tally succeeded s (callsOf t) ∧
      s.hub.metrics.failures = tally failed s (callsOf t) := by
  intro hall
  obtain ⟨t, s, trail, hgood⟩ := exists_trail_of_observed journal logService lateCall
    (fun t s => decide ((∀ call ∈ callsOf t, s.outcome? call.1 call.2 ≠ none) ∧
      s.hub.metrics.failures = 0 ∧ tally failed s (callsOf t) = 1)) (by decide +kernel)
  obtain ⟨hrest, hfailures, hfailed⟩ := of_decide_eq_true hgood
  have hcount := (hall t s trail hrest).2
  rw [hfailures, hfailed] at hcount
  cases hcount

end Service

end Observatory
