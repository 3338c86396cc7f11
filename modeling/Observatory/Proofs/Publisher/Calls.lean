import Observatory.Proofs.Publisher.Order

/-!
# What comes of calls

Along every run of a service a publisher keeps the order of its calls and gives every call the
answer to its own event; in a fair course every call gets one. For the latter the driver's steps are
counted: a call has its answer after twice as many of them as there are calls up to its own.
-/

namespace Observatory

namespace Moment

/-- How many steps the driver took. -/
def driverSteps (t : List Moment) : Nat :=
  (offers t).length + (answers t).length

theorem driverSteps_append (t t' : List Moment) :
    driverSteps (t ++ t') = driverSteps t + driverSteps t' := by
  simp only [driverSteps, offers_append, answers_append, List.length_append]
  omega

end Moment

open Moment Publisher

namespace Publisher

variable {p p' : Publisher} {last last' : Nat} {t marks : List Moment} {ticket : Ticket}
  {event : Event} {h h' : Hub}

/-- Only the driver changes what is in flight. -/
theorem Move.inFlight_eq (hmove : p.Move last last' marks p') (hsteps : driverSteps marks = 0) :
    p'.inFlight = p.inFlight := by
  cases hmove with
  | offer | accept | refuse | crash => cases hsteps
  | _ => rfl

theorem driverSteps_answer (flight : InFlight) (h : Hub) : driverSteps [flight.answer h] = 1 := by
  rcases flight.answer_cases h with hanswer | hanswer | hanswer
  · rw [hanswer]
    rfl
  · rw [hanswer]
    rfl
  · rw [hanswer]
    rfl

theorem driverSteps_advance (hstep : p.advance? h = some (p', h')) :
    driverSteps (p.moments h) = 1 := by
  unfold Publisher.moments
  obtain ⟨-, ⟨flight, hflight, -, -⟩ | ⟨request, rest, hfree, hqueue, -⟩⟩ :=
    cases_of_advance hstep
  · simp only [hflight, driverSteps_answer]
  · simp only [hfree, hqueue]
    rfl

theorem now_answer {flight : InFlight} (hstep : p.answer h flight = (p', h')) :
    h'.now = h.now := by
  unfold Publisher.answer at hstep
  split at hstep
  · cases hstep
    rfl
  · cases hstep
    rfl
  · split at hstep <;> cases hstep <;> rfl

/-- While someone waits, the driver has a step to take, at once or when the answer is due. -/
theorem advance?_ne_none (hrunning : p.stopped = false) (hwait : (ticket, event) ∈ p.waiting)
    (hdue : ∀ flight, p.inFlight = some flight → flight.due ≤ h.now) : p.advance? h ≠ none := by
  unfold Publisher.advance?
  rw [if_neg (by simp [hrunning])]
  cases hflight : p.inFlight with
  | some flight => simp [hdue flight hflight]
  | none =>
    cases hqueue : p.queue with
    | nil => simp [waiting, hflight, hqueue] at hwait
    | cons request rest => simp

namespace Orderly

/-- A call is answered before the driver has taken twice as many steps as there were calls. -/
theorem driverSteps_le (ho : Orderly t p last) (hwait : (ticket, event) ∈ p.waiting)
    {before : List (Ticket × Event)} (hbefore : before <+: earlyCalls t)
    (hcall : (ticket, event) ∈ before) : driverSteps t ≤ 2 * before.length := by
  have hrunning := ho.running_of_mem hwait
  have hlength : (answers t).length < before.length := by
    by_contra hall
    rw [ho.line hrunning] at hbefore
    have hinitial : before <+: (answers t).map call :=
      List.prefix_of_prefix_length_le hbefore (List.prefix_append _ _)
        (by simpa using hall)
    have hnodup := ho.nodup_line hrunning
    rw [List.map_append, List.nodup_append] at hnodup
    exact hnodup.2.2 _ (List.mem_map_of_mem (hinitial.mem hcall)) _ (List.mem_map_of_mem hwait) rfl
  have hoffers : (offers t).length ≤ (answers t).length + 1 := by
    rw [ho.flight, List.length_append]
    cases p.inFlight <;> simp
  rw [driverSteps]
  omega

/-- Without an outcome a call waits. -/
theorem waiting_of_none (ho : Orderly t p last) (hcall : (ticket, event) ∈ calls t)
    (hnone : p.outcome? ticket = none) : (ticket, event) ∈ p.waiting := by
  cases ho.fates ticket event hcall with
  | waiting hwait => exact hwait
  | accepted w hmark hevent houtcome =>
    rw [hnone] at houtcome
    cases houtcome
  | failed reason hmark houtcome =>
    rw [hnone] at houtcome
    cases houtcome

/-- A failure gives the event of its call back. -/
theorem failure_event (ho : Orderly t p last) (hcall : (ticket, event) ∈ calls t)
    {failure : PublishFailure} (hfailed : p.outcome? ticket = some (.error failure)) :
    failure.event = event := by
  cases ho.fates ticket event hcall with
  | waiting hwait =>
    rw [ho.undecided _ hwait] at hfailed
    cases hfailed
  | accepted w hmark hevent houtcome => exact absurd (houtcome.symm.trans hfailed) (by simp)
  | failed reason hmark houtcome =>
    cases houtcome.symm.trans hfailed
    rfl

end Orderly

end Publisher

namespace Service

variable {settings : Settings} {origin : UtcTime} {transport : Transport} {id : PublisherId}
  {s s' : Service} {t t' : List Moment} {ticket : Ticket} {event : Event}

theorem driverSteps_step (h : s.perform? (.step (.publisher id)) = some s') :
    driverSteps (s.moments id (.step (.publisher id))) = 1 := by
  obtain ⟨p, p', hub, hp, hstep, -⟩ := exists_of_advancePublisher h
  rw [moments, if_pos rfl, publisher_of_get? hp]
  exact driverSteps_advance hstep

theorem advance?_publisher (h : (s.publisher id).advance? s.hub ≠ none) :
    s.advance? (.publisher id) ≠ none := by
  cases hp : s.publishers.get? id with
  | none =>
    rw [publisher, hp] at h
    exact absurd rfl h
  | some p =>
    rw [publisher_of_get? hp] at h
    obtain ⟨next, hnext⟩ := Option.ne_none_iff_exists'.1 h
    simp [advance?, advancePublisher?, hp, hnext]

theorem Trail.orderly_after (h : Orderly t (s.publisher id) s.hub.store.lastStamp)
    (trail : Trail (moments id) s t' s') :
    Orderly (t ++ t') (s'.publisher id) s'.hub.store.lastStamp := by
  induction trail with
  | start => rwa [List.append_nil]
  | step _ hstep ih =>
    rw [← List.append_assoc]
    exact ih.step (move hstep)

theorem Trail.orderly (trail : Trail (moments id) (withTransport settings origin transport) t s) :
    Orderly t (s.publisher id) s.hub.store.lastStamp :=
  Trail.orderly_after (s := withTransport settings origin transport) orderly_start trail

/-- What has an outcome keeps it. -/
theorem Trail.outcome?_stays (h : Orderly t (s.publisher id) s.hub.store.lastStamp)
    (trail : Trail (moments id) s t' s') {outcome : Outcome}
    (houtcome : s.outcome? id ticket = some outcome) :
    s'.outcome? id ticket = some outcome := by
  induction trail with
  | start => exact houtcome
  | step trail hstep ih => exact (trail.orderly_after h).outcome?_stays (move hstep) ih

namespace Course

variable {c : Course s}

theorem seen_succ (n : Nat) : driverSteps (c.seen (moments id) (n + 1)) =
    driverSteps (c.seen (moments id) n) +
      driverSteps ((c.state n).moments id (c.action n)) :=
  driverSteps_append _ _

/-- While someone waits, the driver takes a step after the other. -/
theorem Fair.driverSteps_lt (fair : c.Fair (.publisher id)) {n : Nat}
    (hwait : ∀ m, n ≤ m → (ticket, event) ∈ ((c.state m).publisher id).waiting ∧
      ((c.state m).publisher id).stopped = false) :
    ∃ m, n ≤ m ∧
      driverSteps (c.seen (moments id) n) < driverSteps (c.seen (moments id) m) := by
  by_contra hnone
  push Not at hnone
  -- Without steps the publish in flight stays the same, so its answer is due some day.
  have hsame : ∀ m, n ≤ m →
      driverSteps (c.seen (moments id) m) = driverSteps (c.seen (moments id) n) ∧
        ((c.state m).publisher id).inFlight = ((c.state n).publisher id).inFlight := by
    intro m hm
    induction m, hm using Nat.le_induction with
    | base => exact ⟨rfl, rfl⟩
    | succ m hm ih =>
      have hlast := hnone (m + 1) (by omega)
      rw [c.seen_succ, ih.1] at hlast
      have hzero : driverSteps ((c.state m).moments id (c.action m)) = 0 := by omega
      refine ⟨by rw [c.seen_succ, ih.1, hzero, Nat.add_zero], ?_⟩
      exact ((move (c.step m)).inFlight_eq hzero).trans ih.2
  obtain ⟨late, hlate⟩ :=
    fair.time ((((c.state n).publisher id).inFlight.map InFlight.due).getD 0)
  obtain ⟨m, hm, hturn⟩ := fair.turns (max n late)
  have hn : n ≤ m := le_of_max_le_left hm
  rcases hturn with haction | hstuck
  · have hstep := c.step m
    rw [haction] at hstep
    have hlast := hnone (m + 1) (by omega)
    rw [c.seen_succ, haction, driverSteps_step hstep, (hsame m hn).1] at hlast
    omega
  · refine advance?_publisher (advance?_ne_none (hwait m hn).2 (hwait m hn).1 ?_) hstuck
    intro flight hflight
    have hdue := hlate m (le_of_max_le_right hm)
    rwa [← (hsame m hn).2, hflight] at hdue

/-- The driver takes as many steps as one likes while someone waits. -/
theorem Fair.le_driverSteps (fair : c.Fair (.publisher id))
    (hwait : ∀ m, (ticket, event) ∈ ((c.state m).publisher id).waiting ∧
      ((c.state m).publisher id).stopped = false) (count : Nat) :
    ∃ m, count ≤ driverSteps (c.seen (moments id) m) := by
  induction count with
  | zero => exact ⟨0, Nat.zero_le _⟩
  | succ count ih =>
    obtain ⟨n, hn⟩ := ih
    obtain ⟨m, _, hm⟩ := fair.driverSteps_lt (n := n) fun m _ => hwait m
    exact ⟨m, by omega⟩

/-- In a fair course every call gets its outcome. -/
theorem Fair.resolves (h : Orderly t (s.publisher id) s.hub.store.lastStamp)
    (fair : c.Fair (.publisher id)) (hcall : (ticket, event) ∈ calls t) :
    ∃ n, (c.state n).outcome? id ticket ≠ none := by
  by_contra hnone
  push Not at hnone
  -- The call would wait for ever, and the driver take more steps than the line is long.
  have hordered := fun n => (c.trail (moments id) n).orderly_after h
  have hwait : ∀ n, (ticket, event) ∈ ((c.state n).publisher id).waiting := fun n =>
    (hordered n).waiting_of_none
      (calls_append t _ ▸ List.mem_append_left _ hcall) (hnone n)
  have hrunning := fun n => (hordered n).running_of_mem (hwait n)
  have hearly : (ticket, event) ∈ earlyCalls t := by
    have hzero := hwait 0
    rw [c.start] at hzero
    exact h.mem_early_of_waiting hzero
  obtain ⟨n, hn⟩ := fair.le_driverSteps (fun n => ⟨hwait n, hrunning n⟩)
    (2 * (earlyCalls t).length + 1)
  have hbefore : earlyCalls t <+: earlyCalls (t ++ c.seen (moments id) n) := by
    rw [earlyCalls_append]
    split
    · exact List.prefix_refl _
    · exact List.prefix_append _ _
  have hbound := (hordered n).driverSteps_le (hwait n) hbefore hearly
  rw [driverSteps_append] at hbound
  omega

end Course

/-! ## Calls -/

/-- A driver calls nobody. -/
theorem called_not_mem (p : Publisher) (h : Hub) (ticket : Ticket) (event : Event) :
    .called ticket event ∉ p.moments h := by
  unfold Publisher.moments
  split
  next flight _ => rcases flight.answer_cases h with hanswer | hanswer | hanswer <;> simp [hanswer]
  next => simp
  next => simp

/-- A call itself touches neither the store nor the transport. -/
theorem hub_of_called {a : Action} (h : s.perform? a = some s')
    (hcalled : .called ticket event ∈ s.moments id a) : s'.hub = s.hub := by
  cases a with
  | publish id' e =>
    cases h
    rfl
  | step actor =>
    cases actor with
    | task name =>
      obtain ⟨entry, task, p, -, -, rfl⟩ := exists_of_advanceTask h
      rfl
    | publisher id' =>
      rw [moments] at hcalled
      split at hcalled
      · exact absurd hcalled (called_not_mem _ _ ticket event)
      · cases hcalled
    | subscription name => cases hcalled
  | closePublisher id' =>
    rw [moments] at hcalled
    split at hcalled <;> simp at hcalled
  | shutdown =>
    rw [moments] at hcalled
    split at hcalled <;> simp at hcalled
  | _ => cases hcalled

/-! ## A fair course -/

theorem now_advancePublisher (h : s.advance? (.publisher id) = some s') :
    s'.hub.now = s.hub.now := by
  obtain ⟨p, p', hub, -, hstep, rfl⟩ := exists_of_advancePublisher h
  obtain ⟨-, ⟨flight, -, -, hanswer⟩ | ⟨request, rest, -, -, hoffer⟩⟩ := cases_of_advance hstep
  · exact now_answer hanswer
  · cases hoffer
    rfl

/-- Every other time the driver takes its turn, and otherwise time goes on. -/
def alternate (id : PublisherId) (s : Service) (n : Nat) : Action × Service :=
  match n % 2, s.advance? (.publisher id) with
  | 1, some next => (.step (.publisher id), next)
  | _, _ => (.wait 1, { s with hub := { s.hub with now := s.hub.now + 1 } })

/-- The states on the way. -/
def alternating (id : PublisherId) (s : Service) : Nat → Service
  | 0 => s
  | n + 1 => (alternate id (alternating id s n) n).2

theorem perform?_alternate (s : Service) (n : Nat) :
    s.perform? (alternate id s n).1 = some (alternate id s n).2 := by
  unfold alternate
  split
  next hnext => exact hnext
  next => rfl

theorem le_now_alternating (s : Service) (n : Nat) :
    (n + 1) / 2 ≤ (alternating id s n).hub.now := by
  induction n with
  | zero => exact Nat.zero_le _
  | succ n ih =>
    rw [alternating, alternate]
    split
    next hodd hnext =>
      rw [now_advancePublisher hnext]
      omega
    next =>
      dsimp only
      omega

/-- There is a fair course from everywhere. -/
theorem exists_fair (s : Service) (id : PublisherId) : ∃ c : Course s, c.Fair (.publisher id) := by
  refine ⟨⟨alternating id s, fun n => (alternate id (alternating id s n) n).1, rfl,
    fun n => perform?_alternate _ n⟩, fun n => ?_, fun (time : Nat) => ⟨2 * time, fun m hm => ?_⟩⟩
  · refine ⟨2 * n + 1, by omega, ?_⟩
    dsimp only
    have hodd : (2 * n + 1) % 2 = 1 := by omega
    rw [alternate, hodd]
    cases (alternating id s (2 * n + 1)).advance? (.publisher id) with
    | none => exact .inr rfl
    | some next => exact .inl rfl
  · have hhalf : time ≤ (m + 1) / 2 := by omega
    exact hhalf.trans (le_now_alternating s m)

/-! ## The order of publishes -/

/-- What a publisher promises to those who call it. -/
structure Publishes (id : PublisherId) (t : List Moment) (s : Service) : Prop where
  /-- The transport is offered the calls before closing from the first one on, in their order. -/
  inOrder : (offers t).map call <+: earlyCalls t
  /-- They are all offered once the queue is drained, unless the transport crashed. -/
  complete : (∀ ticket w, .crashed ticket w ∉ t) → (s.publisher id).queue = [] →
    (s.publisher id).inFlight = none → (offers t).map call = earlyCalls t
  /-- A ticket stands for one call. -/
  apart : ((calls t).map Prod.fst).Nodup
  /-- An offer is made when all before it were answered. -/
  oneByOne : ∀ before ticket w, before ++ [.offered ticket w] <+: t →
    answers before = offers before
  ascending : (offers t).Pairwise fun a b => a.2.stamp < b.2.stamp
  accepted_iff : ∀ ticket event, (ticket, event) ∈ calls t →
    (s.outcome? id ticket = some (.ok ()) ↔ ∃ w, .accepted ticket w ∈ t ∧ w.event = event)
  failed : ∀ ticket event, (ticket, event) ∈ calls t →
    ∀ failure, s.outcome? id ticket = some (.error failure) → failure.event = event
  stays : ∀ t' s', Trail (moments id) s t' s' → ∀ ticket outcome,
    s.outcome? id ticket = some outcome → s'.outcome? id ticket = some outcome
  /-- Every call has its outcome in the end, whatever else happens meanwhile. -/
  resolves : ∀ c : Course s, c.Fair (.publisher id) → ∀ ticket event, (ticket, event) ∈ calls t →
    ∃ n, (c.state n).outcome? id ticket ≠ none
  /-- A call itself touches neither the store nor the transport. -/
  untouched : ∀ a s', s.perform? a = some s' → ∀ ticket event,
    .called ticket event ∈ s.moments id a → s'.hub = s.hub
  /-- A call after closing fails, and its event is not offered. -/
  late : ∀ ticket event, (ticket, event) ∈ calls t → (ticket, event) ∉ earlyCalls t →
    s.outcome? id ticket = some (.error ⟨event, .publisherClosed⟩) ∧ ∀ w, .offered ticket w ∉ t

theorem offers_initial (h : Orderly t (s.publisher id) s.hub.store.lastStamp) :
    (offers t).map call <+: earlyCalls t := by
  cases hstopped : (s.publisher id).stopped with
  | true =>
    have hnone : (s.publisher id).inFlight = none := by
      simpa [waiting] using (List.append_eq_nil_iff.1 (h.halted hstopped).1).1
    rw [h.flight, hnone]
    simpa using h.answered
  | false =>
    rw [h.flight, h.line hstopped, List.map_append, List.prefix_append_right_inj, waiting]
    cases (s.publisher id).inFlight with
    | none => exact List.nil_prefix
    | some flight => exact List.cons_prefix_cons.2 ⟨rfl, List.nil_prefix⟩

/-- A publisher publishes one event after another in the order of the calls, and every call learns
what came of its event. -/
theorem Trail.publishes
    (trail : Trail (moments id) (withTransport settings origin transport) t s) :
    Publishes id t s where
  inOrder := offers_initial trail.orderly
  complete hcrash hqueue hflight := by
    -- A driver stops only by a crash.
    have hrunning : (s.publisher id).stopped = false := by
      by_contra hstopped
      obtain ⟨-, ticket, w, hmark⟩ := trail.orderly.halted (by simpa using hstopped)
      exact hcrash ticket w hmark
    rw [trail.orderly.line hrunning, trail.orderly.flight, waiting, hqueue, hflight]
    simp
  apart := trail.orderly.nodup_tickets
  oneByOne := trail.orderly.turns
  ascending := trail.orderly.ascending
  accepted_iff ticket event hcall := by
    have h := trail.orderly
    constructor
    · intro hok
      cases h.fates ticket event hcall with
      | waiting hwait =>
        have hnone : s.outcome? id ticket = none := h.undecided _ hwait
        rw [hnone] at hok
        cases hok
      | accepted w hmark hevent houtcome => exact ⟨w, hmark, hevent⟩
      | failed reason hmark houtcome => exact absurd (houtcome.symm.trans hok) (by simp)
    · rintro ⟨w, hmark, hevent⟩
      cases h.fates ticket event hcall with
      | waiting hwait => exact absurd hmark (h.not_accepted_of_waiting hwait w)
      | accepted _ _ _ houtcome => exact houtcome
      | failed reason hnone houtcome => exact absurd hmark (hnone w)
  failed ticket event hcall failure hfailed := trail.orderly.failure_event hcall hfailed
  stays t' s' later ticket outcome := later.outcome?_stays trail.orderly
  resolves c fair ticket event hcall := fair.resolves trail.orderly hcall
  untouched a s' h ticket event hcalled := hub_of_called h hcalled
  late ticket event hcall hlate := by
    refine ⟨trail.orderly.late ticket event hcall hlate, fun w hoffer => ?_⟩
    have hearly : (ticket, w.event) ∈ earlyCalls t :=
      (offers_initial trail.orderly).mem (List.mem_map.2 ⟨_, mem_offers.2 hoffer, rfl⟩)
    have hsame := trail.orderly.event_eq hcall ((earlyCalls_initial t).mem hearly)
    exact hlate (hsame ▸ hearly)

/-- Two clones publish, the transport takes the first event and refuses the second, and the
publisher is closed twice while both wait for it. -/
def lastOrders : List Action :=
  [.publish (.own 0) (sharedEvent "a"), .publish (.own 0) (sharedEvent "b"),
    .step (.publisher (.own 0)), .closePublisher (.own 0), .publish (.own 0) (sharedEvent "c"),
    .step (.publisher (.own 0)), .script ⟨.fail (.rejected "full"), .handOn, 10, 0, none⟩,
    .step (.publisher (.own 0)), .closePublisher (.own 0), .publish (.own 1) (sharedEvent "d"),
    .wait 10, .step (.publisher (.own 0))]

/-- The journal of the publisher. -/
def lastMoments : List Moment :=
  [.called 0 (sharedEvent "a"), .called 1 (sharedEvent "b"),
    .offered 0 ⟨1, sharedEvent "a"⟩, .closed, .called 2 (sharedEvent "c"),
    .accepted 0 ⟨1, sharedEvent "a"⟩, .offered 1 ⟨2, sharedEvent "b"⟩, .closed,
    .refused 1 ⟨2, sharedEvent "b"⟩]

theorem publishes_lastOrders : ∃ s,
    Trail (moments (.own 0)) logService lastMoments s ∧ Publishes (.own 0) lastMoments s ∧
      s.outcome? (.own 0) 0 = some (.ok ()) ∧
      s.outcome? (.own 0) 1 =
        some (.error ⟨sharedEvent "b", .transport (.rejected "full")⟩) ∧
      s.outcome? (.own 0) 2 = some (.error ⟨sharedEvent "c", .publisherClosed⟩) := by
  obtain ⟨t, s, trail, hgood⟩ := exists_trail_of_observed (moments (.own 0)) logService lastOrders
    (fun t s => decide (t = lastMoments ∧ s.outcome? (.own 0) 0 = some (.ok ()) ∧
      s.outcome? (.own 0) 1 = some (.error ⟨sharedEvent "b", .transport (.rejected "full")⟩)))
    (by decide +kernel)
  obtain ⟨rfl, haccepted, hrefused⟩ := of_decide_eq_true hgood
  have hpublishes := trail.publishes
  refine ⟨s, trail, hpublishes, haccepted, hrefused, ?_⟩
  exact (hpublishes.late 2 (sharedEvent "c") (by decide +kernel) (by decide +kernel)).1

end Service

end Observatory
