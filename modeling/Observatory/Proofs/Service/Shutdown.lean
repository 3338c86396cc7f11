import Observatory.Proofs.Publisher.Calls
import Observatory.Proofs.Service.Pile
import Observatory.Proofs.Subscription.Refusal

/-!
# After the shutdown

Shutting a service down closes its transport, and the one publisher that everybody shares. All other
publishers, and whoever comes later, find the transport closed: their publishes fail and leave the
store as it was, subscriptions to keys are refused, and readers get nothing but the end.
-/

namespace Observatory

open Moment Publisher

namespace Publisher

variable {p p' : Publisher} {last last' : Nat} {t t' : List Moment} {ticket : Ticket}
  {event : Event}

/-- A call that is made later on fails if nothing is accepted from then on. -/
theorem Orderly.failing (h : Orderly (t ++ t') p' last') (early : Orderly t p last)
    (hcall : (ticket, event) ∈ calls t') (hrefused : ∀ w, .accepted ticket w ∉ t')
    {outcome : Outcome} (houtcome : p'.outcome? ticket = some outcome) :
    ∃ reason, outcome = .error ⟨event, reason⟩ := by
  have hwhole : (ticket, event) ∈ calls (t ++ t') := by
    rw [calls_append]
    exact List.mem_append_right _ hcall
  cases h.fates ticket event hwhole with
  | waiting hwait =>
    rw [h.undecided _ hwait] at houtcome
    cases houtcome
  | failed reason _ hfailed => exact ⟨reason, Option.some.inj (houtcome.symm.trans hfailed)⟩
  | accepted w hmark =>
    -- What was accepted early had been called early, with a ticket of its own.
    have hearly := (List.mem_append.1 hmark).resolve_right (hrefused w)
    have hcalled := early.mem_calls_of_answered (mem_answers_of_accepted hearly)
    have hnodup := h.nodup_tickets
    rw [calls_append, List.map_append, List.nodup_append] at hnodup
    have hcalled' : ticket ∈ (calls t).map Prod.fst := List.mem_map_of_mem hcalled
    exact absurd rfl (hnodup.2.2 ticket hcalled' ticket (List.mem_map_of_mem hcall))

end Publisher

namespace Service

variable {settings : Settings} {slot : Nat} {origin : UtcTime} {transport : Transport}
  {start s s' : Service}
  {name : String} {before after t : List (Service × Action)}

/-- The actions leave the transport to the service. -/
def Course.IsPlain (c : Course s) : Prop :=
  ∀ n, (c.action n).isPlain = true

theorem Course.IsPlain.seen {c : Course s} (hplain : c.IsPlain) (n : Nat) :
    ∀ taken ∈ c.seen record n, taken.2.isPlain = true := by
  induction n with
  | zero => exact List.forall_mem_nil _
  | succ n ih => exact List.forall_mem_append.2 ⟨ih, List.forall_mem_singleton.2 (hplain n)⟩

/-- What becomes of a subscription to keys that was made after the shutdown. -/
structure ComesTooLate (name : String) (id : ReaderId) (after : List (Service × Action))
    (s : Service) (sub : Subscription) : Prop where
  silent : ∀ e, .handed id e ∉ readOff marks after
  state : sub.state = .pending ∨ sub.state = .failed (.transport (.closed name)) ∨
    sub.state = .cancelled false ∧
      (CancelledPending id after ∨ .resolved ∈ readOff (sights id) after)
  /-- Unless it is cancelled while it is pending it fails in the end, and stays so until an
  unsubscribe resolves. -/
  fails : ∀ c : Course s, c.IsPlain → c.Fair (.subscription id) →
    (∀ n, ¬CancelledPending id (after ++ c.seen record n)) →
    ∃ n, ∀ m, n ≤ m → .resolved ∉ readOff (sights id) (after ++ c.seen record m) →
      ∃ sub', (c.state m).subscriptions.get? id = some sub' ∧
        sub'.state = .failed (.transport (.closed name))

/-- What a service does after it was shut down. It was `s` then, and `before` had happened; since
then `after` has happened, and it is `s'` now. -/
structure ShutDown (before : List (Service × Action)) (s : Service)
    (after : List (Service × Action)) (s' : Service) : Prop where
  /-- A call that was made since has no outcome but a failure. -/
  failing : ∀ id ticket event, (ticket, event) ∈ calls (readOff (moments id) after) →
    ∀ outcome, s'.outcome? id ticket = some outcome → ∃ reason, outcome = .error ⟨event, reason⟩
  /-- And it gets one. -/
  resolving : ∀ id ticket event, (ticket, event) ∈ calls (readOff (moments id) after) →
    ∀ c : Course s', c.IsPlain → c.Fair (.publisher id) →
      ∃ n reason, (c.state n).outcome? id ticket = some (.error ⟨event, reason⟩)
  /-- While the same publishes are in flight on a key, its entry is the same, unless a write was
  overtaken, or the store was emptied. -/
  entries : ∀ early x a late key, after = early ++ (x, a) :: late →
    (∀ w, w.key = key → .refused w ∈ readOff marks ((x, a) :: late) →
      ¬Overtaken (readOff marks (before ++ (s, .shutdown) :: after)) w) →
    (∀ id flight, flight.written.key = key →
      ((x.publisher id).inFlight = some flight ↔ (s'.publisher id).inFlight = some flight)) →
    s'.hub.store.entries.get? key =
      if .cleared ∈ readOff marks ((x, a) :: late) then none else x.hub.store.entries.get? key
  /-- Readers got nothing since, and there is nothing for them but the end. -/
  ended : (∀ id w, .given id w ∉ readOff marks after) ∧
    ∀ id, (s'.hub.transport.backend.next id).result = .ended
  subscriptions : ∀ id sub keys, s.subscriptions.get? id = none →
    s'.subscriptions.get? id = some sub → sub.target = .keys keys →
    ComesTooLate s.hub.transport.backend.name id after s' sub
  /-- A further shutdown changes nothing, unless the shared publisher was not used before. -/
  again : s'.shutdown = s' ∨
    s.publishers.contains .shared = false ∧ s'.shutdown = s'.closePublisher .shared

theorem exists_backend (h : ofSettings settings origin slot = .ok start) :
    ∃ backend, start = withTransport settings origin (.ofBackend backend) := by
  unfold ofSettings at h
  cases hbackend : backendOf settings slot with
  | error error =>
    rw [hbackend] at h
    cases h
  | ok backend =>
    rw [hbackend] at h
    cases h
    exact ⟨backend, rfl⟩

/-! ## Publishes -/

theorem Trail.accepted_not_mem (hstart : Shut name start)
    (hplain : ∀ taken ∈ t, taken.2.isPlain = true) (trail : Trail record start t s)
    (id : PublisherId) (ticket : Ticket) (w : Stamped) :
    .accepted ticket w ∉ readOff (moments id) t := by
  intro hm
  obtain ⟨taken, htaken, hmoment⟩ := List.mem_flatMap.1 hm
  exact ((trail.shut_of_mem hstart hplain htaken).moments hmoment).1 ticket w rfl

section

variable {id : PublisherId} {ticket : Ticket} {event : Event}

theorem Trail.orderly_shutdown
    (early : Trail record (withTransport settings origin transport) before s) (id : PublisherId) :
    Orderly (readOff (moments id) (before ++ record s .shutdown)) (s.shutdown.publisher id)
      s.shutdown.hub.store.lastStamp :=
  ((early.step (a := .shutdown) rfl).seenBy (moments id)).orderly

theorem Trail.failing (early : Trail record (withTransport settings origin transport) before s)
    (hs : Shut name s.shutdown) (hafter : ∀ taken ∈ after, taken.2.isPlain = true)
    (late : Trail record s.shutdown after s')
    (hcall : (ticket, event) ∈ calls (readOff (moments id) after)) {outcome : Outcome}
    (houtcome : s'.outcome? id ticket = some outcome) :
    ∃ reason, outcome = .error ⟨event, reason⟩ :=
  ((late.seenBy (moments id)).orderly_after (early.orderly_shutdown id)).failing
    (early.orderly_shutdown id) hcall (late.accepted_not_mem hs hafter id ticket) houtcome

theorem Trail.resolving (early : Trail record (withTransport settings origin transport) before s)
    (hs : Shut name s.shutdown) (hafter : ∀ taken ∈ after, taken.2.isPlain = true)
    (late : Trail record s.shutdown after s')
    (hcall : (ticket, event) ∈ calls (readOff (moments id) after)) (c : Course s')
    (hplain : c.IsPlain) (fair : c.Fair (.publisher id)) :
    ∃ n reason, (c.state n).outcome? id ticket = some (.error ⟨event, reason⟩) := by
  have hwhole := (late.seenBy (moments id)).orderly_after (early.orderly_shutdown id)
  have hmem : (ticket, event) ∈ calls (readOff (moments id) (before ++ record s .shutdown) ++
      readOff (moments id) after) := by
    rw [calls_append]
    exact List.mem_append_right _ hcall
  obtain ⟨n, hsome⟩ := fair.resolves hwhole hmem
  obtain ⟨outcome, houtcome⟩ := Option.ne_none_iff_exists'.1 hsome
  -- The course goes on with the run after the shutdown.
  have hlater : (ticket, event) ∈ calls (readOff (moments id) (after ++ c.seen record n)) := by
    rw [readOff_append, calls_append]
    exact List.mem_append_left _ hcall
  obtain ⟨reason, rfl⟩ := early.failing hs
    (List.forall_mem_append.2 ⟨hafter, hplain.seen n⟩) (late.trans (c.trail record n)) hlater
    houtcome
  exact ⟨n, reason, houtcome⟩

end

/-! ## The store -/

theorem Trail.entry_eq
    (early : Trail record (withTransport settings origin transport) before s)
    (hs : ∀ taken ∈ after, Shut name taken.1) (late : Trail record s after s') {key : EventKey}
    (hover : ∀ w, w.key = key → .refused w ∈ readOff marks after →
      ¬Overtaken (readOff marks (before ++ after)) w)
    (hsame : ∀ id flight, flight.written.key = key →
      ((s.publisher id).inFlight = some flight ↔ (s'.publisher id).inFlight = some flight)) :
    s'.hub.store.entries.get? key =
      if .cleared ∈ readOff marks after then none else s.hub.store.entries.get? key := by
  refine early.run_readOff.get?_of_refused late.run_readOff (fun w => ?_) ?_ hsame
  · refine ⟨fun hm => ?_, fun hm => ?_⟩ <;>
      · obtain ⟨taken, htaken, hmark⟩ := List.mem_flatMap.1 hm
        have hanswers := (hs taken htaken).marks (a := taken.2) w
        first | exact hanswers.1 hmark | exact hanswers.2 hmark
  · rwa [← readOff_append]

/-! ## Subscriptions -/

theorem Trail.comesTooLate (hstart : Shut name start)
    (hplain : ∀ taken ∈ t, taken.2.isPlain = true) (trail : Trail record start t s)
    {id : ReaderId} {sub : Subscription} {keys : List EventKey}
    (hnone : start.subscriptions.get? id = none) (hsub : s.subscriptions.get? id = some sub)
    (hkeys : sub.target = .keys keys) : ComesTooLate name id t s sub := by
  have hlate := (trail.atMostLate hstart hnone hplain).2 sub keys hsub hkeys
  refine ⟨hlate.silent, ?state, fun c hc fair hpending => ?fails⟩
  case state =>
    cases hlate.doomed with
    | waiting _ hstate => exact .inl hstate
    | failed _ hstate => exact .inr (.inl hstate)
    | cancelled _ hstate => exact .inr (.inr ⟨hstate, hlate.cancelled hstate⟩)
  case fails =>
    have hon := fun n => List.forall_mem_append.2 ⟨hplain, hc.seen n⟩
    have hgoes := fun n => trail.trans (c.trail record n)
    obtain ⟨n, hstop⟩ :=
      fair.stops (fun n => (hgoes n).keeps Shut.step hstart (hon n)) hsub hkeys hlate.doomed
    refine ⟨n, fun m hm hresolved => ?_⟩
    obtain ⟨sub', hsub', hkeys', hstopped⟩ := hstop m hm
    have hlate' := ((hgoes m).atMostLate hstart hnone (hon m)).2 sub' keys hsub' hkeys'
    refine ⟨sub', hsub', ?_⟩
    cases hlate'.doomed with
    | waiting hspawned => cases hspawned.symm.trans hstopped
    | failed _ hstate => exact hstate
    | cancelled _ hstate =>
      exact absurd (hlate'.cancelled hstate) (not_or.2 ⟨hpending m, hresolved⟩)

/-! ## Shutting down again -/

/-- A further shutdown finds the transport closed. -/
theorem Shut.shutdown_eq (hs : Shut name s) : s.shutdown =
    if s.publishers.contains .shared then s.closePublisher .shared else s := by
  have hsame : ∀ x : Service, x.hub = s.hub →
      { x with hub := x.hub.withBackend x.hub.transport.backend.shutdown } = x := by
    intro x hx
    rw [hx, Backend.shutdown_of_closed hs.closed, ← hx]
    rfl
  refine hsame _ ?_
  split
  · exact hub_closePublisher s .shared
  · rfl

theorem Trail.closed_publisher {t : List Moment} {id : PublisherId}
    (trail : Trail (moments id) (withTransport settings origin transport) t s)
    (hclosed : .closed ∈ t) : (s.publisher id).closed = true :=
  trail.orderly.closed.2 hclosed

theorem Trail.shutdown_again
    (trail : Trail record (withTransport settings origin transport)
      (before ++ (s, .shutdown) :: after) s') (hs : Shut name s') :
    s'.shutdown = s' ∨
      s.publishers.contains .shared = false ∧ s'.shutdown = s'.closePublisher .shared := by
  rw [hs.shutdown_eq]
  cases hused : s.publishers.contains .shared with
  | false =>
    split
    · exact .inr ⟨rfl, rfl⟩
    · exact .inl rfl
  | true =>
    left
    -- The first shutdown has closed the shared publisher, and it stays closed.
    have hmoment : .closed ∈ readOff (moments .shared) (before ++ (s, .shutdown) :: after) := by
      rw [readOff_append, readOff_cons, moments, if_pos ⟨rfl, hused⟩]
      exact List.mem_append_right _ List.mem_cons_self
    split
    · exact if_pos ((trail.seenBy (moments .shared)).closed_publisher hmoment)
    · rfl

/-! ## All of it -/

/-- A service on a transport of its own, and left to itself, does what is to be expected after its
shutdown. -/
theorem Trail.shutsDown (hstart : ofSettings settings origin slot = .ok start)
    (hplain : ∀ taken ∈ before ++ (s, .shutdown) :: after, taken.2.isPlain = true)
    (trail : Trail record start (before ++ (s, .shutdown) :: after) s') :
    ShutDown before s after s' := by
  obtain ⟨backend, rfl⟩ := exists_backend hstart
  obtain ⟨early, next, hnext, late⟩ := trail.split
  cases hnext
  -- From the shutdown on the transport is closed, and this carries all the parts.
  obtain ⟨hbefore, hrest⟩ := List.forall_mem_append.1 hplain
  have hafter := (List.forall_mem_cons.1 hrest).2
  have hdown := (early.keeps Direct.step (direct_start settings origin backend) hbefore).shutdown
  have hs := late.keeps Shut.step hdown hafter
  refine ⟨?failing, ?resolving, ?entries, ⟨?given, ?ended⟩, ?subscriptions, ?again⟩
  case failing =>
    intro id ticket event hcall outcome houtcome
    exact early.failing hdown hafter late hcall houtcome
  case resolving =>
    intro id ticket event hcall c hc fair
    exact early.resolving hdown hafter late hcall c hc fair
  case entries =>
    rintro mid x a rest key rfl hover hsame
    rw [← List.cons_append, ← List.append_assoc] at trail hover
    obtain ⟨upTo, next, hnext, later⟩ := trail.split
    have hshut : ∀ taken ∈ (x, a) :: rest, Shut s.hub.transport.backend.name taken.1 :=
      fun taken htaken => late.shut_of_mem hdown hafter (List.mem_append_right _ htaken)
    exact upTo.entry_eq hshut ((Trail.start.step hnext).trans later) hover hsame
  case given =>
    intro id w hm
    obtain ⟨taken, htaken, hmark⟩ := List.mem_flatMap.1 hm
    obtain ⟨first, last, rfl⟩ := List.append_of_mem htaken
    obtain ⟨upTo, next, hnext, later⟩ := late.split
    have hclosed := (late.shut_of_mem hdown hafter htaken).closed
    exact (step_view hnext).given_not_mem hclosed id w hmark
  case ended =>
    intro id
    rw [Backend.next_eq_ended hs.closed]
  case subscriptions =>
    intro id sub keys hnone hsub hkeys
    refine late.comesTooLate hdown hafter ?_ hsub hkeys
    rw [subscriptions_shutdown, hnone]
  case again => exact trail.shutdown_again hs

/-- What happens before the shutdown: an event is published, and read by the subscription `0`, which
has another event to read. -/
def openingHours : List Action :=
  [.subscribe 0 (.keys [sharedKey]) none (.callback .empty fun _ => false),
    .step (.subscription 0), .step (.subscription 0), .step (.subscription 0),
    .publish (.own 0) (sharedEvent "a"), .step (.publisher (.own 0)),
    .step (.publisher (.own 0))]

/-- And after it: two publishers publish, one of them new, and a subscription is made. -/
def afterHours : List Action :=
  [.publish (.own 0) (sharedEvent "b"), .publish .shared (sharedEvent "c"),
    .step (.publisher (.own 0)), .step (.publisher (.own 0)), .step (.publisher .shared),
    .step (.publisher .shared), .subscribe 1 (.keys [sharedKey]) none (.channel ⟨1, [], true⟩),
    .step (.subscription 1), .step (.subscription 0), .shutdown]

theorem ofSettings_logBacked : ofSettings logBacked .epoch = .ok logService :=
  rfl

theorem shutsDown_afterHours : ∃ before s after s',
    Trail record logService (before ++ (s, .shutdown) :: after) s' ∧ ShutDown before s after s' ∧
      calls (readOff (moments (.own 0)) after) = [(1, sharedEvent "b")] ∧
      s'.outcome? (.own 0) 1 =
        some (.error ⟨sharedEvent "b", .transport (.closed Log.name)⟩) ∧
      s'.hub.store.entries.get? sharedKey = some ⟨1, sharedEvent "a"⟩ ∧
      (s'.subscriptions.get? 1).map Subscription.state =
        some (.failed (.transport (.closed Log.name))) := by
  have trail := (Trail.replay logService openingHours).join (a := .shutdown) rfl
    (Trail.replay (logService.replay openingHours).2.shutdown afterHours)
  refine ⟨_, _, _, _, trail, trail.shutsDown ofSettings_logBacked (List.all_eq_true.1 ?_), ?_⟩
  · decide +kernel
  · decide +kernel

/-- The shared publisher is used for the first time when the service was shut down already, and the
second shutdown closes it. -/
theorem not_shutdown_again : ¬∀ before s after s',
    Trail record logService (before ++ (s, .shutdown) :: after) s' →
    (∀ taken ∈ before ++ (s, .shutdown) :: after, taken.2.isPlain = true) →
    ∀ id, (s'.shutdown.publisher id).closed = (s'.publisher id).closed := by
  intro hall
  have opened : Trail record logService [] logService := .start
  have trail := opened.join (a := .shutdown) rfl
    (Trail.replay logService.shutdown [.usePublisher .shared])
  have hsame := hall _ _ _ _ trail (List.all_eq_true.1 (by decide +kernel)) .shared
  revert hsame
  decide +kernel

end Service

end Observatory
