import Observatory.Proofs.Service.Publishing
import Observatory.Proofs.Service.Trail

/-!
# Journals of publishers

What happens to one publisher in a run: calls and closing from outside and from tasks, offers and
answers in its driver. Whatever a service does, a publisher makes one of few moves.
-/

namespace Observatory

/-- What happens to a publisher. -/
inductive Moment where
  | called (ticket : Ticket) (event : Event)
  | closed
  /-- The driver wrote the event of a call to the store and offered it to the transport. -/
  | offered (ticket : Ticket) (w : Stamped)
  | accepted (ticket : Ticket) (w : Stamped)
  | refused (ticket : Ticket) (w : Stamped)
  /-- The transport took the driver down with it instead of answering. -/
  | crashed (ticket : Ticket) (w : Stamped)
  deriving DecidableEq

/-- What a trace says of a moment. -/
def Moment.mark? : Moment → Option Mark
  | .called _ _ | .closed => none
  | .offered _ w => some (.written w)
  | .accepted _ w => some (.accepted w)
  | .refused _ w => some (.refused w)
  | .crashed _ w => some (.crashed w)

/-- The transport's answer, as it stands when it is due. -/
def InFlight.answer (flight : InFlight) (h : Hub) : Moment :=
  match flight.verdict with
  | .crash => .crashed flight.ticket flight.written
  | .fail _ => .refused flight.ticket flight.written
  | .handOn =>
    match h.transport.backend.publish flight.written with
    | .ok _ => .accepted flight.ticket flight.written
    | .error _ => .refused flight.ticket flight.written

theorem InFlight.answer_cases (flight : InFlight) (h : Hub) :
    flight.answer h = .accepted flight.ticket flight.written ∨
      flight.answer h = .refused flight.ticket flight.written ∨
      flight.answer h = .crashed flight.ticket flight.written := by
  unfold answer
  cases flight.verdict with
  | crash => exact .inr (.inr rfl)
  | fail error => exact .inr (.inl rfl)
  | handOn =>
    dsimp only
    cases h.transport.backend.publish flight.written with
    | ok backend => exact .inl rfl
    | error error => exact .inr (.inl rfl)

/-- What happens in the next step of the driver. -/
def Publisher.moments (p : Publisher) (h : Hub) : List Moment :=
  match p.inFlight, p.queue with
  | some flight, _ => [flight.answer h]
  | none, request :: _ =>
    [.offered request.ticket (h.store.put request.event.key request.event).1.written]
  | none, [] => []

/-- What the next step of a task does to its publisher. -/
def PublishTask.moments (task : PublishTask) (p : Publisher) : List Moment :=
  match task.phase with
  | .making _ (.event e) => if task.abandons then [] else [.called p.nextTicket e]
  | _ => []

/-- What an action does to the publisher of a name. -/
def Service.moments (id : PublisherId) (s : Service) : Action → List Moment
  | .publish id' event => if id' = id then [.called (s.publisher id).nextTicket event] else []
  | .closePublisher id' => if id' = id then [.closed] else []
  | .shutdown => if .shared = id ∧ s.publishers.contains .shared then [.closed] else []
  | .step (.publisher id') => if id' = id then (s.publisher id).moments s.hub else []
  | .step (.task task) =>
    match s.tasks.get? task with
    | some entry =>
      if entry.publisher = id then entry.task.moments (s.publisher id) else []
    | none => []
  | _ => []

namespace Publisher

/-- What can happen to a publisher at once, and what becomes of it. Stamps up to `last` are used
before, and up to `last'` afterwards. -/
inductive Move (p : Publisher) (last last' : Nat) : List Moment → Publisher → Prop where
  | rest (hlast : last ≤ last') : Move p last last' [] p
  | close (hlast : last ≤ last') : Move p last last' [.closed] p.close
  | enqueue (event : Event) (hlast : last ≤ last') (hopen : p.closed = false)
      (hrunning : p.stopped = false) :
      Move p last last' [.called p.nextTicket event]
        { p with queue := p.queue ++ [⟨p.nextTicket, event⟩], nextTicket := p.nextTicket + 1 }
  | turnAway (event : Event) (reason : FailureReason) (hlast : last ≤ last')
      (hreason : reason = if p.closed then .publisherClosed else .driverStopped)
      (hshut : p.closed = true ∨ p.stopped = true) :
      Move p last last' [.called p.nextTicket event]
        ({ p with nextTicket := p.nextTicket + 1 }.settleCall p.nextTicket
          (.error ⟨event, reason⟩))
  | offer (request : Request) (rest : List Request) (flight : InFlight) (hlast : last' = last + 1)
      (hrunning : p.stopped = false) (hfree : p.inFlight = none)
      (hqueue : p.queue = request :: rest) (hticket : flight.ticket = request.ticket)
      (hwritten : flight.written = ⟨last + 1, request.event⟩) :
      Move p last last' [.offered flight.ticket flight.written]
        { p with queue := rest, inFlight := some flight }
  | accept (flight : InFlight) (hlast : last ≤ last') (hrunning : p.stopped = false)
      (hflight : p.inFlight = some flight) :
      Move p last last' [.accepted flight.ticket flight.written]
        { p.settleCall flight.ticket (.ok ()) with inFlight := none }
  | refuse (flight : InFlight) (error : TransportError) (hlast : last ≤ last')
      (hrunning : p.stopped = false) (hflight : p.inFlight = some flight) :
      Move p last last' [.refused flight.ticket flight.written]
        { p.settleCall flight.ticket (.error ⟨flight.written.event, .transport error⟩) with
          inFlight := none }
  | crash (flight : InFlight) (hlast : last ≤ last') (hrunning : p.stopped = false)
      (hflight : p.inFlight = some flight) :
      Move p last last' [.crashed flight.ticket flight.written] (p.crash flight)

variable {p p' : Publisher} {last last' : Nat}

theorem Move.publish (event : Event) (hlast : last ≤ last') :
    Move p last last' [.called p.nextTicket event] (p.publish event).2 := by
  cases hclosed : p.closed with
  | true =>
    have hpublish : (p.publish event).2 = { p with nextTicket := p.nextTicket + 1 }.settleCall
        p.nextTicket (.error ⟨event, .publisherClosed⟩) := by
      simp [Publisher.publish, hclosed]
    rw [hpublish]
    exact .turnAway event _ hlast (by simp [hclosed]) (.inl hclosed)
  | false =>
    cases hstopped : p.stopped with
    | true =>
      have hpublish : (p.publish event).2 = { p with nextTicket := p.nextTicket + 1 }.settleCall
          p.nextTicket (.error ⟨event, .driverStopped⟩) := by
        simp [Publisher.publish, hclosed, hstopped]
      rw [hpublish]
      exact .turnAway event _ hlast (by simp [hclosed]) (.inr hstopped)
    | false =>
      have hpublish : (p.publish event).2 =
          { p with queue := p.queue ++ [⟨p.nextTicket, event⟩]
                   nextTicket := p.nextTicket + 1 } := by
        simp [Publisher.publish, hclosed, hstopped]
      rw [hpublish]
      exact .enqueue event hlast hclosed hstopped

theorem Move.answer {h h' : Hub} {flight : InFlight} (hrunning : p.stopped = false)
    (hflight : p.inFlight = some flight) (hlast : last ≤ last')
    (hstep : p.answer h flight = (p', h')) : Move p last last' [flight.answer h] p' := by
  unfold Publisher.answer at hstep
  unfold InFlight.answer
  cases hverdict : flight.verdict with
  | crash =>
    rw [hverdict] at hstep
    cases hstep
    exact .crash flight hlast hrunning hflight
  | fail error =>
    rw [hverdict] at hstep
    cases hstep
    exact .refuse flight error hlast hrunning hflight
  | handOn =>
    simp only [hverdict] at hstep ⊢
    cases hpublish : h.transport.backend.publish flight.written with
    | error error =>
      simp only [hpublish] at hstep ⊢
      cases hstep
      exact .refuse flight error hlast hrunning hflight
    | ok backend =>
      simp only [hpublish] at hstep ⊢
      cases hstep
      exact .accept flight hlast hrunning hflight

/-- The driver takes the answer to the publish in flight, or offers the next event. -/
theorem cases_of_advance {h h' : Hub} (hstep : p.advance? h = some (p', h')) :
    p.stopped = false ∧
      ((∃ flight, p.inFlight = some flight ∧ flight.due ≤ h.now ∧
          p.answer h flight = (p', h')) ∨
        ∃ request rest, p.inFlight = none ∧ p.queue = request :: rest ∧
          p.offer h request rest = (p', h')) := by
  unfold Publisher.advance? at hstep
  split at hstep
  next => cases hstep
  next hstopped =>
    rw [Bool.not_eq_true] at hstopped
    refine ⟨hstopped, ?_⟩
    cases hflight : p.inFlight with
    | some flight =>
      simp only [hflight] at hstep
      split at hstep
      next hdue => exact .inl ⟨flight, rfl, hdue, Option.some.inj hstep⟩
      next => cases hstep
    | none =>
      cases hqueue : p.queue with
      | nil =>
        simp only [hflight, hqueue] at hstep
        cases hstep
      | cons request rest =>
        simp only [hflight, hqueue] at hstep
        exact .inr ⟨request, rest, rfl, rfl, Option.some.inj hstep⟩

theorem Move.advance {h h' : Hub} (hstep : p.advance? h = some (p', h'))
    (hlast : h.store.lastStamp ≤ h'.store.lastStamp) :
    Move p h.store.lastStamp h'.store.lastStamp (p.moments h) p' := by
  unfold Publisher.moments
  obtain ⟨hrunning, ⟨flight, hflight, -, hanswer⟩ | ⟨request, rest, hfree, hqueue, hoffer⟩⟩ :=
    cases_of_advance hstep
  · simp only [hflight]
    exact .answer hrunning hflight hlast hanswer
  · simp only [hfree, hqueue]
    cases hoffer
    exact .offer request rest
      ⟨request.ticket, _, _, h.transport.script.publish, _⟩ rfl hrunning hfree hqueue rfl rfl

theorem Move.task {task task' : PublishTask} {h : Hub} (hlast : last ≤ last')
    (hstep : task.advance? h p = some (task', p')) : Move p last last' (task.moments p) p' := by
  unfold PublishTask.advance? at hstep
  unfold PublishTask.moments
  cases hphase : task.phase with
  | finished =>
    rw [hphase] at hstep
    cases hstep
  | idle =>
    rw [hphase] at hstep
    obtain ⟨_, _, heq⟩ := Option.map_eq_some_iff.1 hstep
    cases heq
    exact .rest hlast
  | publishing ticket =>
    rw [hphase] at hstep
    obtain ⟨_, _, heq⟩ := Option.map_eq_some_iff.1 hstep
    cases heq
    exact .rest hlast
  | making due product =>
    simp only [hphase] at hstep
    cases habandons : task.abandons with
    | true =>
      rw [habandons, if_pos rfl] at hstep
      cases hstep
      cases product <;> exact .rest hlast
    | false =>
      rw [habandons, if_neg Bool.false_ne_true] at hstep
      split at hstep
      -- Of all that a task can have made, only an event goes to the publisher.
      · cases product with
        | event e =>
          cases hstep
          exact .publish e hlast
        | nothing =>
          cases hstep
          exact .rest hlast
        | panic =>
          cases hstep
          exact .rest hlast
      · cases hstep

theorem close_of_closed (h : p.closed = true) : p.close = p := by
  cases p
  cases h
  rfl

end Publisher

/-- No stamp is used twice. -/
theorem View.Publishing.lastStamp_le {v v' : View} {marks : List Mark}
    (h : v.Publishing marks v') : v.store.lastStamp ≤ v'.store.lastStamp := by
  cases h with
  | quiet _ _ _ hstore => rw [hstore]
  | clear _ hstore =>
    rw [hstore]
    exact Nat.le_refl _
  | offer _ _ _ _ _ _ _ hstore =>
    rw [hstore]
    exact Nat.le_succ _
  | accept _ _ _ _ hstore => rw [hstore]
  | refuse _ _ _ _ hstore => rw [hstore, Store.undo, Store.lastStamp_restore]
  | crash _ _ _ _ hstore => rw [hstore]

namespace Service

variable {s s' : Service} {id : PublisherId}

theorem publisher_withPublisher (s : Service) (id id' : PublisherId) (p : Publisher) :
    (s.withPublisher id' p).publisher id = if id = id' then p else s.publisher id := by
  by_cases h : id = id'
  · subst h
    simp [publisher, withPublisher]
  · simp [publisher, withPublisher, h]

theorem publisher_usePublisher (s : Service) (id id' : PublisherId) :
    (s.usePublisher id').publisher id = s.publisher id := by
  rw [usePublisher, publisher_withPublisher]
  split
  next h => rw [h]
  next => rfl

theorem publisher_closePublisher (s : Service) (id id' : PublisherId) :
    (s.closePublisher id').publisher id =
      if id = id' then (s.publisher id).close else s.publisher id := by
  unfold closePublisher
  dsimp only
  split
  next hclosed =>
    split
    next h => rw [h, Publisher.close_of_closed hclosed]
    next => rfl
  next =>
    change (s.withPublisher id' (s.publisher id').close).publisher id = _
    rw [publisher_withPublisher]
    split
    next h => rw [h]
    next => rfl

theorem publisher_shutdown (s : Service) (id : PublisherId) :
    s.shutdown.publisher id =
      if .shared = id ∧ s.publishers.contains .shared then (s.publisher id).close
      else s.publisher id := by
  change (if s.publishers.contains .shared then s.closePublisher .shared else s).publisher id = _
  by_cases hused : s.publishers.contains .shared = true
  · simp only [hused, if_true, publisher_closePublisher, and_true, eq_comm]
  · simp only [hused, and_false, if_false, Bool.false_eq_true]

/-- The trace of a run says of writes what the journals of its publishers say. -/
theorem marks_step_publisher (s : Service) (id : PublisherId) :
    s.marks (.step (.publisher id)) =
      (s.moments id (.step (.publisher id))).filterMap Moment.mark? := by
  simp only [marks, moments, if_true]
  cases hp : s.publishers.get? id with
  | none =>
    rw [publisher, hp]
    rfl
  | some p =>
    rw [publisher_of_get? hp, Option.elim_some, Publisher.marks, Publisher.moments]
    cases p.inFlight with
    | some flight =>
      simp only [InFlight.answerMark, InFlight.answer]
      cases flight.verdict with
      | crash => rfl
      | fail error => rfl
      | handOn =>
        dsimp only
        cases s.hub.transport.backend.publish flight.written <;> rfl
    | none => cases p.queue <;> rfl

/-- Whatever a service does, a publisher makes one of its moves. -/
theorem move {a : Action} (h : s.perform? a = some s') :
    (s.publisher id).Move s.hub.store.lastStamp s'.hub.store.lastStamp (s.moments id a)
      (s'.publisher id) := by
  have hlast : s.hub.store.lastStamp ≤ s'.hub.store.lastStamp :=
    (step_view h).publishing.lastStamp_le
  have hrest : s'.publisher id = s.publisher id →
      (s.publisher id).Move s.hub.store.lastStamp s'.hub.store.lastStamp [] (s'.publisher id) :=
    fun heq => heq ▸ .rest hlast
  have hother : ∀ {id' p}, ¬id' = id → (s.withPublisher id' p).publisher id = s.publisher id :=
    fun hid => by rw [publisher_withPublisher, if_neg (Ne.symm hid)]
  -- A publisher that the action does not touch sees of it, if anything, that the last stamp grows.
  cases a with
  | publish id' event =>
    cases h
    simp only [moments]
    split
    next hid =>
      subst hid
      rw [publish, publisher_withPublisher, if_pos rfl]
      exact .publish event hlast
    next hid => exact hrest (hother hid)
  | closePublisher id' =>
    cases h
    rw [moments, publisher_closePublisher]
    simp only [eq_comm (a := id)]
    split
    · exact .close hlast
    · exact .rest hlast
  | shutdown =>
    cases h
    rw [moments, publisher_shutdown]
    split
    · exact .close hlast
    · exact .rest hlast
  | usePublisher id' =>
    cases h
    exact hrest (publisher_usePublisher s id id')
  | startPeriodic name publisher schedule generate reports =>
    obtain ⟨tasks, rfl⟩ := exists_of_startPeriodic h
    exact hrest (publisher_usePublisher s id publisher)
  | startStream name publisher item reports =>
    obtain ⟨tasks, rfl⟩ := exists_of_startStream h
    exact hrest (publisher_usePublisher s id publisher)
  | subscribe name target rate consumer =>
    simp only [perform?] at h
    split at h
    · cases h
    · cases h
      exact hrest rfl
  | step actor =>
    cases actor with
    | publisher id' =>
      obtain ⟨p, p', hub, hp, hstep, rfl⟩ := exists_of_advancePublisher h
      have hafter : ({ s.withPublisher id' p' with hub } : Service).publisher id =
          (s.withPublisher id' p').publisher id := rfl
      simp only [moments]
      rw [hafter]
      split
      next hid =>
        subst hid
        rw [publisher_withPublisher, if_pos rfl, publisher_of_get? hp]
        exact .advance hstep hlast
      next hid =>
        rw [hother hid]
        exact .rest hlast
    | task name =>
      obtain ⟨entry, task, p', hentry, hstep, rfl⟩ := exists_of_advanceTask h
      have hafter : ({ s.withPublisher entry.publisher p' with
          tasks := s.tasks.insert name { entry with task } } : Service).publisher id =
          (s.withPublisher entry.publisher p').publisher id := rfl
      simp only [moments, hentry]
      rw [hafter]
      split
      next hid =>
        rw [hid, publisher_withPublisher, if_pos rfl]
        rw [hid] at hstep
        exact .task hlast hstep
      next hid =>
        rw [hother hid]
        exact .rest hlast
    | subscription name =>
      obtain ⟨sub, sub', hub, -, -, rfl⟩ := exists_of_advanceSubscription h
      exact hrest rfl
  | cancelTask _ | takeFailures _ | raiseCancel _ | endUnsubscribe _ | dropConsumer _ | take _
  | takeCalls _ _ | get _ | getAll _ | clearStore | script _ | rewire _ | wait _ =>
    cases h
    exact hrest rfl

end Service

end Observatory
