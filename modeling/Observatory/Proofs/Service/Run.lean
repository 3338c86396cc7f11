import Mathlib
import Observatory.Bus.Service

/-!
# Runs of a service

A run is any sequence of calls from outside and steps of the service's own actors, in any order and
with any time in between. Its trace says what happened to publishes and subscriptions on the way.
The trace is read off the states that the definitions of the service go through: it decides
nothing.
-/

namespace Observatory

/-- What happens to a service. -/
inductive Action where
  | publish (id : PublisherId) (event : Event)
  | usePublisher (id : PublisherId)
  | closePublisher (id : PublisherId)
  | shutdown
  | startPeriodic (id : TaskId) (publisher : PublisherId) (schedule : Schedule)
      (generate : Nat → GeneratorCall) (reports : Bool)
  | startStream (id : TaskId) (publisher : PublisherId) (item : Nat → Option StreamItem)
      (reports : Bool)
  | cancelTask (id : TaskId)
  | takeFailures (id : TaskId)
  | subscribe (id : ReaderId) (target : Target) (rate : Option RateControl) (consumer : Consumer)
  | raiseCancel (id : ReaderId)
  | endUnsubscribe (id : ReaderId)
  | dropConsumer (id : ReaderId)
  | take (id : ReaderId)
  | takeCalls (id : ReaderId) (limit : Nat)
  | get (key : EventKey)
  | getAll (keys : List EventKey)
  | clearStore
  | script (script : Script)
  /-- The transport goes over into any other state, as one of another kind may do. -/
  | rewire (transport : Transport)
  | wait (time : Duration)
  | step (actor : Service.Actor)

/-- What is seen of a run. -/
inductive Mark where
  /-- A driver put an event into the store. -/
  | written (w : Stamped)
  /-- The transport took the write. -/
  | accepted (w : Stamped)
  /-- The transport did not take the write. -/
  | refused (w : Stamped)
  /-- The transport took the driver down with it instead of answering. -/
  | crashed (w : Stamped)
  | cleared
  /-- The transport was put into another state. -/
  | rewired
  | read (key : EventKey) (w : Stamped)
  /-- A subscription was registered with the transport. -/
  | registered (id : ReaderId)
  /-- A subscription became ready and read its seeds. -/
  | seeded (id : ReaderId) (seeds : List Stamped)
  /-- The transport gave a subscription a live event. -/
  | given (id : ReaderId) (w : Stamped)
  /-- The consumer of a subscription got an event. -/
  | handed (id : ReaderId) (e : Event)
  deriving DecidableEq

/-- The transport's answer, as it stands when it is due. -/
def InFlight.answerMark (flight : InFlight) (h : Hub) : Mark :=
  match flight.verdict with
  | .crash => .crashed flight.written
  | .fail _ => .refused flight.written
  | .handOn =>
    match h.transport.backend.publish flight.written with
    | .ok _ => .accepted flight.written
    | .error _ => .refused flight.written

/-- What is seen of the next step of a publisher's driver. -/
def Publisher.marks (p : Publisher) (h : Hub) : List Mark :=
  match p.inFlight, p.queue with
  | some flight, _ => [flight.answerMark h]
  | none, request :: _ => [.written (h.store.put request.event.key request.event).1.written]
  | none, [] => []

/-- What is seen of an event that the driver has for the consumer. -/
def Consumer.marks (consumer : Consumer) (id : ReaderId) (e : Event) : List Mark :=
  match consumer with
  | .stream _ | .channel _ => []
  | .callback _ _ | .asyncCallback _ _ => [.handed id e]

/-- What is seen of the event that the transport has for a running subscription. -/
def Pipeline.givenMarks (p : Pipeline) (h : Hub) (id : ReaderId) : List Mark :=
  if p.seeds.isEmpty && !h.transport.backend.isQuiet id then
    match (h.nextLive id).1 with
    | .item w => [.given id w]
    | .pending | .ended => []
  else []

/-- What is seen of the next step of a subscription's driver. -/
def Subscription.marks (s : Subscription) (h : Hub) (id : ReaderId) : List Mark :=
  if s.cancelRaised then []
  else
    match s.stage with
    | .stopped => []
    | .spawned =>
      match h.transport.script.subscribe, s.target.register id h.transport.backend with
      | .handOn, .ok _ => [.registered id]
      | _, _ => []
    | .registering _ => [.seeded id (s.target.seeds h.store)]
    | .streaming p =>
      p.givenMarks h id ++
        match p.advance? s.target h id with
        | some (.emit e _, _) => s.consumer.marks id e
        | _ => []
    | .handing _ e .room =>
      if (s.consumer.mailbox?.map Mailbox.isOpen).getD false then [.handed id e] else []
    | .handing _ _ _ => []

namespace Service

variable {s s' : Service} {a : Action} {t : List Mark}

def marks (s : Service) : Action → List Mark
  | .get key => [.read key (s.hub.store.read key)]
  | .getAll keys => (EventKey.sortDistinct keys).map fun key => .read key (s.hub.store.read key)
  | .clearStore => [.cleared]
  | .rewire _ => [.rewired]
  | .step (.publisher id) => (s.publishers.get? id).elim [] fun p => p.marks s.hub
  | .step (.subscription id) => (s.subscriptions.get? id).elim [] fun sub => sub.marks s.hub id
  | _ => []

/-- The service after an action, if it is possible now. Tasks and subscriptions get names of their
own. -/
def perform? (s : Service) : Action → Option Service
  | .publish id event => some (s.publish id event).2
  | .usePublisher id => some (s.usePublisher id)
  | .closePublisher id => some (s.closePublisher id)
  | .shutdown => some s.shutdown
  | .startPeriodic id publisher schedule generate reports =>
    if s.tasks.contains id then none
    else (s.startPeriodic id publisher schedule generate reports).toOption
  | .startStream id publisher item reports =>
    if s.tasks.contains id then none else some (s.startStream id publisher item reports)
  | .cancelTask id => some (s.cancelTask id)
  | .takeFailures id => some (s.modifyTask id fun task => task.takeFailures.2)
  | .subscribe id target rate consumer =>
    if s.subscriptions.contains id then none else some (s.subscribe id target rate consumer)
  | .raiseCancel id => some (s.modifySubscription id Subscription.raiseCancel)
  | .endUnsubscribe id =>
    some (s.modifySubscription id fun sub => sub.unsubscribed?.getD sub)
  | .dropConsumer id => some (s.modifySubscription id Subscription.dropConsumer)
  | .take id => some (s.modifySubscription id fun sub => sub.take.2)
  | .takeCalls id limit => some (s.modifySubscription id fun sub => (sub.takeCalls limit).2)
  | .get _ | .getAll _ => some s
  | .clearStore => some s.clearStore
  | .script script => some (s.withScript script)
  | .rewire transport => some { s with hub := { s.hub with transport } }
  | .wait time => some { s with hub := { s.hub with now := s.hub.now + time } }
  | .step actor => s.advance? actor

/-- The service `s` is reached from `start` with the trace `t`. -/
inductive Run (start : Service) : List Mark → Service → Prop where
  | start : Run start [] start
  | step {t : List Mark} {s s' : Service} {a : Action} (run : Run start t s)
      (h : s.perform? a = some s') : Run start (t ++ s.marks a) s'

/-- The trace and the end of a sequence of actions, if all of them are possible. -/
def follow (s : Service) : List Action → Option (List Mark × Service)
  | [] => some ([], s)
  | a :: actions => do
    let next ← s.perform? a
    let (t, last) ← next.follow actions
    return (s.marks a ++ t, last)

theorem Run.follow {start last : Service} {actions : List Action} {t' : List Mark}
    (run : Run start t s) (h : s.follow actions = some (t', last)) : Run start (t ++ t') last := by
  induction actions generalizing s t t' with
  | nil =>
    cases h
    rwa [List.append_nil]
  | cons a actions ih =>
    simp only [Service.follow, Option.bind_eq_bind, Option.bind_eq_some_iff] at h
    obtain ⟨next, hnext, ⟨rest, end'⟩, hrest, heq⟩ := h
    cases heq
    rw [← List.append_assoc]
    exact ih (run.step hnext) hrest

theorem exists_of_follow_append {last : Service} {early late : List Action}
    (h : s.follow (early ++ late) = some (t, last)) : ∃ t' mid t'',
      s.follow early = some (t', mid) ∧ mid.follow late = some (t'', last) ∧ t = t' ++ t'' := by
  induction early generalizing s t with
  | nil => exact ⟨[], s, t, rfl, h, rfl⟩
  | cons a early ih =>
    simp only [List.cons_append, Service.follow, Option.bind_eq_bind,
      Option.bind_eq_some_iff] at h ⊢
    obtain ⟨next, hnext, ⟨rest, last'⟩, hrest, heq⟩ := h
    cases heq
    obtain ⟨t', mid, t'', hearly, hlate, rfl⟩ := ih hrest
    refine ⟨s.marks a ++ t', mid, t'', ⟨next, hnext, (t', mid), hearly, rfl⟩, hlate, ?_⟩
    rw [List.append_assoc]

theorem exists_run_of_follow (start : Service) (actions : List Action)
    (good : List Mark → Service → Bool)
    (h : (start.follow actions).any (fun last => good last.1 last.2) = true) :
    ∃ t s, Run start t s ∧ good t s = true := by
  cases hfollow : start.follow actions with
  | none =>
    rw [hfollow] at h
    cases h
  | some last =>
    obtain ⟨t, s⟩ := last
    rw [hfollow] at h
    exact ⟨t, s, Run.start.follow hfollow, h⟩

/-! ## What actions change -/

theorem exists_of_startPeriodic {id : TaskId} {publisher : PublisherId} {schedule : Schedule}
    {generate : Nat → GeneratorCall} {reports : Bool}
    (h : s.perform? (.startPeriodic id publisher schedule generate reports) = some s') :
    ∃ tasks, s' = { s.usePublisher publisher with tasks } := by
  simp only [perform?] at h
  split at h
  · cases h
  · unfold startPeriodic at h
    cases hcheck : schedule.check with
    | error error =>
      rw [hcheck] at h
      cases h
    | ok _ =>
      rw [hcheck] at h
      cases h
      exact ⟨_, rfl⟩

theorem exists_of_startStream {id : TaskId} {publisher : PublisherId}
    {item : Nat → Option StreamItem} {reports : Bool}
    (h : s.perform? (.startStream id publisher item reports) = some s') :
    ∃ tasks, s' = { s.usePublisher publisher with tasks } := by
  simp only [perform?] at h
  split at h
  · cases h
  · cases h
    exact ⟨_, rfl⟩

theorem exists_of_advancePublisher {id : PublisherId} (h : s.advancePublisher? id = some s') :
    ∃ p p' hub, s.publishers.get? id = some p ∧ p.advance? s.hub = some (p', hub) ∧
      s' = { s.withPublisher id p' with hub } := by
  simp only [advancePublisher?, Option.bind_eq_bind, Option.bind_eq_some_iff] at h
  obtain ⟨p, hp, ⟨p', hub⟩, hstep, heq⟩ := h
  exact ⟨p, p', hub, hp, hstep, (Option.some.inj heq).symm⟩

theorem exists_of_advanceTask {id : TaskId} (h : s.advanceTask? id = some s') :
    ∃ entry task p, s.tasks.get? id = some entry ∧
      entry.task.advance? s.hub (s.publisher entry.publisher) = some (task, p) ∧
      s' = { s.withPublisher entry.publisher p with
        tasks := s.tasks.insert id { entry with task } } := by
  simp only [advanceTask?, Option.bind_eq_bind, Option.bind_eq_some_iff] at h
  obtain ⟨entry, hentry, ⟨task, p⟩, hstep, heq⟩ := h
  exact ⟨entry, task, p, hentry, hstep, (Option.some.inj heq).symm⟩

theorem exists_of_advanceSubscription {id : ReaderId} (h : s.advanceSubscription? id = some s') :
    ∃ sub sub' hub, s.subscriptions.get? id = some sub ∧
      sub.advance? s.hub id = some (sub', hub) ∧
      s' = { s with hub, subscriptions := s.subscriptions.insert id sub' } := by
  simp only [advanceSubscription?, Option.bind_eq_bind, Option.bind_eq_some_iff] at h
  obtain ⟨sub, hsub, ⟨sub', hub⟩, hstep, heq⟩ := h
  exact ⟨sub, sub', hub, hsub, hstep, (Option.some.inj heq).symm⟩

theorem exists_of_closePublisher (s : Service) (id : PublisherId) :
    ∃ publishers tasks, s.closePublisher id = { s with publishers, tasks } := by
  unfold closePublisher
  dsimp only
  split
  · exact ⟨s.publishers, s.tasks, rfl⟩
  · exact ⟨_, _, rfl⟩

theorem exists_of_shutdown (s : Service) :
    ∃ publishers tasks, s.shutdown =
      { s with publishers, tasks, hub := s.hub.withBackend s.hub.transport.backend.shutdown } := by
  unfold shutdown
  dsimp only
  split
  · obtain ⟨publishers, tasks, hclose⟩ := s.exists_of_closePublisher .shared
    rw [hclose]
    exact ⟨publishers, tasks, rfl⟩
  · exact ⟨s.publishers, s.tasks, rfl⟩

theorem hub_closePublisher (s : Service) (id : PublisherId) :
    (s.closePublisher id).hub = s.hub := by
  obtain ⟨publishers, tasks, hclose⟩ := s.exists_of_closePublisher id
  rw [hclose]

theorem hub_shutdown (s : Service) :
    s.shutdown.hub = s.hub.withBackend s.hub.transport.backend.shutdown := by
  obtain ⟨publishers, tasks, hshutdown⟩ := s.exists_of_shutdown
  rw [hshutdown]

/-- What becomes of the hub in an action. -/
inductive HubChange (s : Service) : Action → Hub → Prop where
  | publisher {id : PublisherId} {p p' : Publisher} {hub : Hub}
      (hp : s.publishers.get? id = some p) (hstep : p.advance? s.hub = some (p', hub)) :
      HubChange s (.step (.publisher id)) hub
  | subscription {id : ReaderId} {sub sub' : Subscription} {hub : Hub}
      (hsub : s.subscriptions.get? id = some sub)
      (hstep : sub.advance? s.hub id = some (sub', hub)) :
      HubChange s (.step (.subscription id)) hub
  | shutdown : HubChange s .shutdown (s.hub.withBackend s.hub.transport.backend.shutdown)
  | clearStore : HubChange s .clearStore { s.hub with store := s.hub.store.clear }
  | script (script : Script) :
      HubChange s (.script script) { s.hub with transport := { s.hub.transport with script } }
  | rewire (transport : Transport) : HubChange s (.rewire transport) { s.hub with transport }
  | wait (time : Duration) : HubChange s (.wait time) { s.hub with now := s.hub.now + time }
  | rest (a : Action) : HubChange s a s.hub

/-- Nothing changes what the service was made of. -/
theorem hub_change (h : s.perform? a = some s') :
    s'.settings = s.settings ∧ HubChange s a s'.hub := by
  cases a with
  | step actor =>
    cases actor with
    | publisher id =>
      obtain ⟨p, p', hub, hp, hstep, rfl⟩ := exists_of_advancePublisher h
      exact ⟨rfl, .publisher hp hstep⟩
    | task id =>
      obtain ⟨entry, task, p, -, -, rfl⟩ := exists_of_advanceTask h
      exact ⟨rfl, .rest _⟩
    | subscription id =>
      obtain ⟨sub, sub', hub, hsub, hstep, rfl⟩ := exists_of_advanceSubscription h
      exact ⟨rfl, .subscription hsub hstep⟩
  | closePublisher id =>
    cases h
    obtain ⟨publishers, tasks, hclose⟩ := s.exists_of_closePublisher id
    rw [hclose]
    exact ⟨rfl, .rest _⟩
  | shutdown =>
    cases h
    obtain ⟨publishers, tasks, hshutdown⟩ := s.exists_of_shutdown
    rw [hshutdown]
    exact ⟨rfl, .shutdown⟩
  | startPeriodic id publisher schedule generate reports =>
    obtain ⟨tasks, rfl⟩ := exists_of_startPeriodic h
    exact ⟨rfl, .rest _⟩
  | startStream id publisher item reports =>
    obtain ⟨tasks, rfl⟩ := exists_of_startStream h
    exact ⟨rfl, .rest _⟩
  | subscribe id target rate consumer =>
    simp only [perform?] at h
    split at h
    next => cases h
    next =>
      cases h
      exact ⟨rfl, .rest _⟩
  | clearStore =>
    cases h
    exact ⟨rfl, .clearStore⟩
  | script script =>
    cases h
    exact ⟨rfl, .script script⟩
  | rewire transport =>
    cases h
    exact ⟨rfl, .rewire transport⟩
  | wait time =>
    cases h
    exact ⟨rfl, .wait time⟩
  | publish _ _ | usePublisher _ | cancelTask _ | takeFailures _ | raiseCancel _ | endUnsubscribe _
  | dropConsumer _ | take _ | takeCalls _ _ | get _ | getAll _ =>
    cases h
    exact ⟨rfl, .rest _⟩

/-! ## Runs on one key -/

/-- A key that publishers and readers share. -/
def sharedKey : EventKey := ⟨⟨.csw, "rollback"⟩, ⟨"shared"⟩⟩

def sharedEvent (id : String) : Event :=
  .create .system sharedKey ⟨id⟩ .epoch

def logService : Service :=
  withTransport logBacked .epoch (.ofBackend (.log (.create Settings.defaultLogRetention)))

theorem backendOf_logBacked :
    backendOf logBacked = .ok (.log (.create Settings.defaultLogRetention)) :=
  rfl

end Service

end Observatory
