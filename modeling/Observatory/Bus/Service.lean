import Observatory.Bus.Subscription.Basic
import Observatory.Bus.Task
import Observatory.Settings.Basic
import Observatory.Text.Quoted

/-!
# The service

One hub with its publishers, publishing tasks and subscriptions. Publishers come into being when
they are first used; one of them is shared by everybody who does not ask for an own one, and ends
with the service. Tasks and subscriptions go by names that the caller chooses.

The operations here only change the state of the service. What follows from a change happens when
the service runs (`Service.advance?`).
-/

namespace Observatory

inductive PublisherId where
  /-- The publisher that ends with the service. -/
  | shared
  | own (n : Nat)
  deriving DecidableEq, Repr

abbrev TaskId := Nat

structure TaskEntry where
  publisher : PublisherId
  task : PublishTask

structure Service where
  settings : Settings
  hub : Hub
  publishers : Table PublisherId Publisher
  tasks : Table TaskId TaskEntry
  subscriptions : Table ReaderId Subscription

namespace Service

/-! ## Beginning and end -/

def withTransport (settings : Settings) (origin : UtcTime) (transport : Transport) : Service :=
  ⟨settings, .start origin transport, .empty, .empty, .empty⟩

/-- The backend that settings ask for, whose channels take `slot` bytes for an event. -/
def backendOf (settings : Settings) (slot : optParam Nat Keyspace.usualSlot) :
    Except BusError Backend :=
  match settings.transport with
  | .log => .ok (.log (.create settings.logRetention))
  | .keyspace =>
    match Keyspace.create? slot settings.channelCapacity with
    | some t => .ok (.keyspace t)
    | none => .error (.capacityOutOfRange settings.channelCapacity)

def ofSettings (settings : Settings) (origin : UtcTime) (slot : optParam Nat Keyspace.usualSlot) :
    Except BusError Service := do
  return withTransport settings origin (.ofBackend (← backendOf settings slot))

def logBacked : Settings :=
  { Settings.default with transport := .log }

def withScript (s : Service) (script : Script) : Service :=
  { s with hub := { s.hub with transport := { s.hub.transport with script } } }

def clearStore (s : Service) : Service :=
  { s with hub := { s.hub with store := s.hub.store.clear } }

/-! ## Publishers -/

/-- The publisher of a name, as new if it was not used. -/
def publisher (s : Service) (id : PublisherId) : Publisher :=
  (s.publishers.get? id).getD .start

def withPublisher (s : Service) (id : PublisherId) (p : Publisher) : Service :=
  { s with publishers := s.publishers.insert id p }

def usePublisher (s : Service) (id : PublisherId) : Service :=
  s.withPublisher id (s.publisher id)

def publish (s : Service) (id : PublisherId) (event : Event) : Ticket × Service :=
  let (ticket, p) := (s.publisher id).publish event
  (ticket, s.withPublisher id p)

def outcome? (s : Service) (id : PublisherId) (ticket : Ticket) : Option Outcome :=
  (s.publisher id).outcome? ticket

def TaskEntry.cancelOn (id : PublisherId) (entry : TaskEntry) : TaskEntry :=
  if entry.publisher = id then { entry with task := entry.task.cancel } else entry

/-- Closes a publisher and cancels the tasks that use it, unless it is closed already. -/
def closePublisher (s : Service) (id : PublisherId) : Service :=
  let p := s.publisher id
  if p.closed then s
  else { s.withPublisher id p.close with tasks := s.tasks.map (TaskEntry.cancelOn id) }

/-- Closes the shared publisher, if it was used, and shuts the transport down. -/
def shutdown (s : Service) : Service :=
  -- A shared publisher that comes into being later is an open one.
  let s := if s.publishers.contains .shared then s.closePublisher .shared else s
  { s with hub := s.hub.withBackend s.hub.transport.backend.shutdown }

/-! ## Publishing tasks -/

def startPeriodic (s : Service) (id : TaskId) (publisher : PublisherId) (schedule : Schedule)
    (generate : Nat → GeneratorCall) (reports : Bool) : Except BusError Service := do
  schedule.check
  let entry : TaskEntry := ⟨publisher, .periodic schedule generate reports⟩
  return { s.usePublisher publisher with tasks := s.tasks.insert id entry }

def startStream (s : Service) (id : TaskId) (publisher : PublisherId)
    (item : Nat → Option StreamItem) (reports : Bool) : Service :=
  let entry : TaskEntry := ⟨publisher, .stream item reports⟩
  { s.usePublisher publisher with tasks := s.tasks.insert id entry }

def modifyTask (s : Service) (id : TaskId) (f : PublishTask → PublishTask) : Service :=
  { s with tasks := s.tasks.modify id fun entry => { entry with task := f entry.task } }

def cancelTask (s : Service) (id : TaskId) : Service :=
  s.modifyTask id PublishTask.cancel

/-! ## Subscriptions -/

def streamMailbox (s : Service) : Except BusError Mailbox :=
  let capacity := max s.settings.subscriberBuffer 1
  match Mailbox.create? capacity with
  | some m => .ok m
  | none => .error (.capacityOutOfRange capacity)

def subscribe (s : Service) (id : ReaderId) (target : Target) (rate : Option RateControl)
    (consumer : Consumer) : Service :=
  { s with subscriptions := s.subscriptions.insert id (.start target rate consumer) }

def rateOf (rate : Option (Duration × Mode)) : Except BusError (Option RateControl) :=
  match rate with
  | none => .ok none
  | some (interval, mode) => (RateControl.create interval mode).map some

structure KeyPlan where
  target : Target
  rate : Option RateControl

/-- Checks what subscribing to keys asks for: an interval has some length, and there is a key. -/
def planKeys (keys : List EventKey) (rate : Option (Duration × Mode)) :
    Except BusError KeyPlan := do
  let rate ← rateOf rate
  if keys.isEmpty then throw .emptyKeySet
  return ⟨.keys keys, rate⟩

def subscribeKeys (s : Service) (id : ReaderId) (keys : List EventKey)
    (rate : Option (Duration × Mode)) (consumer : Consumer) : Except BusError Service := do
  let plan ← planKeys keys rate
  return s.subscribe id plan.target plan.rate consumer

def streamKeys (s : Service) (id : ReaderId) (keys : List EventKey)
    (rate : Option (Duration × Mode)) : Except BusError Service := do
  let plan ← planKeys keys rate
  return s.subscribe id plan.target plan.rate (.stream (← s.streamMailbox))

def checkPatterns (s : Service) : Except BusError Unit :=
  if s.hub.transport.supportsPatterns then .ok ()
  else .error (.patternsUnsupported s.hub.transport.name)

def planPattern (s : Service) (subsystem : Subsystem) (glob : String) :
    Except BusError Target := do
  match KeyPattern.create (some subsystem) glob with
  | .error error => throw (.invalidPattern error)
  | .ok pattern =>
    s.checkPatterns
    return .pattern pattern false

def subscribePattern (s : Service) (id : ReaderId) (subsystem : Subsystem) (glob : String)
    (consumer : Consumer) : Except BusError Service := do
  return s.subscribe id (← s.planPattern subsystem glob) none consumer

def streamPattern (s : Service) (id : ReaderId) (subsystem : Subsystem) (glob : String) :
    Except BusError Service := do
  let target ← s.planPattern subsystem glob
  return s.subscribe id target none (.stream (← s.streamMailbox))

/-- Subscribes to the events on observations of all subsystems with a stream. -/
def streamObservations (s : Service) (id : ReaderId) : Except BusError Service := do
  s.checkPatterns
  return s.subscribe id (.pattern .everything true) none (.stream (← s.streamMailbox))

def modifySubscription (s : Service) (id : ReaderId) (f : Subscription → Subscription) :
    Service :=
  { s with subscriptions := s.subscriptions.modify id f }

/-! ## Summaries -/

def publisherSummary (s : Service) (id : PublisherId) : String :=
  "EventPublisher \x7b closed: " ++ toString (s.publisher id).closed ++ ", .. \x7d"

def subscriptionSummary (subscription : Subscription) : String :=
  "EventSubscription \x7b target: " ++ Text.quoted subscription.target.text ++ ", state: " ++
    subscription.state.name ++ " \x7d"

def subscriberSummary (s : Service) : String :=
  "EventSubscriber \x7b transport: " ++ Text.quoted s.hub.transport.name ++ ", buffer: " ++
    toString (max s.settings.subscriberBuffer 1) ++ ", .. \x7d"

/-! ## Running -/

inductive Actor where
  | publisher (id : PublisherId)
  | task (id : TaskId)
  | subscription (id : ReaderId)
  deriving DecidableEq, Repr

def actors (s : Service) : List Actor :=
  s.publishers.keys.map .publisher ++ s.tasks.keys.map .task ++
    s.subscriptions.keys.map .subscription

def advancePublisher? (s : Service) (id : PublisherId) : Option Service := do
  let p ← s.publishers.get? id
  let (p, hub) ← p.advance? s.hub
  return { s.withPublisher id p with hub }

def advanceTask? (s : Service) (id : TaskId) : Option Service := do
  let entry ← s.tasks.get? id
  let (task, p) ← entry.task.advance? s.hub (s.publisher entry.publisher)
  return { s.withPublisher entry.publisher p with tasks := s.tasks.insert id { entry with task } }

def advanceSubscription? (s : Service) (id : ReaderId) : Option Service := do
  let subscription ← s.subscriptions.get? id
  let (subscription, hub) ← subscription.advance? s.hub id
  return { s with hub, subscriptions := s.subscriptions.insert id subscription }

def advance? (s : Service) : Actor → Option Service
  | .publisher id => s.advancePublisher? id
  | .task id => s.advanceTask? id
  | .subscription id => s.advanceSubscription? id

def deadline? (s : Service) : Actor → Option Nat
  | .publisher id => (s.publishers.get? id).bind Publisher.deadline?
  | .task id => (s.tasks.get? id).bind fun entry => entry.task.deadline?
  | .subscription id => (s.subscriptions.get? id).bind Subscription.deadline?

end Service

end Observatory
