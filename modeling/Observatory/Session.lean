import Observatory.Bus.Run

/-!
# Sessions

A session uses one service step by step. It calls publishers, publishing tasks, subscriptions and
publishes by names, makes publishers when they are first named, and lets time pass where a step has
to wait. A name that is used again stands for the newer thing; a stream under it is dropped.
-/

namespace Observatory

structure Call where
  publisher : PublisherId
  ticket : Ticket

structure Session where
  service : Service
  publishers : List String
  tasks : Table String TaskId
  subscriptions : Table String ReaderId
  calls : Table String Call
  nextId : Nat

inductive Refusal where
  | bus (error : BusError)
  | unknownName (name : String)

/-- A step of a session. What it did before it was refused stays done. -/
abbrev Act (α : Type) := ExceptT Refusal (StateM Session) α

namespace Session

def start (service : Service) : Session :=
  ⟨service, [], .empty, .empty, .empty, 0⟩

def theService : Act Service := do
  return (← get).service

def change (f : Service → Service) : Act Unit :=
  modify fun s => { s with service := f s.service }

def tryChange (f : Service → Except BusError Service) : Act Unit := do
  match f (← theService) with
  | .ok service => change fun _ => service
  | .error error => throw (.bus error)

def freshId : Act Nat := do
  let s ← get
  set { s with nextId := s.nextId + 1 }
  return s.nextId

def resolve {α : Type} (table : Table String α) (name : String) : Act α :=
  match table.get? name with
  | some a => return a
  | none => throw (.unknownName name)

/-! ## Publishing -/

/-- The publisher of a name, or the shared one if there is no name. It is made if it is new. -/
def publisher (name : Option String) : Act PublisherId := do
  let s ← get
  let id := match name with
    | none => PublisherId.shared
    | some name => .own (s.publishers.idxOf name)
  if let some name := name then
    unless s.publishers.contains name do
      set { s with publishers := s.publishers ++ [name] }
  change fun service => service.usePublisher id
  return id

def publish (id : PublisherId) (event : Event) : Act Call := do
  let (ticket, service) := (← theService).publish id event
  change fun _ => service
  return ⟨id, ticket⟩

def outcome? (call : Call) : Act (Option Outcome) := do
  return (← theService).outcome? call.publisher call.ticket

/-- Longer than a transport takes for an answer. -/
def patience : Duration := 1000000 * 3600 * nanosPerSecond

def await (call : Call) : Act (Option Outcome) := do
  change fun service =>
    service.waitFor (fun service => (service.outcome? call.publisher call.ticket).isSome) patience
  outcome? call

def keep (name : String) (call : Call) : Act Unit :=
  modify fun s => { s with calls := s.calls.insert name call }

def outcomeOf (name : String) : Act (Option Outcome) := do
  outcome? (← resolve (← get).calls name)

def startPeriodic (name : String) (publisher : PublisherId) (schedule : Schedule)
    (generate : Nat → GeneratorCall) (reports : Bool) : Act Unit := do
  let id ← freshId
  tryChange fun service => service.startPeriodic id publisher schedule generate reports
  modify fun s => { s with tasks := s.tasks.insert name id }

def startStream (name : String) (publisher : PublisherId) (item : Nat → Option StreamItem)
    (reports : Bool) : Act Unit := do
  let id ← freshId
  change fun service => service.startStream id publisher item reports
  modify fun s => { s with tasks := s.tasks.insert name id }

def cancelTask (name : String) : Act Unit := do
  let id ← resolve (← get).tasks name
  change fun service => service.cancelTask id

def taskStatus (name : String) : Act (PublishTask × List (Nat × PublishFailure)) := do
  let id ← resolve (← get).tasks name
  match (← theService).tasks.get? id with
  | none => throw (.unknownName name)
  | some entry =>
    let (failures, task) := entry.task.takeFailures
    change fun service => service.modifyTask id fun _ => task
    return (task, failures)

/-! ## Subscribing -/

def subscription (name : String) : Act Subscription := do
  match (← theService).subscriptions.get? (← resolve (← get).subscriptions name) with
  | some subscription => return subscription
  | none => throw (.unknownName name)

def changeSubscription (name : String) (f : Subscription → Subscription) : Act Unit := do
  let id ← resolve (← get).subscriptions name
  change fun service => service.modifySubscription id f

def subscribe (name : String) (make : ReaderId → Service → Except BusError Service) :
    Act Lifecycle := do
  let id ← freshId
  tryChange (make id)
  if let some earlier := (← get).subscriptions.get? name then
    change fun service => service.modifySubscription earlier Subscription.dropConsumer
  modify fun s => { s with subscriptions := s.subscriptions.insert name id }
  return (← subscription name).state

inductive Receipt where
  | dropped
  | events (events : List Event) (ended : Bool)
  | calls (calls : List (Nat × Event))

/-- Takes up to `limit` events from the mailbox of a subscription. The driver goes on after each of
them; `taken` are the events so far, the last one first. -/
def takeEvents (name : String) : (limit : Nat) → (taken : List Event) → Act Receipt
  | 0, taken => return .events taken.reverse false
  | limit + 1, taken => do
    let (item, after) := (← subscription name).take
    match item with
    | .pending => return .events taken.reverse false
    | .ended => return .events taken.reverse true
    | .item e =>
      changeSubscription name fun _ => after
      -- The driver may put another event into the room that was made.
      change Service.settle
      takeEvents name limit (e :: taken)

def receive (name : String) (limit : Nat) : Act Receipt := do
  let found ← subscription name
  match found.consumer.mailbox? with
  | some mailbox =>
    -- That the reader is gone shows only when something is asked for.
    if mailbox.isOpen ∨ limit = 0 then takeEvents name limit [] else return .dropped
  | none =>
    let (calls, after) := found.takeCalls limit
    changeSubscription name fun _ => after
    return .calls calls

/-- Whether a subscription is ready, if it is known or becomes known in time. -/
def ready (name : String) (limit : Duration) : Act (Option (Except BusError Unit)) := do
  let id ← resolve (← get).subscriptions name
  let known (service : Service) :=
    (service.subscriptions.get? id).bind fun subscription => subscription.state.readiness?
  if 0 < limit then
    change fun service => service.waitFor (fun service => (known service).isSome) limit
  return known (← theService)

def unsubscribed? (name : String) : Act (Option Lifecycle) := do
  match (← subscription name).unsubscribed? with
  | none => return none
  | some after =>
    changeSubscription name fun _ => after
    return some after.state

def unsubscribeAndForget (name : String) : Act (Option Lifecycle) := do
  changeSubscription name Subscription.raiseCancel
  unsubscribed? name

/-- Unsubscribes, and gives the state if that comes to its end in time. Nothing runs in no time. -/
def unsubscribe (name : String) (limit : Duration) : Act (Option Lifecycle) := do
  if limit = 0 then unsubscribeAndForget name
  else
    let id ← resolve (← get).subscriptions name
    changeSubscription name Subscription.raiseCancel
    change fun service =>
      service.waitFor (fun service =>
        ((service.subscriptions.get? id).map Subscription.isStopped).getD true) limit
    unsubscribed? name

/-! ## Steps -/

/-- Takes a step of a session and lets the service come to rest. Gives also the time when the step
was through. -/
def step {α : Type} (s : Session) (act : Act α) : Except Refusal α × Nat × Session :=
  let (result, s) := act.run.run s
  (result, s.service.hub.now, { s with service := s.service.settle })

end Session

end Observatory
