import Observatory.Bus.Subscription.Consumer
import Observatory.Bus.Subscription.Pipeline

/-!
# Subscriptions

A subscription is driven by a task of its own: it registers with the transport, waits for the
acknowledgement, becomes ready, reads the seeds and hands over events until it is cancelled, its
consumer is gone, or the transport ends. Seeds are read after the registration has taken effect, so
nothing falls between them and the live events.

Cancelling is a flag that the task looks at before every step. Whoever waits for the end of an
unsubscribe waits until the task has stopped.
-/

namespace Observatory

inductive Lifecycle where
  | pending
  | ready
  | failed (error : BusError)
  /-- It was cancelled; `wasReady` tells whether it had been ready. -/
  | cancelled (wasReady : Bool)
  deriving DecidableEq, Repr

namespace Lifecycle

def name : Lifecycle → String
  | .pending => "Pending"
  | .ready => "Ready"
  | .failed _ => "Failed"
  | .cancelled _ => "Cancelled"

def everReady : Lifecycle → Bool
  | .ready => true
  | .cancelled wasReady => wasReady
  | _ => false

def cancel (s : Lifecycle) : Lifecycle :=
  .cancelled s.everReady

def acknowledge : Lifecycle → Lifecycle
  | .pending => .ready
  | s => s

def refuse (error : BusError) : Lifecycle → Lifecycle
  | .pending => .failed error
  | s => s

/-- What someone who waits for the subscription to be ready gets, once it is decided. -/
def readiness? : Lifecycle → Option (Except BusError Unit)
  | .pending => none
  | .ready => some (.ok ())
  | .failed error => some (.error error)
  | .cancelled wasReady => some (if wasReady then .ok () else .error .cancelled)

end Lifecycle

inductive Handover where
  | room
  | callback (due : Nat) (ending : CallEnd)
  /-- It waits for a callback that waits for the driver's own end. -/
  | forever

inductive Stage where
  | spawned
  /-- It is registered and waits for the acknowledgement, which comes at a time. -/
  | registering (due : Nat)
  | streaming (p : Pipeline)
  | handing (p : Pipeline) (e : Event) (wait : Handover)
  | stopped

structure Subscription where
  target : Target
  rate : Option RateControl
  state : Lifecycle
  cancelRaised : Bool
  stage : Stage
  consumer : Consumer

namespace Subscription

def start (target : Target) (rate : Option RateControl) (consumer : Consumer) : Subscription :=
  ⟨target, rate, .pending, false, .spawned, consumer⟩

def isStopped (s : Subscription) : Bool :=
  match s.stage with
  | .stopped => true
  | _ => false

def raiseCancel (s : Subscription) : Subscription :=
  { s with cancelRaised := true }

def unsubscribed? (s : Subscription) : Option Subscription :=
  if s.isStopped then some { s with state := s.state.cancel } else none

/-- The consumer goes away. A stream takes its subscription with it. -/
def dropConsumer (s : Subscription) : Subscription :=
  match s.consumer with
  | .stream m => { s with consumer := .stream m.close, cancelRaised := true }
  | .channel m => { s with consumer := .channel m.close }
  | _ => s

/-- Takes an event from the mailbox. A stream ends with its cancellation, even if it holds events;
a mailbox ends when it is empty and the driver has stopped. -/
def take (s : Subscription) : Poll Event × Subscription :=
  match s.consumer.mailbox? with
  | none => (.ended, s)
  | some m =>
    let isStream := match s.consumer with
      | .stream _ => true
      | _ => false
    if isStream && s.cancelRaised then (.ended, s)
    else
      match m.items with
      | e :: items => (.item e, { s with consumer := s.consumer.withMailbox { m with items } })
      | [] => (if s.isStopped then .ended else .pending, s)

def takeCalls (s : Subscription) (limit : Nat) : List (Nat × Event) × Subscription :=
  match s.consumer.log? with
  | none => ([], s)
  | some log =>
    (log.records.take limit,
      { s with consumer := s.consumer.withLog { log with records := log.records.drop limit } })

/-! ## The driver -/

def finish (s : Subscription) (h : Hub) (reader : ReaderId) : Subscription × Hub :=
  ({ s with stage := .stopped }, h.subscriptionClosed reader)

/-- The driver ends because it was told to. One that has not begun leaves nothing behind. -/
def stop (s : Subscription) (h : Hub) (reader : ReaderId) : Subscription × Hub :=
  let ended := { s with stage := .stopped, state := s.state.cancel }
  match s.stage with
  -- It was never counted as active, and has no reader.
  | .spawned => (ended, h)
  | _ => (ended, h.subscriptionClosed reader)

def register (s : Subscription) (h : Hub) (reader : ReaderId) : Subscription × Hub :=
  let h := h.subscriptionOpened
  let refused (error : TransportError) :=
    { s with state := s.state.refuse (.transport error) }.finish h reader
  match h.transport.script.subscribe with
  | .crash => s.finish h reader
  | .fail error => refused error
  | .handOn =>
    match s.target.register reader h.transport.backend with
    | .error error => refused error
    | .ok backend =>
      -- The reader is registered from now on; only the acknowledgement takes time.
      ({ s with stage := .registering (h.now + h.transport.script.subscribeDelay) },
        h.withBackend backend)

/-- The transport has acknowledged the registration: the subscription is ready and reads its
seeds. -/
def activate (s : Subscription) (h : Hub) : Subscription :=
  { s with
    state := s.state.acknowledge
    -- Live events are kept for the reader already, so nothing falls between them and the seeds.
    stage := .streaming (.start (s.target.seeds h.store) s.rate h.now) }

def handOver (s : Subscription) (h : Hub) (reader : ReaderId) (p : Pipeline) (e : Event) :
    Subscription × Hub :=
  match s.consumer with
  | .stream _ | .channel _ => ({ s with stage := .handing p e .room }, h)
  | .callback log panics =>
    ({ s with stage := .streaming p, consumer := .callback (log.begin.record h.now e) panics },
      h.eventDelivered)
  | .asyncCallback log behave =>
    let s := { s with consumer := .asyncCallback log.begin behave }
    match behave log.begun with
    | .crash => s.finish h reader
    | .works delay ending =>
      ({ s with stage := .handing p e (.callback (h.now + delay) ending) }, h)

def deposit? (s : Subscription) (h : Hub) (reader : ReaderId) (p : Pipeline) (e : Event) :
    Option (Subscription × Hub) :=
  match s.consumer.mailbox? with
  | none => none
  | some m =>
    if !m.isOpen then some (s.finish h reader)
    else if m.hasRoom then
      some ({ s with stage := .streaming p, consumer := s.consumer.withMailbox (m.push e) },
        h.eventDelivered)
    else none

def endCall (s : Subscription) (h : Hub) (p : Pipeline) (e : Event) (ending : CallEnd) :
    Subscription × Hub :=
  let s := match s.consumer.log? with
    | none => s
    | some log => { s with consumer := s.consumer.withLog (log.record h.now e) }
  match ending with
  | .returns | .panics => ({ s with stage := .streaming p }, h.eventDelivered)
  -- The callback waits for its own driver, and the cancellation ends both at the next step.
  | .unsubscribes => ({ s with stage := .handing p e .forever, cancelRaised := true }, h)

def proceed? (s : Subscription) (h : Hub) (reader : ReaderId) : Option (Subscription × Hub) :=
  match s.stage with
  | .stopped => none
  | .spawned => some (s.register h reader)
  | .registering due => if due ≤ h.now then some (s.activate h, h) else none
  | .streaming p =>
    match p.advance? s.target h reader with
    | none => none
    | some (.onward p, h) => some ({ s with stage := .streaming p }, h)
    | some (.emit e p, h) => some (s.handOver h reader p e)
    | some (.ended, h) => some (s.finish h reader)
  | .handing p e .room => s.deposit? h reader p e
  | .handing p e (.callback due ending) =>
    if due ≤ h.now then some (s.endCall h p e ending) else none
  | .handing _ _ .forever => none

def advance? (s : Subscription) (h : Hub) (reader : ReaderId) : Option (Subscription × Hub) :=
  if s.isStopped then none
  else if s.cancelRaised then some (s.stop h reader)
  else s.proceed? h reader

/-- When the driver can go on, if it waits for a time. -/
def deadline? (s : Subscription) : Option Nat :=
  match s.stage with
  | .registering due => some due
  | .streaming p => p.deadline?
  | .handing _ _ (.callback due _) => some due
  | _ => none

end Subscription

end Observatory
