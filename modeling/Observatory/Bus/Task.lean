import Observatory.Bus.Publisher
import Observatory.Bus.Rate
import Observatory.Bus.Schedule

/-!
# Publishing tasks

A publishing task publishes one event after another in the background: a periodic task what its
generator makes on every tick of a schedule, a stream task the items of a stream. It waits for the
outcome of a publish before it goes on, and a failure does not end it.

Cancelling a task lets what is under way come to its end: a tick whose generator was called, or a
publish. An item that a stream has not given yet is not waited for.
-/

namespace Observatory

inductive Product where
  | event (e : Event)
  | nothing
  /-- A panic, which skips the tick too. -/
  | panic

inductive GeneratorCall where
  /-- It panics in the call itself. -/
  | crash
  | makes (delay : Duration) (product : Product)

structure StreamItem where
  delay : Duration
  event : Event

inductive TaskSource where
  /-- A generator that is called on the ticks of a schedule; its calls are counted from zero. The
  ticker runs from the task's first step on. -/
  | periodic (schedule : Schedule) (ticker : Option Ticker) (generate : Nat → GeneratorCall)
  | stream (item : Nat → Option StreamItem)

inductive TaskPhase where
  | idle
  | making (due : Nat) (product : Product)
  | publishing (ticket : Ticket)
  | finished

structure PublishTask where
  source : TaskSource
  phase : TaskPhase
  cancelled : Bool
  /-- How many times the generator was called or the stream was asked. -/
  turns : Nat
  /-- How many of those turns were to make something. -/
  calls : Nat
  reports : Bool
  failures : List (Nat × PublishFailure)

namespace PublishTask

def start (source : TaskSource) (reports : Bool) : PublishTask :=
  ⟨source, .idle, false, 0, 0, reports, []⟩

def periodic (schedule : Schedule) (generate : Nat → GeneratorCall) (reports : Bool) :
    PublishTask :=
  start (.periodic schedule none generate) reports

def stream (item : Nat → Option StreamItem) (reports : Bool) : PublishTask :=
  start (.stream item) reports

def cancel (t : PublishTask) : PublishTask :=
  { t with cancelled := true }

/-- The task after a turn that is to make `product` in some time. -/
def begin (t : PublishTask) (now : Nat) (delay : Duration) (product : Product) : PublishTask :=
  { t with phase := .making (now + delay) product, turns := t.turns + 1, calls := t.calls + 1 }

def callGenerator (t : PublishTask) (now : Nat) (generate : Nat → GeneratorCall) : PublishTask :=
  match generate t.turns with
  | .crash => { t with turns := t.turns + 1 }
  | .makes delay product => t.begin now delay product

def stepIdle? (t : PublishTask) (h : Hub) : Option PublishTask :=
  if t.cancelled then some { t with phase := .finished }
  else
    match t.source with
    | .periodic schedule none generate =>
      -- The ticker begins with the first step of the task.
      let ticker : Ticker := ⟨schedule.interval, h.now + schedule.delay h.time⟩
      some { t with source := .periodic schedule (some ticker) generate }
    | .periodic schedule (some ticker) generate =>
      if ticker.isDue h.now then
        let t := { t with source := .periodic schedule (some (ticker.fire h.now)) generate }
        some (t.callGenerator h.now generate)
      else none
    | .stream item =>
      match item t.turns with
      | none => some { t with phase := .finished }
      | some item => some (t.begin h.now item.delay (.event item.event))

/-- Whether the task gives up what is being made when it is cancelled. -/
def abandons (t : PublishTask) : Bool :=
  match t.source with
  | .periodic .. => false
  | .stream _ => t.cancelled

def use (t : PublishTask) (p : Publisher) (product : Product) : PublishTask × Publisher :=
  match product with
  | .event e =>
    let (ticket, p) := p.publish e
    ({ t with phase := .publishing ticket }, p)
  | .nothing | .panic => ({ t with phase := .idle }, p)

def conclude (t : PublishTask) (now : Nat) (outcome : Outcome) : PublishTask :=
  match outcome with
  | .ok () => { t with phase := .idle }
  | .error failure =>
    if t.reports then { t with phase := .idle, failures := t.failures ++ [(now, failure)] }
    else { t with phase := .idle }

def advance? (t : PublishTask) (h : Hub) (p : Publisher) : Option (PublishTask × Publisher) :=
  match t.phase with
  | .finished => none
  | .idle => (t.stepIdle? h).map fun t => (t, p)
  | .making due product =>
    if t.abandons then some ({ t with phase := .finished }, p)
    else if due ≤ h.now then some (t.use p product)
    else none
  | .publishing ticket => (p.outcome? ticket).map fun outcome => (t.conclude h.now outcome, p)

def deadline? (t : PublishTask) : Option Nat :=
  match t.phase, t.source with
  | .idle, .periodic _ ticker _ => ticker.map Ticker.deadline
  | .making due _, _ => some due
  | _, _ => none

def takeFailures (t : PublishTask) : List (Nat × PublishFailure) × PublishTask :=
  (t.failures, { t with failures := [] })

end PublishTask

/-- The generator that follows a script, from its beginning again after the end if it `repeats`.
The calls in `crashes`, counted from one, panic at once and use no item of the script. -/
def scriptedGenerator (script : List Product) (repeats : Bool) (delay : Duration)
    (crashes : List Nat) (turn : Nat) : GeneratorCall :=
  if crashes.contains (turn + 1) then .crash
  else
    let used := (List.range turn).countP fun earlier => !crashes.contains (earlier + 1)
    let place := if repeats then used % script.length else used
    .makes delay (script[place]?.getD .nothing)

def listStream (events : List Event) (gap : Duration) (turn : Nat) : Option StreamItem :=
  events[turn]?.map (StreamItem.mk gap)

end Observatory
