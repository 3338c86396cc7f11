import Observatory.Event.Basic
import Observatory.Time.Utc

/-!
# Consumers

Where the events of a subscription go: into a mailbox that someone reads, to a callback, or to a
callback that takes its time. A mailbox is bounded; a callback is called with one event at a time.
-/

namespace Observatory

structure Mailbox where
  capacity : Nat
  items : List Event
  isOpen : Bool

namespace Mailbox

def maxCapacity : Nat := 0x1FFFFFFFFFFFFFFF

def create? (capacity : Nat) : Option Mailbox :=
  if 0 < capacity ∧ capacity ≤ maxCapacity then some ⟨capacity, [], true⟩ else none

def hasRoom (m : Mailbox) : Bool :=
  m.items.length < m.capacity

def push (m : Mailbox) (e : Event) : Mailbox :=
  { m with items := m.items ++ [e] }

/-- Throws everything away, for nobody will read it. -/
def close (m : Mailbox) : Mailbox :=
  { m with items := [], isOpen := false }

end Mailbox

inductive CallEnd where
  | returns
  | panics
  /-- It cancels its own subscription and waits until that has stopped. -/
  | unsubscribes
  deriving DecidableEq, Repr

inductive AsyncCall where
  /-- It panics in the call itself. -/
  | crash
  | works (delay : Duration) (ending : CallEnd)
  deriving DecidableEq, Repr

structure CallLog where
  begun : Nat
  /-- The calls that were recorded and not yet looked at: when, and with which event. -/
  records : List (Nat × Event)

namespace CallLog

def empty : CallLog := ⟨0, []⟩

def begin (log : CallLog) : CallLog :=
  { log with begun := log.begun + 1 }

def record (log : CallLog) (now : Nat) (e : Event) : CallLog :=
  { log with records := log.records ++ [(now, e)] }

end CallLog

inductive Consumer where
  /-- Into the mailbox of a stream, which is cancelled when it is dropped. -/
  | stream (mailbox : Mailbox)
  /-- Into a mailbox whose reader knows nothing of the subscription. -/
  | channel (mailbox : Mailbox)
  /-- To a callback; its calls, counted from zero, may panic. -/
  | callback (log : CallLog) (panics : Nat → Bool)
  | asyncCallback (log : CallLog) (behave : Nat → AsyncCall)

namespace Consumer

def mailbox? : Consumer → Option Mailbox
  | .stream m => some m
  | .channel m => some m
  | _ => none

def withMailbox (m : Mailbox) : Consumer → Consumer
  | .stream _ => .stream m
  | .channel _ => .channel m
  | consumer => consumer

def log? : Consumer → Option CallLog
  | .callback log _ => some log
  | .asyncCallback log _ => some log
  | _ => none

def withLog (log : CallLog) : Consumer → Consumer
  | .callback _ panics => .callback log panics
  | .asyncCallback _ behave => .asyncCallback log behave
  | consumer => consumer

def scriptedCallback (panics : List Nat) : Consumer :=
  .callback .empty fun call => panics.contains (call + 1)

/-- A callback that takes the same time for every call. Its calls in `panics`, counted from one,
panic, and the call `stopAt` cancels the subscription. -/
def scriptedAsyncCallback (delay : Duration) (panics : List Nat) (stopAt : Option Nat) :
    Consumer :=
  .asyncCallback .empty fun call =>
    .works delay <|
      if panics.contains (call + 1) then .panics
      else if stopAt = some (call + 1) then .unsubscribes
      else .returns

end Consumer

end Observatory
