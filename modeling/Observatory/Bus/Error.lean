import Observatory.Event.Basic
import Observatory.Pattern
import Observatory.Transport.Error

/-!
# Errors of the bus

Why a publish or a subscription fails. A failed publish carries its event, so that it can be logged
or published again.
-/

namespace Observatory

inductive FailureReason where
  | publisherClosed
  | driverStopped
  | transport (error : TransportError)
  deriving DecidableEq, Repr

def FailureReason.message : FailureReason → String
  | .publisherClosed => "publisher is shut down"
  | .driverStopped => "publisher driver stopped"
  | .transport error => error.message

structure PublishFailure where
  event : Event
  reason : FailureReason
  deriving DecidableEq

def PublishFailure.message (failure : PublishFailure) : String :=
  s!"Failed to publish event {failure.event.key.canonical}: {failure.reason.message}"

abbrev Outcome := Except PublishFailure Unit

inductive BusError where
  | emptyKeySet
  | invalidPattern (error : PatternError)
  | patternsUnsupported (transport : String)
  | invalidInterval
  | transport (error : TransportError)
  | cancelled
  /-- A channel or a mailbox that cannot have this capacity. -/
  | capacityOutOfRange (capacity : Nat)
  deriving DecidableEq, Repr

def BusError.message : BusError → String
  | .emptyKeySet => "At least one event key is required"
  | .invalidPattern error => error.message
  | .patternsUnsupported name =>
    s!"Transport '{name}' does not support pattern subscription"
  | .invalidInterval => "Interval must be greater than zero"
  | .transport error => error.message
  | .cancelled => "Subscription cancelled before it became ready"
  | .capacityOutOfRange capacity => s!"Capacity {capacity} is out of range"

end Observatory
