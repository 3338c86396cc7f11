import Observatory.Bus.Error
import Observatory.Bus.Hub

/-!
# Publishers

A publisher is a queue and the task that drives it. Events are queued in the order of the publish
calls, whether or not anyone waits for the outcome, and a closed publisher queues nothing more. The
driver takes one event at a time: it writes the store, hands the event to the transport, and waits
for the answer; when the transport refuses, the write is undone. What was queued before the
publisher was closed is still published.
-/

namespace Observatory

abbrev Ticket := Nat

structure Request where
  ticket : Ticket
  event : Event

structure InFlight where
  ticket : Ticket
  written : Stamped
  previous : Option Stamped
  verdict : Verdict
  due : Nat

structure Publisher where
  /-- The publishes that wait for their turn, the next one first. -/
  queue : List Request
  inFlight : Option InFlight
  closed : Bool
  /-- Whether the driver has come to an end. -/
  stopped : Bool
  nextTicket : Ticket
  outcomes : Table Ticket Outcome

namespace Publisher

def start : Publisher := ⟨[], none, false, false, 0, .empty⟩

def outcome? (p : Publisher) (ticket : Ticket) : Option Outcome :=
  p.outcomes.get? ticket

def settleCall (p : Publisher) (ticket : Ticket) (outcome : Outcome) : Publisher :=
  { p with outcomes := p.outcomes.insert ticket outcome }

/-- Publishes an event: queues it, or fails at once. -/
def publish (p : Publisher) (event : Event) : Ticket × Publisher :=
  let ticket := p.nextTicket
  let p := { p with nextTicket := ticket + 1 }
  if p.closed then (ticket, p.settleCall ticket (.error ⟨event, .publisherClosed⟩))
  else if p.stopped then (ticket, p.settleCall ticket (.error ⟨event, .driverStopped⟩))
  else (ticket, { p with queue := p.queue ++ [⟨ticket, event⟩] })

def close (p : Publisher) : Publisher :=
  { p with closed := true }

/-- Ends the driver. Whatever was queued or in flight fails. -/
def crash (p : Publisher) (flight : InFlight) : Publisher :=
  let p := p.settleCall flight.ticket (.error ⟨flight.written.event, .driverStopped⟩)
  let p := p.queue.foldl
    (fun p request => p.settleCall request.ticket (.error ⟨request.event, .driverStopped⟩)) p
  { p with queue := [], inFlight := none, stopped := true }

/-- Takes the first event of the queue: writes it to the store and offers it to the transport. -/
def offer (p : Publisher) (h : Hub) (request : Request) (rest : List Request) : Publisher × Hub :=
  let (write, store) := h.store.put request.event.key request.event
  let flight : InFlight :=
    { ticket := request.ticket
      written := write.written
      previous := write.previous
      -- The transport makes up its mind now, however long its answer takes.
      verdict := h.transport.script.publish
      due := h.now + h.transport.script.publishDelay }
  ({ p with queue := rest, inFlight := some flight }, { h with store })

def accept (p : Publisher) (h : Hub) (flight : InFlight) : Publisher × Hub :=
  ({ p.settleCall flight.ticket (.ok ()) with inFlight := none },
    h.count fun m => { m with published := m.published + 1 })

/-- Ends a publish that the transport refused, and undoes its write. -/
def refuse (p : Publisher) (h : Hub) (flight : InFlight) (error : TransportError) :
    Publisher × Hub :=
  let written := flight.written
  -- The write is undone only if the entry still holds this event.
  let store := h.store.restore written.key written.event.id flight.previous
  ({ p.settleCall flight.ticket (.error ⟨written.event, .transport error⟩) with inFlight := none },
    { h with store }.count fun m => { m with failures := m.failures + 1 })

def answer (p : Publisher) (h : Hub) (flight : InFlight) : Publisher × Hub :=
  match flight.verdict with
  | .crash => (p.crash flight, h)
  | .fail error => p.refuse h flight error
  | .handOn =>
    match h.transport.backend.publish flight.written with
    | .ok backend => p.accept (h.withBackend backend) flight
    | .error error => p.refuse h flight error

def advance? (p : Publisher) (h : Hub) : Option (Publisher × Hub) :=
  if p.stopped then none
  else
    match p.inFlight, p.queue with
    | some flight, _ => if flight.due ≤ h.now then some (p.answer h flight) else none
    | none, request :: rest => some (p.offer h request rest)
    | none, [] => none

def deadline? (p : Publisher) : Option Nat :=
  p.inFlight.map InFlight.due

end Publisher

end Observatory
