import Observatory.Time.Utc
import Observatory.Transport.Basic

/-!
# The hub

What all publishers and subscriptions of a service share: the clock, the store of latest events,
the transport, and the counters.
-/

namespace Observatory

structure Metrics where
  published : Nat
  /-- Publishes that the transport refused. -/
  failures : Nat
  delivered : Nat
  active : Int
  /-- Events that readers missed because they were behind. -/
  lagged : Nat
  deriving DecidableEq, Repr

def Metrics.zero : Metrics := ⟨0, 0, 0, 0, 0⟩

structure Hub where
  /-- When the service began. -/
  origin : UtcTime
  /-- How long ago that is. -/
  now : Duration
  store : Store
  transport : Transport
  metrics : Metrics

namespace Hub

def start (origin : UtcTime) (transport : Transport) : Hub :=
  ⟨origin, 0, .empty, transport, .zero⟩

def time (h : Hub) : UtcTime :=
  h.origin.plus h.now

def count (h : Hub) (f : Metrics → Metrics) : Hub :=
  { h with metrics := f h.metrics }

def withBackend (h : Hub) (backend : Backend) : Hub :=
  { h with transport := { h.transport with backend } }

def subscriptionOpened (h : Hub) : Hub :=
  h.count fun m => { m with active := m.active + 1 }

/-- Counts a subscription that runs no longer, and removes its reader. -/
def subscriptionClosed (h : Hub) (reader : ReaderId) : Hub :=
  (h.withBackend (h.transport.backend.drop reader)).count fun m => { m with active := m.active - 1 }

def eventDelivered (h : Hub) : Hub :=
  h.count fun m => { m with delivered := m.delivered + 1 }

def nextLive (h : Hub) (reader : ReaderId) : Poll Stamped × Hub :=
  let next := h.transport.backend.next reader
  (next.result,
    (h.withBackend next.backend).count fun m => { m with lagged := m.lagged + next.skipped })

end Hub

end Observatory
