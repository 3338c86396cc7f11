import Observatory.Bus.Rate
import Observatory.Bus.Subscription.Target

/-!
# Pipelines

What a running subscription hands over: first the seeds, one event per key, then the live events
that no seed covers. With rate control these go through a pacer, and arrivals that are there win
over a tick that is due.
-/

namespace Observatory

structure Pacing where
  ticker : Ticker
  pacer : Pacer

/-- What a running subscription still has to hand over. -/
structure Pipeline where
  seeds : List Event
  /-- The stamps of the seeds, by key. -/
  covered : Table EventKey Nat
  pacing : Option Pacing

namespace Pipeline

def start (seeds : List Stamped) (rate : Option RateControl) (now : Nat) : Pipeline :=
  { seeds := seeds.map Stamped.event
    covered := ⟨seeds.map fun seed => (seed.key, seed.stamp)⟩
    pacing := rate.map fun rate => ⟨⟨rate.interval, now⟩, .start rate.mode⟩ }

/-- Whether a live event is newer than the seed of its key. -/
def isNews (p : Pipeline) (w : Stamped) : Bool :=
  match p.covered.get? w.key with
  | some stamp => stamp < w.stamp
  | none => true

inductive Step where
  | onward (p : Pipeline)
  | emit (e : Event) (p : Pipeline)
  | ended

/-- An event comes in: it is handed over, or arrives at the pacer. -/
def arrival (p : Pipeline) (e : Event) : Step :=
  match p.pacing with
  | none => .emit e p
  | some pacing => .onward { p with pacing := some { pacing with pacer := pacing.pacer.arrive e } }

/-- A live event comes in, if the subscription takes it and no seed covers it. -/
def liveArrival (p : Pipeline) (target : Target) (w : Stamped) : Step :=
  if p.isNews w && target.admits w.event then p.arrival w.event else .onward p

def tick? (p : Pipeline) (now : Nat) : Option Step :=
  match p.pacing with
  | none => none
  | some pacing =>
    if pacing.ticker.isDue now then
      let (emitted, pacer) := pacing.pacer.tick
      let p := { p with pacing := some ⟨pacing.ticker.fire now, pacer⟩ }
      some (match emitted with
        | some e => .emit e p
        | none => .onward p)
    else none

def advance? (p : Pipeline) (target : Target) (h : Hub) (reader : ReaderId) :
    Option (Step × Hub) :=
  match p.seeds with
  -- Seeds come before all live events.
  | e :: seeds => some ({ p with seeds }.arrival e, h)
  | [] =>
    -- An arrival wins over a tick that is due.
    if h.transport.backend.isQuiet reader then (p.tick? h.now).map fun step => (step, h)
    else
      let (live, h) := h.nextLive reader
      match live with
      | .item w => some (p.liveArrival target w, h)
      | .pending => some (.onward p, h)
      | .ended => some (.ended, h)

def deadline? (p : Pipeline) : Option Nat :=
  p.pacing.map fun pacing => pacing.ticker.deadline

end Pipeline

end Observatory
