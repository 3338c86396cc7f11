import Observatory.Bus.Error
import Observatory.Time.Utc

/-!
# Rate control

A ticker fires at most once per instant of its grid. When it is late it fires as soon as it is
asked; a delay of more than five milliseconds makes it skip to the next instant of the grid.

A pacer sits between arrivals and ticks and keeps the latest arrival. In adaptive mode every tick
repeats it; in limiter mode a tick emits it only if it arrived since the last emission.
-/

namespace Observatory

structure Ticker where
  period : Duration
  deadline : Nat
  deriving DecidableEq, Repr

namespace Ticker

/-- The delay that a tick may have without a later one being skipped. -/
def tolerance : Duration := 5 * nanosPerMilli

def isDue (t : Ticker) (now : Nat) : Bool :=
  t.deadline ≤ now

def fire (t : Ticker) (now : Nat) : Ticker :=
  { t with
    deadline :=
      -- A late ticker goes on at the first instant of its grid after `now`.
      if t.deadline + tolerance < now then now + t.period - (now - t.deadline) % t.period
      else t.deadline + t.period }

theorem deadline_lt_deadline_fire (t : Ticker) (now : Nat) (h : 0 < t.period) :
    t.deadline < (t.fire now).deadline := by
  unfold fire
  have := Nat.mod_lt (now - t.deadline) h
  dsimp only
  split <;> omega

end Ticker

inductive Mode where
  /-- Every tick emits the latest event. -/
  | adaptive
  /-- A tick emits the latest event only if it is new. -/
  | limiter
  deriving DecidableEq, Repr, Inhabited

namespace Mode

def tag : Mode → String
  | .adaptive => "adaptive"
  | .limiter => "limiter"

def ofTag? (tag : String) : Option Mode :=
  if tag = Mode.adaptive.tag then some .adaptive
  else if tag = Mode.limiter.tag then some .limiter
  else none

end Mode

structure RateControl where
  interval : Duration
  mode : Mode
  interval_pos : 0 < interval

def RateControl.create (interval : Duration) (mode : Mode) : Except BusError RateControl :=
  if h : 0 < interval then .ok ⟨interval, mode, h⟩ else .error .invalidInterval

/-- What a rate-controlled subscription keeps between ticks. -/
structure Pacer where
  mode : Mode
  latest : Option Event
  fresh : Bool

namespace Pacer

def start (mode : Mode) : Pacer := ⟨mode, none, false⟩

def arrive (p : Pacer) (e : Event) : Pacer :=
  { p with latest := some e, fresh := true }

def tick (p : Pacer) : Option Event × Pacer :=
  match p.latest with
  | none => (none, p)
  | some e =>
    if p.mode = .adaptive ∨ p.fresh then (some e, { p with fresh := false }) else (none, p)

end Pacer

end Observatory
