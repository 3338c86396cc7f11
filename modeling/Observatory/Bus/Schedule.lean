import Observatory.Bus.Error
import Observatory.Time.Utc

/-!
# Schedules

When a periodic publisher ticks: at a fixed interval, from now on or from a given time on.
-/

namespace Observatory

structure Schedule where
  interval : Duration
  start : Option UtcTime
  deriving DecidableEq

namespace Schedule

def every (interval : Duration) : Schedule := ⟨interval, none⟩

def startingAt (s : Schedule) (start : UtcTime) : Schedule :=
  { s with start := some start }

/-- How long to wait at `now` before the first tick: not at all for a beginning in the past. -/
def delay (s : Schedule) (now : UtcTime) : Duration :=
  ((s.start.bind fun start => start.remaining? now).getD 0)

def check (s : Schedule) : Except BusError Unit :=
  if s.interval = 0 then .error .invalidInterval else .ok ()

end Schedule

end Observatory
