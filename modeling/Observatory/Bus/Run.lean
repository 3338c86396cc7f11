import Observatory.Bus.Service

/-!
# Running a service

A service runs in rounds: every actor that has a step to take at the beginning of a round takes its
steps until it has to wait, one actor after another. A publisher with a long queue takes a turn of
bounded length, and goes on when all other actors wait. When no actor has a step to take, the
service is at rest, and only then does time go on: to the next time that an actor waits for.

Rounds and steps are bounded, for an actor may publish without end in no time.
-/

namespace Observatory.Service

/-- The most steps that an actor takes in one turn, and the most rounds at one time. -/
def stepLimit : Nat := 1000000

def eventsPerTurn : Nat := 128

/-- The most steps that an actor takes in one turn. A publisher takes two for each event: it offers
the event, and takes the answer. -/
def turnLength : Actor → Nat
  | .publisher _ => 2 * eventsPerTurn
  | _ => stepLimit

/-- Lets an actor take its steps until it has to wait or its turn ends. -/
def runActor (actor : Actor) : (fuel : Nat) → Service → Service
  | 0, s => s
  | fuel + 1, s =>
    match s.advance? actor with
    | none => s
    | some s => runActor actor fuel s

def ready (s : Service) : List Actor :=
  s.actors.filter fun actor => (s.advance? actor).isSome

/-- Lets actors take their turns, one after another. Adds to `paused` those whose turn ended before
they had to wait. -/
def runActors (paused : List Actor) (s : Service) (actors : List Actor) : List Actor × Service :=
  actors.foldl
    (fun (paused, s) actor =>
      let s := runActor actor (turnLength actor) s
      (if (s.advance? actor).isSome then actor :: paused else paused, s)) (paused, s)

/-- Runs rounds until no actor has a step to take. The actors in `paused` go on when all others
wait. -/
def runRounds : (fuel : Nat) → (paused : List Actor) → Service → Service
  | 0, _, s => s
  | fuel + 1, paused, s =>
    match s.ready.filter (!paused.contains ·), paused with
    | [], [] => s
    | [], _ => runRounds fuel [] s
    | actors, paused =>
      let (paused, s) := s.runActors paused actors
      runRounds fuel paused s

/-- Runs the service until it is at rest. -/
def settle (s : Service) : Service :=
  runRounds stepLimit [] s

def atTime (s : Service) (now : Nat) : Service :=
  { s with hub := { s.hub with now } }

def earlier? : Option Nat → Option Nat → Option Nat
  | none, time => time
  | time, none => time
  | some a, some b => some (min a b)

def nextDeadline? (s : Service) : Option Nat :=
  s.actors.foldl (fun next actor => earlier? next (s.deadline? actor)) none

def passTime (done : Service → Bool) (limit now : Nat) (s : Service) : Service :=
  let s := s.settle
  if done s then s
  else
    match s.nextDeadline? with
    | some next =>
      -- What is awaited beyond the limit stays awaited.
      if _h : now < next ∧ next ≤ limit then passTime done limit next (s.atTime next)
      else (s.atTime (max now limit)).settle
    | none => (s.atTime (max now limit)).settle
termination_by limit - now
decreasing_by omega

/-- Lets time pass until `done` holds, and no longer than `patience`. -/
def waitFor (s : Service) (done : Service → Bool) (patience : Duration) : Service :=
  passTime done (s.hub.now + patience) s.hub.now s

def sleep (s : Service) (time : Duration) : Service :=
  s.waitFor (fun _ => false) time

/-- Moves the clock on in one go; what was due in between is late. -/
def jump (s : Service) (time : Duration) : Service :=
  (s.settle.atTime (s.hub.now + time)).settle

end Observatory.Service
