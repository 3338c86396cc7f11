import Observatory.Transport.Keyspace
import Observatory.Transport.Log

/-!
# Transports

The carrier of events from publishers to readers: one of two backends, perhaps behind a script that
makes it slow or lets it fail. A transport delivers live events only; what was published before a
reader came is not its business.
-/

namespace Observatory

inductive Backend where
  | keyspace (t : Keyspace)
  | log (t : Log)

namespace Backend

def name : Backend → String
  | .keyspace _ => Keyspace.name
  | .log _ => Log.name

def supportsPatterns : Backend → Bool
  | .keyspace _ => true
  | .log _ => false

def publish (w : Stamped) : Backend → Except TransportError Backend
  | .keyspace t => (t.publish w).map .keyspace
  | .log t => (t.publish w).map .log

def subscribe (id : ReaderId) (keys : List EventKey) : Backend → Except TransportError Backend
  | .keyspace t => (t.subscribe id keys).map .keyspace
  | .log t => (t.subscribe id keys).map .log

def patternSubscribe (id : ReaderId) (pattern : KeyPattern) :
    Backend → Except TransportError Backend
  | .keyspace t => (t.patternSubscribe id pattern).map .keyspace
  | .log _ => .error (Log.refusal pattern)

structure Next where
  result : Poll Stamped
  skipped : Nat
  backend : Backend

def next (id : ReaderId) : Backend → Next
  | .keyspace t =>
    let taken := t.next id
    ⟨taken.result, taken.skipped, .keyspace taken.transport⟩
  | .log t =>
    let taken := t.next id
    ⟨taken.result, taken.skipped, .log taken.transport⟩

/-- Whether a reader gets nothing new until something is published. -/
def isQuiet (id : ReaderId) : Backend → Bool
  | .keyspace t => t.isQuiet id
  | .log t => t.isQuiet id

/-- Takes up to `limit` events of a reader, and tells whether it has ended. -/
def take (id : ReaderId) : (limit : Nat) → Backend → List Stamped × Bool × Backend
  | 0, backend => ([], false, backend)
  | limit + 1, backend =>
    let next := backend.next id
    match next.result with
    | .pending => ([], false, next.backend)
    | .ended => ([], true, next.backend)
    | .item w =>
      let (events, ended, backend) := take id limit next.backend
      (w :: events, ended, backend)

def drop (id : ReaderId) : Backend → Backend
  | .keyspace t => .keyspace (t.drop id)
  | .log t => .log (t.drop id)

def shutdown : Backend → Backend
  | .keyspace t => .keyspace t.shutdown
  | .log t => .log t.shutdown

end Backend

inductive Verdict where
  /-- It hands the request on to its backend. -/
  | handOn
  | fail (error : TransportError)
  /-- It takes the task that asks down with it. -/
  | crash
  deriving DecidableEq, Repr

structure Script where
  publish : Verdict
  subscribe : Verdict
  publishDelay : Nat
  /-- How long a subscription waits for its acknowledgement once it has taken effect. -/
  subscribeDelay : Nat
  /-- Whether patterns are said to be supported, where that is not left to the backend. -/
  patterns : Option Bool

def Script.transparent : Script := ⟨.handOn, .handOn, 0, 0, none⟩

structure Transport where
  name : String
  backend : Backend
  script : Script

namespace Transport

def ofBackend (backend : Backend) : Transport :=
  ⟨backend.name, backend, .transparent⟩

def supportsPatterns (t : Transport) : Bool :=
  t.script.patterns.getD t.backend.supportsPatterns

end Transport

end Observatory
