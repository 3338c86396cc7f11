import Observatory.Pattern
import Observatory.Transport.Error
import Observatory.Transport.Feed
import Observatory.Transport.Window
import Observatory.Wire.Event

/-!
# The log transport

Every key has a partition that keeps the latest events published on it, in bytes. A reader begins
at the end of its partitions; when it is overtaken, it goes on at the oldest event kept. There is no
reading by pattern.
-/

namespace Observatory

structure LogEntry where
  stamp : Nat
  bytes : List UInt8
  deriving DecidableEq, Repr

structure Log where
  retention : Nat
  partitions : Table EventKey (Window LogEntry)
  readers : Table ReaderId (Feed EventKey)
  closed : Bool

namespace Log

def name : String := "log"

/-- A transport whose partitions keep `retention` events, and one at least. -/
def create (retention : Nat) : Log :=
  ⟨max retention 1, .empty, .empty, false⟩

def partition (t : Log) (key : EventKey) : Window LogEntry :=
  (t.partitions.get? key).getD .empty

def retained (t : Log) (key : EventKey) : Nat :=
  (t.partition key).items.length

def publish (t : Log) (w : Stamped) : Except TransportError Log :=
  if t.closed then .error (.closed name)
  else
    let entry : LogEntry := ⟨w.stamp, w.event.toBytes⟩
    .ok { t with
      partitions := t.partitions.insert w.key ((t.partition w.key).push t.retention entry)
      readers := t.readers.map fun feed => feed.wake w.key }

def subscribe (t : Log) (id : ReaderId) (keys : List EventKey) : Except TransportError Log :=
  if t.closed then .error (.closed name)
  else
    let opened := (EventKey.sortDistinct keys).map fun key => (key, (t.partition key).head)
    .ok { t with readers := t.readers.insert id (.start opened) }

def refusal (pattern : KeyPattern) : TransportError :=
  .rejected s!"{name} transport cannot subscribe to pattern '{pattern.text}'"

/-- The first entry of a list that is an event, and how far one has to go to have it. -/
def firstReadable (offset : Nat) : List LogEntry → Nat × Option Stamped
  | [] => (offset, none)
  | entry :: rest =>
    match Event.ofBytes entry.bytes with
    | .ok event => (offset + 1, some ⟨entry.stamp, event⟩)
    | .error _ => firstReadable (offset + 1) rest

def readPartition (window : Window LogEntry) (offset : Nat) : Reading :=
  let (reached, event) := firstReadable (max offset window.base) (window.unread offset)
  ⟨window.missed offset, reached, event⟩

structure Next where
  result : Poll Stamped
  skipped : Nat
  transport : Log

def next (t : Log) (id : ReaderId) : Next :=
  if t.closed then ⟨.ended, 0, t⟩
  else
    match t.readers.get? id with
    | none => ⟨.ended, 0, t⟩
    | some feed =>
      let pull := feed.next fun key => readPartition (t.partition key)
      ⟨pull.result, pull.skipped, { t with readers := t.readers.insert id pull.feed }⟩

/-- Whether a reader gets nothing new until something is published. -/
def isQuiet (t : Log) (id : ReaderId) : Bool :=
  !t.closed && ((t.readers.get? id).map Feed.isQuiet).getD false

def drop (t : Log) (id : ReaderId) : Log :=
  { t with readers := t.readers.erase id }

def shutdown (t : Log) : Log :=
  { t with closed := true }

end Log

end Observatory
