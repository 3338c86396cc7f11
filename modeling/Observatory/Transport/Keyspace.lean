import Observatory.Pattern
import Observatory.Transport.Error
import Observatory.Transport.Feed
import Observatory.Transport.Window

/-!
# The keyspace transport

Every key with subscribers has a channel that keeps the latest events published on it, and one more
channel keeps the latest events of all keys for the readers of patterns. A channel comes into being
when its key is first subscribed, and goes with the first publish that finds no reader on it.
Publishing never waits for a reader: one that is too far behind misses the oldest events.
-/

namespace Observatory

abbrev ChannelId := Nat

inductive KeyspaceReader where
  | keys (feed : Feed ChannelId)
  /-- The channel of all keys, from a place on, as far as a pattern accepts them. -/
  | pattern (pattern : KeyPattern) (offset : Nat)

namespace KeyspaceReader

def follows (channel : ChannelId) : KeyspaceReader → Bool
  | .keys feed => feed.follows channel
  | .pattern .. => false

def isPattern : KeyspaceReader → Bool
  | .keys _ => false
  | .pattern .. => true

def wake (channel : ChannelId) : KeyspaceReader → KeyspaceReader
  | .keys feed => .keys (feed.wake channel)
  | reader => reader

end KeyspaceReader

structure Keyspace where
  /-- The capacity that was asked for. -/
  capacity : Nat
  channels : Table EventKey ChannelId
  windows : Table ChannelId (Window Stamped)
  /-- The channel of all keys. -/
  stream : Window Stamped
  readers : Table ReaderId KeyspaceReader
  nextChannel : ChannelId
  closed : Bool

namespace Keyspace

def name : String := "keyspace"

/-- The most slots that a channel can count. -/
def maxCapacity : Nat := 0x7FFFFFFFFFFFFFFF

/-- The most bytes that can be set aside at once. -/
def maxSize : Nat := 0x7FFFFFFFFFFFFFFF

/-- The bytes of a slot where no other count is given. The layout of slots is not part of what a
transport promises, and matters to channels of more than 2⁵⁵ of them only. -/
def usualSlot : Nat := 152

/-- A transport whose channels keep at least `capacity` events. No channel can be made if it has
more slots than can be counted, or if they take more bytes, `slot` for each, than can be set
aside. -/
def create? (slot capacity : Nat) : Option Keyspace :=
  if 0 < capacity ∧ capacity ≤ maxCapacity ∧ capacity.nextPowerOfTwo * slot ≤ maxSize then
    some ⟨capacity, .empty, .empty, .empty, .empty, 0, false⟩
  else none

/-- How many events a channel keeps: the least power of two that is no less than the capacity. -/
def depth (t : Keyspace) : Nat :=
  t.capacity.nextPowerOfTwo

def activeKeys (t : Keyspace) : Nat :=
  t.channels.size

def receivers (t : Keyspace) (channel : ChannelId) : Nat :=
  t.readers.values.countP (KeyspaceReader.follows channel)

def patternReceivers (t : Keyspace) : Nat :=
  t.readers.values.countP KeyspaceReader.isPattern

/-- Adds an event to the channel of its key, if there are readers on it, or removes the channel if
there are none. -/
def publishOnKey (t : Keyspace) (w : Stamped) : Keyspace :=
  match t.channels.get? w.key with
  | none => t
  | some channel =>
    -- Dropped readers are noticed only here, so an idle channel stays until the next publish.
    if t.receivers channel = 0 then { t with channels := t.channels.erase w.key }
    else
      { t with
        windows := t.windows.modify channel fun window => window.push t.depth w
        readers := t.readers.map (KeyspaceReader.wake channel) }

def publishOnStream (t : Keyspace) (w : Stamped) : Keyspace :=
  -- What nobody can read is not kept, and takes no place in the window.
  if t.patternReceivers = 0 then t else { t with stream := t.stream.push t.depth w }

def publish (t : Keyspace) (w : Stamped) : Except TransportError Keyspace :=
  if t.closed then .error (.closed name) else .ok ((t.publishOnKey w).publishOnStream w)

/-- The channel of a key, made if there is none. -/
def openChannel (t : Keyspace) (key : EventKey) : ChannelId × Keyspace :=
  match t.channels.get? key with
  | some channel => (channel, t)
  | none =>
    (t.nextChannel,
      { t with
        channels := t.channels.insert key t.nextChannel
        windows := t.windows.insert t.nextChannel .empty
        nextChannel := t.nextChannel + 1 })

def channelHead (t : Keyspace) (channel : ChannelId) : Nat :=
  ((t.windows.get? channel).map Window.head).getD 0

def openChannels (t : Keyspace) : List EventKey → List (ChannelId × Nat) × Keyspace
  | [] => ([], t)
  | key :: keys =>
    let (channel, t) := t.openChannel key
    let (opened, t) := t.openChannels keys
    ((channel, t.channelHead channel) :: opened, t)

def subscribe (t : Keyspace) (id : ReaderId) (keys : List EventKey) :
    Except TransportError Keyspace :=
  if t.closed then .error (.closed name)
  else
    let (opened, t) := t.openChannels (EventKey.sortDistinct keys)
    .ok { t with readers := t.readers.insert id (.keys (.start opened)) }

def patternSubscribe (t : Keyspace) (id : ReaderId) (pattern : KeyPattern) :
    Except TransportError Keyspace :=
  if t.closed then .error (.closed name)
  else .ok { t with readers := t.readers.insert id (.pattern pattern t.stream.head) }

def readWindow (window : Window Stamped) (offset : Nat) : Reading :=
  match window.unread offset with
  | [] => ⟨0, offset, none⟩
  | w :: _ => ⟨window.missed offset, max offset window.base + 1, some w⟩

def readChannel (t : Keyspace) (channel : ChannelId) (offset : Nat) : Reading :=
  readWindow ((t.windows.get? channel).getD .empty) offset

/-- The first event of a list that a pattern accepts, and how far one has to go to have it. -/
def firstAccepted (pattern : KeyPattern) (offset : Nat) : List Stamped → Nat × Option Stamped
  | [] => (offset, none)
  | w :: rest =>
    if pattern.accepts w.key then (offset + 1, some w)
    else firstAccepted pattern (offset + 1) rest

def readStream (t : Keyspace) (pattern : KeyPattern) (offset : Nat) : Reading :=
  let (reached, event) := firstAccepted pattern (max offset t.stream.base) (t.stream.unread offset)
  ⟨t.stream.missed offset, reached, event⟩

structure Next where
  result : Poll Stamped
  skipped : Nat
  transport : Keyspace

def next (t : Keyspace) (id : ReaderId) : Next :=
  if t.closed then ⟨.ended, 0, t⟩
  else
    match t.readers.get? id with
    | none => ⟨.ended, 0, t⟩
    | some (.keys feed) =>
      let pull := feed.next t.readChannel
      ⟨pull.result, pull.skipped, { t with readers := t.readers.insert id (.keys pull.feed) }⟩
    | some (.pattern pattern offset) =>
      let reading := t.readStream pattern offset
      let result := match reading.event with
        | some event => .item event
        | none => .pending
      ⟨result, reading.skipped,
        { t with readers := t.readers.insert id (.pattern pattern reading.offset) }⟩

/-- Whether a reader gets nothing new until something is published. -/
def isQuiet (t : Keyspace) (id : ReaderId) : Bool :=
  !t.closed &&
    match t.readers.get? id with
    | none => false
    | some (.keys feed) => feed.isQuiet
    | some (.pattern _ offset) => offset == t.stream.head

def drop (t : Keyspace) (id : ReaderId) : Keyspace :=
  { t with readers := t.readers.erase id }

def shutdown (t : Keyspace) : Keyspace :=
  if t.closed then t else { t with closed := true, channels := .empty }

end Keyspace

end Observatory
