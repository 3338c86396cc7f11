import Observatory.Event.Parameter
import Observatory.Identity.Key
import Observatory.Text.Hex
import Observatory.Time.Utc

/-!
# Events

An event is an immutable value: a change yields another event. `withParameter` and
`withoutParameter` give the changed event a fresh identifier, which the caller supplies; `withTime`
keeps the identifier. Every key has an invalid event, which stands wherever an event is due and none
was published.
-/

namespace Observatory

structure EventId where
  text : String
  deriving DecidableEq, Repr, Inhabited

namespace EventId

def invalid : EventId := ⟨"-1"⟩

def isInvalid (id : EventId) : Bool :=
  id == invalid

/-- The identifier made of 122 random bits: a UUID of version 4 and of the usual variant. -/
def ofRandom (high low : UInt64) : EventId :=
  let h := high.toNat
  let l := low.toNat
  ⟨String.ofList <|
    Text.hexDigits 8 (h >>> 32) ++ '-' :: Text.hexDigits 4 (h >>> 16) ++
    '-' :: '4' :: Text.hexDigits 3 h ++
    '-' :: Nat.digitChar (8 + (l >>> 60) % 4) :: Text.hexDigits 3 (l >>> 48) ++
    '-' :: Text.hexDigits 12 l⟩

def isRandom (id : EventId) : Bool :=
  let cs := id.text.toList
  cs.length == 36 &&
    (cs.zipIdx.all fun (c, i) =>
      if i = 8 ∨ i = 13 ∨ i = 18 ∨ i = 23 then c == '-'
      else if i = 14 then c == '4'
      else if i = 19 then c == '8' || c == '9' || c == 'a' || c == 'b'
      else c.isDigit || ('a' ≤ c && c ≤ 'f'))

end EventId

/-- What an event reports on: the system itself, or an observation in progress. -/
inductive EventKind where
  | system
  | observe
  deriving DecidableEq, Repr, Inhabited

structure Event where
  kind : EventKind
  id : EventId
  source : Source
  name : EventName
  time : UtcTime
  params : ParameterSet
  deriving DecidableEq

namespace Event

def key (e : Event) : EventKey :=
  ⟨e.source, e.name⟩

def create (kind : EventKind) (key : EventKey) (id : EventId) (now : UtcTime) : Event :=
  { kind, id, source := key.source, name := key.name, time := now, params := .empty }

/-- The event that stands for a channel on which nothing was published. -/
def invalid (key : EventKey) : Event :=
  create .system key .invalid .epoch

def isInvalid (e : Event) : Bool :=
  e.id.isInvalid

def isObserve (e : Event) : Bool :=
  e.kind == .observe

/-- The event with a parameter added or replaced, under a fresh identifier. -/
def withParameter (e : Event) (p : Parameter) (fresh : EventId) : Event :=
  { e with params := e.params.insert p, id := fresh }

def withoutParameter (e : Event) (name : String) (fresh : EventId) : Event :=
  { e with params := e.params.erase name, id := fresh }

def withTime (e : Event) (time : UtcTime) : Event :=
  { e with time }

/-- Whether two events are equal part by part, doubles compared as numbers. -/
def agrees (a b : Event) : Bool :=
  a.kind == b.kind && a.id == b.id && a.source == b.source && a.name == b.name &&
    a.time == b.time && a.params.agrees b.params

@[simp]
theorem key_invalid (k : EventKey) : (invalid k).key = k := rfl

@[simp]
theorem isInvalid_invalid (k : EventKey) : (invalid k).isInvalid = true := by
  simp [invalid, create, isInvalid, EventId.isInvalid]

end Event

end Observatory
