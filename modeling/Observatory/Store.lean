import Observatory.Event.Basic
import Observatory.Table

/-!
# The store of latest events

For every key the store holds the event that was written last, under a stamp that grows with every
write on any key. A write can be undone as long as the entry still holds an event of the same
identifier; the stamp stays used up. A key that was never written reads as its invalid event with
stamp zero.
-/

namespace Observatory

/-- An event and the stamp of the write that stored it. -/
structure Stamped where
  stamp : Nat
  event : Event
  deriving DecidableEq

instance : Inhabited Stamped := ⟨⟨0, .invalid ⟨⟨default, ""⟩, ⟨""⟩⟩⟩⟩

namespace Stamped

def key (w : Stamped) : EventKey :=
  w.event.key

def invalid (key : EventKey) : Stamped :=
  ⟨0, .invalid key⟩

end Stamped

structure Store where
  entries : Table EventKey Stamped
  lastStamp : Nat

namespace Store

def empty : Store := ⟨.empty, 0⟩

instance : Inhabited Store := ⟨empty⟩

def size (s : Store) : Nat :=
  s.entries.size

def isEmpty (s : Store) : Bool :=
  s.entries.isEmpty

/-- What a write did: the entry that it made, and the one that it replaced. -/
structure Write where
  written : Stamped
  previous : Option Stamped

def put (s : Store) (key : EventKey) (event : Event) : Write × Store :=
  let written : Stamped := ⟨s.lastStamp + 1, event⟩
  (⟨written, s.entries.get? key⟩, ⟨s.entries.insert key written, s.lastStamp + 1⟩)

def read (s : Store) (key : EventKey) : Stamped :=
  (s.entries.get? key).getD (.invalid key)

def get (s : Store) (key : EventKey) : Event :=
  (s.read key).event

/-- The entries of some keys, each key once and in order. -/
def snapshot (s : Store) (keys : List EventKey) : List Stamped :=
  (EventKey.sortDistinct keys).map s.read

def getAll (s : Store) (keys : List EventKey) : List Event :=
  (s.snapshot keys).map Stamped.event

/-- Undoes the write of the event `failed`, if the entry still holds an event of that identifier:
the entry becomes `previous`, or goes if there was none. -/
def restore (s : Store) (key : EventKey) (failed : EventId) (previous : Option Stamped) : Store :=
  match s.entries.get? key with
  | none => s
  | some current =>
    if current.event.id = failed then
      match previous with
      | some previous => { s with entries := s.entries.insert key previous }
      | none => { s with entries := s.entries.erase key }
    else s

/-- The store without entries. Stamps go on from where they were. -/
def clear (s : Store) : Store :=
  { s with entries := .empty }

/-- A store as written reads back at the key of the write, and nowhere else does it change. -/
theorem read_put (s : Store) (key key' : EventKey) (event : Event) :
    (s.put key event).2.read key' =
      if key' = key then ⟨s.lastStamp + 1, event⟩ else s.read key' := by
  by_cases h : key' = key
  · subst h
    simp [put, read]
  · simp [put, read, h]

@[simp]
theorem lastStamp_put (s : Store) (key : EventKey) (event : Event) :
    (s.put key event).2.lastStamp = s.lastStamp + 1 := rfl

@[simp]
theorem lastStamp_restore (s : Store) (key : EventKey) (failed : EventId)
    (previous : Option Stamped) : (s.restore key failed previous).lastStamp = s.lastStamp := by
  unfold restore
  split
  · rfl
  · split
    · split <;> rfl
    · rfl

@[simp]
theorem read_clear (s : Store) (key : EventKey) : s.clear.read key = .invalid key := rfl

end Store

end Observatory
