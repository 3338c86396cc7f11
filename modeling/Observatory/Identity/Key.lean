import Observatory.Identity.Error
import Observatory.Identity.Subsystem
import Observatory.Text.Blank

/-!
# Sources and keys

A source is a component of a subsystem; a key is an event name of a source, and names one channel
of the bus. The written forms join the parts with a dot. A component name holds no dot and an
event name may, so a key's text falls into its parts at its first two dots.

The parts of a value are plain texts: values that arrive from elsewhere may hold parts that
`Source.create` and `EventName.create` would refuse, and such values are told apart by their
parts, not by their text.
-/

namespace Observatory

def keySeparator : Char := '.'

structure Source where
  subsystem : Subsystem
  component : String
  deriving DecidableEq, Repr

structure EventName where
  text : String
  deriving DecidableEq, Repr

/-- The identity of a channel of the bus. -/
structure EventKey where
  source : Source
  name : EventName
  deriving DecidableEq, Repr

def cutAtSeparator (cs : List Char) : Option (List Char × List Char) :=
  match cs.dropWhile (· != keySeparator) with
  | [] => none
  | _ :: rest => some (cs.takeWhile (· != keySeparator), rest)

def Subsystem.parse (text : String) : Except NameError Subsystem :=
  match ofName? text with
  | some s => .ok s
  | none => .error (.unknownSubsystem text)

namespace Source

/-- The first rule that a component name breaks, if any. -/
def fault? (component : String) : Option ComponentFault :=
  let cs := component.toList
  if cs.isEmpty then some .empty
  else if Text.trim cs != cs then some .padded
  else if cs.contains keySeparator then some .separator
  else none

def create (subsystem : Subsystem) (component : String) : Except NameError Source :=
  match fault? component with
  | some fault => .error (.invalidComponent component fault)
  | none => .ok ⟨subsystem, component⟩

def text (s : Source) : String :=
  s.subsystem.name ++ keySeparator.toString ++ s.component

def parse (text : String) : Except NameError Source :=
  match cutAtSeparator text.toList with
  | none => .error (.malformed .source text)
  | some (subsystem, component) => do
    create (← Subsystem.parse (String.ofList subsystem)) (String.ofList component)

instance : Ord Source where
  compare a b := (compare a.subsystem b.subsystem).then (compare a.component b.component)

end Source

def EventName.create (text : String) : Except NameError EventName :=
  if text.isEmpty then .error .emptyEventName else .ok ⟨text⟩

instance : Ord EventName where
  compare a b := compare a.text b.text

namespace EventKey

/-- The written form, which glob patterns match. -/
def canonical (k : EventKey) : String :=
  k.source.text ++ keySeparator.toString ++ k.name.text

def parse (text : String) : Except NameError EventKey :=
  match cutAtSeparator text.toList with
  | none => .error (.malformed .key text)
  | some (subsystem, rest) =>
    match cutAtSeparator rest with
    | none => .error (.malformed .key text)
    | some (component, name) => do
      let subsystem ← Subsystem.parse (String.ofList subsystem)
      let source ← Source.create subsystem (String.ofList component)
      return ⟨source, ← EventName.create (String.ofList name)⟩

/-- Keys are ordered by subsystem, component and name; texts by their characters' code points. -/
instance : Ord EventKey where
  compare a b := (compare a.source b.source).then (compare a.name b.name)

def le (a b : EventKey) : Bool :=
  (compare a b).isLE

/-- Puts a key into its place in a sorted list, unless it is there already. -/
def insertSorted (k : EventKey) : List EventKey → List EventKey
  | [] => [k]
  | x :: xs =>
    match compare k x with
    | .lt => k :: x :: xs
    | .eq => x :: xs
    | .gt => x :: insertSorted k xs

def sortDistinct (keys : List EventKey) : List EventKey :=
  keys.foldr insertSorted []

end EventKey

end Observatory
