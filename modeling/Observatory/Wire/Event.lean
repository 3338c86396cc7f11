import Observatory.Event.Basic
import Observatory.Time.Rfc3339.Printer
import Observatory.Wire.Bytes

/-!
# Events as bytes

The bytes of an event are those of its kind, identifier, source, name, time and parameters, one
after another; the time travels as its text. Alternatives are numbered in their order. Bytes after
an event are left alone, and reading checks nothing of names beyond their being text.
-/

namespace Observatory.Wire

/-- The kinds of event, in the order of their tags. -/
def kinds : List EventKind := [.system, .observe]

def encodeKind : EventKind → List UInt8
  | .system => littleEndian 4 0
  | .observe => littleEndian 4 1

def encodeSource (s : Source) : List UInt8 :=
  littleEndian 4 s.subsystem.rank ++ encodeText s.component

def encodeValue : Value → List UInt8
  | .bool b => littleEndian 4 0 ++ littleEndian 1 b.toNat
  | .int n => littleEndian 4 1 ++ littleEndian 8 n.toUInt64.toNat
  | .double d => littleEndian 4 2 ++ littleEndian 8 d.bits.toNat
  | .text s => littleEndian 4 3 ++ encodeText s

def encodeParameter (p : Parameter) : List UInt8 :=
  encodeText p.name ++ encodeList encodeValue p.values

def encodeTime (t : UtcTime) : List UInt8 :=
  encodeText t.text

def readKind : Reader EventKind :=
  readTag kinds

def readSource : Reader Source := do
  let subsystem ← readTag Subsystem.all
  return ⟨subsystem, ← readText⟩

/-- The types of value, in the order of their tags. -/
inductive ValueType where
  | bool
  | int
  | double
  | text
  deriving DecidableEq, Repr

def readValue : Reader Value := do
  match ← readTag [ValueType.bool, .int, .double, .text] with
  | .bool => return .bool (← readBool)
  | .int => return .int (UInt64.ofNat (← readNumber 8)).toInt64
  | .double => return .double ⟨UInt64.ofNat (← readNumber 8)⟩
  | .text => return .text (← readText)

def readParameter : Reader Parameter := do
  let name ← readText
  return ⟨name, ← readList readValue⟩

def readTime : Reader UtcTime := do
  match UtcTime.parse (← readText) with
  | .ok t => return t
  | .error error => throw (.badTime error)

def readEvent : Reader Event := do
  let kind ← readKind
  let id ← readText
  let source ← readSource
  let name ← readText
  let time ← readTime
  let params ← readList readParameter
  return { kind, id := ⟨id⟩, source, name := ⟨name⟩, time, params := ⟨params⟩ }

end Observatory.Wire

namespace Observatory.Event

def toBytes (e : Event) : List UInt8 :=
  Wire.encodeKind e.kind ++ Wire.encodeText e.id.text ++ Wire.encodeSource e.source ++
    Wire.encodeText e.name.text ++ Wire.encodeTime e.time ++
    Wire.encodeList Wire.encodeParameter e.params.toList

/-- Reads the event at the front of the bytes. -/
def ofBytes (bytes : List UInt8) : Except Wire.DecodeError Event :=
  (Wire.readEvent.run bytes).map Prod.fst

end Observatory.Event
