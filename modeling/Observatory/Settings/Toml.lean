import Observatory.Settings.Basic
import Observatory.Text.Utf8
import Observatory.Toml.Reader

/-!
# Settings in TOML

The fields of a document name the transport and the capacities. A field that is not there keeps its
default, and fields of other names are ignored. The transport is a text, or a table whose one field
is named for it and holds nothing.
-/

namespace Observatory

def Toml.Node.isHollow : Toml.Node → Bool
  | .list items => items.isEmpty
  | .table _ fields => fields.isEmpty
  | .tables rows => rows.isEmpty
  | _ => false

def Toml.Node.asNat? : Toml.Node → Option Nat
  | .int n => if 0 ≤ n then some n.toNat else none
  | _ => none

def TransportKind.ofToml? : Toml.Node → Option TransportKind
  | .text tag => ofTag? tag
  | .table _ fields =>
    match fields.entries with
    | [(tag, content)] => if content.isHollow then ofTag? tag else none
    | _ => none
  | _ => none

namespace Settings

/-- Reads a field, which keeps its default if it is not there. -/
def fieldOr {α : Type} (fallback : α) (read : Toml.Node → Option α) (name : String)
    (fields : Toml.Fields) : Option α :=
  match fields.get? name with
  | some node => read node
  | none => some fallback

def ofToml? (fields : Toml.Fields) : Option Settings := do
  return {
    transport := ← fieldOr default.transport TransportKind.ofToml? "transport" fields
    channelCapacity := ← fieldOr default.channelCapacity Toml.Node.asNat? "channel_capacity" fields
    subscriberBuffer :=
      ← fieldOr default.subscriberBuffer Toml.Node.asNat? "subscriber_buffer" fields
    logRetention := ← fieldOr default.logRetention Toml.Node.asNat? "log_retention" fields }

def parse (text : String) : Except SettingsError Settings :=
  match (Toml.parse? text).bind ofToml? with
  | none => .error .malformed
  | some s => s.check.map fun _ => s

/-- Reads settings from the file at a path, given what reading the file yields. -/
def load (path : String) (contents : Except FileFault (List UInt8)) :
    Except SettingsError Settings :=
  match contents with
  | .error fault => .error (.unreadable path fault)
  | .ok bytes =>
    match Text.Utf8.decode bytes with
    | .error _ => .error (.unreadable path .notText)
    | .ok text => parse (String.ofList text)

end Settings

end Observatory
