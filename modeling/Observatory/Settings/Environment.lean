import Observatory.Settings.Basic
import Observatory.Table
import Observatory.Text.Decimal
import Observatory.Text.Utf8

/-!
# Settings in the environment

A process has variables, each a run of bytes. Settings are read from four of them, in order, and
the first fault counts; only then are the capacities checked. A variable that does not hold UTF-8
counts as unset.
-/

namespace Observatory

structure Environment where
  bindings : Table String (List UInt8)

def Environment.text? (env : Environment) (name : String) : Option String :=
  (env.bindings.get? name).bind fun bytes =>
    (Text.Utf8.decode bytes).toOption.map String.ofList

namespace Settings

/-- Reads a capacity from a variable, which keeps its default if it is unset. -/
def capacityOr (fallback : Nat) (name : String) (env : Environment) : Except SettingsError Nat :=
  match env.text? name with
  | none => .ok fallback
  | some value =>
    match Text.word? value with
    | some n => .ok n
    | none => .error (.notANumber name value)

def ofEnvironment (env : Environment) : Except SettingsError Settings := do
  let transport ← match env.text? "EBUS_TRANSPORT" with
    | some name => TransportKind.parse name
    | none => pure default.transport
  let channelCapacity ← capacityOr default.channelCapacity "EBUS_CHANNEL_CAPACITY" env
  let subscriberBuffer ← capacityOr default.subscriberBuffer "EBUS_SUBSCRIBER_BUFFER" env
  let logRetention ← capacityOr default.logRetention "EBUS_LOG_RETENTION" env
  let s : Settings := ⟨transport, channelCapacity, subscriberBuffer, logRetention⟩
  s.check
  return s

end Settings

end Observatory
