import Observatory.Text.Ascii

/-!
# Settings

What a service is made of: the kind of its transport, and the capacities of its channels, mailboxes
and partitions.
-/

namespace Observatory

inductive TransportKind where
  /-- One bounded channel per key. -/
  | keyspace
  /-- One bounded log per key. -/
  | log
  deriving DecidableEq, Repr, Inhabited

structure Settings where
  transport : TransportKind
  /-- How many events a channel of the keyspace keeps at least. -/
  channelCapacity : Nat
  subscriberBuffer : Nat
  logRetention : Nat
  deriving DecidableEq, Repr

namespace Settings

def defaultChannelCapacity : Nat := 1000

def defaultSubscriberBuffer : Nat := 256

def defaultLogRetention : Nat := 10000

def default : Settings :=
  ⟨.keyspace, defaultChannelCapacity, defaultSubscriberBuffer, defaultLogRetention⟩

instance : Inhabited Settings := ⟨default⟩

end Settings

inductive FileFault where
  | notFound
  | notDirectory
  | directory
  | tooLong
  | nulInPath
  | notText
  deriving DecidableEq, Repr

def FileFault.message : FileFault → String
  | .notFound => "No such file or directory (os error 2)"
  | .notDirectory => "Not a directory (os error 20)"
  | .directory => "Is a directory (os error 21)"
  | .tooLong => "File name too long (os error 36)"
  | .nulInPath => "file name contained an unexpected NUL byte"
  | .notText => "stream did not contain valid UTF-8"

inductive SettingsError where
  | unreadable (path : String) (fault : FileFault)
  /-- The text is not TOML, or a field has a value of the wrong kind. -/
  | malformed
  | unknownTransport (name : String)
  | notANumber (name value : String)
  | zeroCapacity (field : String)
  deriving DecidableEq, Repr

def SettingsError.message (error : SettingsError) : String :=
  "Configuration error: " ++
    match error with
    | .unreadable path fault => s!"{path}: {fault.message}"
    | .malformed => "malformed settings"
    | .unknownTransport name => s!"unknown transport '{name}' (expected 'keyspace' or 'log')"
    | .notANumber name value => s!"{name}='{value}' is not a number"
    | .zeroCapacity field => s!"{field} must be greater than zero"

namespace TransportKind

def tag : TransportKind → String
  | .keyspace => "keyspace"
  | .log => "log"

def ofTag? (tag : String) : Option TransportKind :=
  if tag = TransportKind.keyspace.tag then some .keyspace
  else if tag = TransportKind.log.tag then some .log
  else none

def parse (name : String) : Except SettingsError TransportKind :=
  match ofTag? (Text.lowerAscii name) with
  | some kind => .ok kind
  | none => .error (.unknownTransport (Text.lowerAscii name))

end TransportKind

namespace Settings

def capacities (s : Settings) : List (String × Nat) :=
  [("channel_capacity", s.channelCapacity), ("subscriber_buffer", s.subscriberBuffer),
   ("log_retention", s.logRetention)]

/-- Refuses settings with a capacity of zero, naming the first one. -/
def check (s : Settings) : Except SettingsError Unit :=
  match s.capacities.find? fun (_, capacity) => capacity == 0 with
  | some (field, _) => .error (.zeroCapacity field)
  | none => .ok ()

end Settings

end Observatory
