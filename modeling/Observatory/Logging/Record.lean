import Observatory.Event.Basic
import Observatory.Text.Ascii
import Observatory.Text.Decimal
import Observatory.Text.Hex

/-!
# Log records

A record has a level, the place in the program that it comes from, and fields, one of which is the
message. A verbosity says how grave a record must be to be let through.
-/

namespace Observatory.Logging

inductive Level where
  | error
  | warn
  | info
  | debug
  | trace
  deriving DecidableEq, Repr

namespace Level

def all : List Level := [.error, .warn, .info, .debug, .trace]

def name : Level → String
  | .error => "ERROR"
  | .warn => "WARN"
  | .info => "INFO"
  | .debug => "DEBUG"
  | .trace => "TRACE"

def rank : Level → Nat
  | .error => 1
  | .warn => 2
  | .info => 3
  | .debug => 4
  | .trace => 5

def named? (name : String) : Option Level :=
  all.find? fun level => Text.sameIgnoringCase level.name name

end Level

inductive Verbosity where
  | off
  | upTo (level : Level)
  deriving DecidableEq, Repr

namespace Verbosity

def full : Verbosity := .upTo .trace

def allows : Verbosity → Level → Bool
  | .off, _ => false
  | .upTo limit, level => level.rank ≤ limit.rank

/-- Reads a verbosity: the name of a level or `off`, or a number from 0 for `off` to 5. -/
def parse? (text : String) : Option Verbosity :=
  match Text.word? text with
  | some 0 => some .off
  | some n => (Level.all.find? fun level => level.rank == n).map .upTo
  | none =>
    if Text.sameIgnoringCase text "off" then some .off else (Level.named? text).map .upTo

end Verbosity

inductive FieldValue where
  /-- A text that is quoted where it is shown to people. -/
  | text (s : String)
  /-- A text that is shown as it is. -/
  | shown (s : String)
  | int (n : Int)
  | bool (b : Bool)
  deriving DecidableEq, Repr

structure Record where
  level : Level
  /-- The place in the program that it comes from, as a path of modules. -/
  target : String
  fields : List (String × FieldValue)
  deriving DecidableEq, Repr

namespace Record

def attemptField (attempt : Option Int) : List (String × FieldValue) :=
  (attempt.map fun n => ("attempt", FieldValue.int n)).toList

def plain (level : Level) (target component message : String) (attempt : Option Int) : Record :=
  ⟨level, target,
    ("message", .shown message) :: ("component", .text component) :: attemptField attempt⟩

def onEvent (level : Level) (target component message : String) (event : Event)
    (attempt : Option Int) : Record :=
  ⟨level, target,
    [("message", .shown message), ("component", .text component),
     ("event_key", .shown event.key.canonical), ("event_id", .shown event.id.text)] ++
    attemptField attempt⟩

/-- How a character of a message is shown to people: one that a terminal could act on is spelled
out. -/
def screened (c : Char) : List Char :=
  if ['\x1b', '\x07', '\x08', '\x0c', '\x7f'].contains c then
    '\\' :: 'x' :: Text.hexDigits 2 c.toNat
  else if 0x80 ≤ c.toNat ∧ c.toNat ≤ 0x9F then
    ['\\', 'u', '\x7b'] ++ Text.hexDigits 2 c.toNat ++ ['\x7d']
  else [c]

def shownText (name text : String) : List Char :=
  if name = "message" then text.toList.flatMap screened else text.toList

/-- The lines of the record where it is shown to people. A line that holds a piece of one field's
text and nothing else is given by that piece; of the layout of other lines nothing is said. -/
def lines (record : Record) : List (Option String) :=
  -- The line at hand comes first. A field goes on in it, and each line end in a text that is shown
  -- as it is begins another one.
  let extend (done : List (Option String)) : String × FieldValue → List (Option String)
    | (name, .shown text) =>
      let pieces := (shownText name text).splitOn '\n'
      (pieces.drop 1).reverse.map (fun piece => some (String.ofList piece)) ++ none :: done.drop 1
    | _ => none :: done.drop 1
  (record.fields.foldl extend [none]).reverse

end Record

end Observatory.Logging
