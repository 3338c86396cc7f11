import Observatory.Logging.Record
import Observatory.Regex.Reader
import Observatory.Text.Cut

/-!
# Log filters

A filter is written as directives with commas between them. A directive is a verbosity, or names
what it is about and perhaps gives a verbosity behind `=`; without one it lets everything through.
It may be about a target, meaning all places whose path begins with it, and, between brackets, about
a span and fields; a value that it asks for is a number or a regular expression. The directive that
is most specific to a record decides whether the record is let through, and of two that are alike
the later one; a record that no directive is about is not let through.
-/

namespace Observatory.Logging

inductive FilterError where
  | malformed
  | badVerbosity
  | badValue
  /-- The value of a field is a regular expression that asks for ends of words. -/
  | wordEdges
  /-- A part of a directive would begin or end inside a character: reading breaks off. -/
  | brokenCharacter
  deriving DecidableEq, Repr

def FilterError.message : FilterError → String
  | .malformed => "invalid filter directive"
  | .badVerbosity =>
    "error parsing level filter: expected one of \"off\", \"error\", \"warn\", \"info\", " ++
    "\"debug\", \"trace\", or a number 0-5"
  | .badValue => "invalid field filter: error building NFA"
  | .wordEdges =>
    "invalid field filter: unsupported regex feature for DFAs: cannot build DFAs for regexes " ++
    "with Unicode word boundaries; switch to ASCII word boundaries, or heuristically enable " ++
    "Unicode word boundaries or use a different regex engine"
  | .brokenCharacter => "byte index is not a char boundary"

structure FieldTest where
  name : String
  value : Option String
  deriving DecidableEq, Repr

structure Directive where
  verbosity : Verbosity
  target : Option String
  /-- The name of the span that must be open, unless none need be. -/
  span : Option String
  fields : List FieldTest
  deriving DecidableEq, Repr

namespace Directive

def part (written : List Char) (start stop : Nat) : Except FilterError (List Char) :=
  (Text.cut? written start stop).elim (.error .brokenCharacter) .ok

def readVerbosity (written : List Char) (start : Nat) : Except FilterError Verbosity := do
  let text ← part written start (Text.byteLength written)
  if text.isEmpty then return .full
  else
    match Verbosity.parse? (String.ofList text) with
    | some verbosity => return verbosity
    | none => .error .badVerbosity

def readField (text : List Char) : Except FilterError FieldTest :=
  let name := text.takeWhile (· != '=')
  match text.drop name.length with
  | [] => .ok ⟨String.ofList name, none⟩
  | _ :: rest =>
    let value := rest.takeWhile (· != '=')
    let test : FieldTest := ⟨String.ofList name, some (String.ofList value)⟩
    if Text.isNumber (String.ofList value) then .ok test
    else
      match Regex.check value with
      | .valid => .ok test
      | .asksForWordEdges => .error .wordEdges
      | .malformed => .error .badValue

structure Mark where
  char : Char
  place : Nat
  rest : List Char
  deriving DecidableEq, Repr

def findMark? (marks : List Char) : (place : Nat) → List Char → Option Mark
  | _, [] => none
  | place, c :: rest =>
    if marks.contains c then some ⟨c, place, rest⟩ else findMark? marks (place + c.utf8Size) rest

def readTail (written : List Char) (place : Nat) :
    (shown : List Char) → Except FilterError Verbosity
  | [] => .ok .full
  | c :: _ => if c = '=' then readVerbosity written (place + 1) else .error .malformed

def readBrackets (target : Option String) (written : List Char) (start : Nat)
    (shown : List Char) : Except FilterError Directive :=
  match findMark? [']', '\x7b'] start shown with
  | none => .error .malformed
  | some mark => do
    let span ← part written start mark.place
    if mark.char = ']' then
      let verbosity ← readTail written (mark.place + 1) mark.rest
      return ⟨verbosity, target, some (String.ofList span), []⟩
    else
      match findMark? ['\x7d'] (mark.place + 1) mark.rest with
      | none => .error .malformed
      | some close =>
        let field ← part written (mark.place + 1) close.place
        if field.isEmpty then .error .malformed
        else
          let test ← readField field
          match close.rest with
          | ']' :: shown =>
            let verbosity ← readTail written (close.place + 2) shown
            return ⟨verbosity, target, if span.isEmpty then none else some (String.ofList span),
              [test]⟩
          | _ => .error .malformed

/-- Reads a directive. Its parts are found in the text without the blanks around it, and are cut
from the same places of the text as it stands. -/
def read (written : List Char) : Except FilterError Directive :=
  match Text.trim written with
  | [] => .error .malformed
  | c :: shown =>
    if c = '[' then readBrackets none written 1 shown
    else if c = '-' ∨ c = ':' ∨ c = '_' ∨ Text.isWordlike c then
      match findMark? ['=', '['] c.utf8Size shown with
      | none =>
        let text := String.ofList written
        match Verbosity.parse? text with
        | some verbosity => .ok ⟨verbosity, none, none, []⟩
        | none => .ok ⟨.full, some text, none, []⟩
      | some mark => do
        let target := String.ofList (← part written 0 mark.place)
        if mark.char = '=' then
          return ⟨← readVerbosity written (mark.place + 1), some target, none, []⟩
        else readBrackets (some target) written (mark.place + 1) mark.rest
    else .error .malformed

/-- Whether records can be judged by the directive: it asks for no span and for no value. -/
def judgesRecords (d : Directive) : Bool :=
  d.span.isNone && d.fields.all fun field => field.value.isNone

def concerns (d : Directive) (record : Record) : Bool :=
  d.judgesRecords && (d.target.all fun target => target.toList.isPrefixOf record.target.toList) &&
    d.fields.all fun field => record.fields.any fun (name, _) => name == field.name

/-- Whether of two directives about one record the second is at least as specific: it has the
longer target, or as long a one and more fields, or as many and the greater names. -/
def le (a b : Directive) : Bool :=
  let size d := ((Directive.target d).map fun target => target.utf8ByteSize + 1).getD 0
  let names d := (Directive.fields d).map FieldTest.name
  if size a ≠ size b then size a < size b
  else if a.fields.length ≠ b.fields.length then a.fields.length < b.fields.length
  else ¬ names b < names a

end Directive

structure Filter where
  directives : List Directive
  deriving DecidableEq, Repr

namespace Filter

def parse (text : String) : Except FilterError Filter := do
  let parts := (text.toList.splitOn ',').filter fun part => !part.isEmpty
  return ⟨← parts.mapM Directive.read⟩

def decisive? (filter : Filter) (record : Record) : Option Directive :=
  filter.directives.foldl
    (fun best d =>
      -- Of two directives that are alike the later one decides.
      if d.concerns record && best.all (Directive.le · d) then some d else best) none

def passes (filter : Filter) (record : Record) : Bool :=
  match filter.decisive? record with
  | some d => d.verbosity.allows record.level
  | none => false

end Filter

end Observatory.Logging
