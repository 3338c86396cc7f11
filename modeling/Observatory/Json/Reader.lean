import Observatory.Json.Number
import Observatory.Text.Hex

/-!
# Reading JSON

A reader takes a value off the front of a text and gives the rest. Of two fields of one name the
later one counts. Lists and objects stand inside each other to a bounded depth.
-/

namespace Observatory.Json

def isSpace (c : Char) : Bool :=
  c == ' ' || c == '\n' || c == '\t' || c == '\r'

def skipSpaces (cs : List Char) : List Char :=
  cs.dropWhile isSpace

def expect (wanted cs : List Char) : Option (List Char) :=
  if wanted.isPrefixOf cs then some (cs.drop wanted.length) else none

def readUnit : List Char → Option (Nat × List Char)
  | a :: b :: c :: d :: rest => (Text.hexRun? [a, b, c, d]).map fun unit => (unit, rest)
  | _ => none

/-- Reads the code point that one unit or a pair of units stands for. -/
def readCodePoint (cs : List Char) : Option (Char × List Char) := do
  let (high, rest) ← readUnit cs
  if 0xD800 ≤ high ∧ high ≤ 0xDBFF then
    let (low, rest) ← readUnit (← expect ['\\', 'u'] rest)
    if 0xDC00 ≤ low ∧ low ≤ 0xDFFF then
      return (Char.ofNat (0x10000 + (high - 0xD800) * 0x400 + (low - 0xDC00)), rest)
    else none
  else if 0xDC00 ≤ high ∧ high ≤ 0xDFFF then none
  else return (Char.ofNat high, rest)

def escaped? (c : Char) : Option Char :=
  if c = '"' ∨ c = '\\' ∨ c = '/' then some c
  else if c = 'n' then some '\n'
  else if c = 't' then some '\t'
  else if c = 'r' then some '\r'
  else if c = 'b' then some '\x08'
  else if c = 'f' then some '\x0c'
  else none

def readEscape : List Char → Option (Char × List Char)
  | 'u' :: rest => readCodePoint rest
  | c :: rest => (escaped? c).map fun e => (e, rest)
  | [] => none

/-- Reads the rest of a text whose opening quote is taken already; `done` is what was read of it,
the last character first. -/
def readTextRest : (fuel : Nat) → (done cs : List Char) → Option (String × List Char)
  | 0, _, _ => none
  | fuel + 1, done, cs =>
    match cs with
    | [] => none
    | c :: rest =>
      if c = '"' then some (String.ofList done.reverse, rest)
      else if c = '\\' then
        match readEscape rest with
        | none => none
        | some (c, rest) => readTextRest fuel (c :: done) rest
      else if c.toNat < 0x20 then none
      else readTextRest fuel (c :: done) rest

def readDigits (cs : List Char) : Option (List Char × List Char) :=
  let digits := cs.takeWhile Char.isDigit
  if digits.isEmpty then none else some (digits, cs.drop digits.length)

def readFraction : List Char → Option (List Char × List Char)
  | '.' :: rest => readDigits rest
  | cs => some ([], cs)

def readExponent (cs : List Char) : Option (Option Int × List Char) :=
  match cs with
  | c :: rest =>
    if c = 'e' ∨ c = 'E' then
      match rest with
      | '-' :: rest => (readDigits rest).map fun (ds, rest) => (some (-Text.digitsValue ds), rest)
      | '+' :: rest => (readDigits rest).map fun (ds, rest) => (some (Text.digitsValue ds), rest)
      | rest => (readDigits rest).map fun (ds, rest) => (some (Text.digitsValue ds), rest)
    else some (none, cs)
  | [] => some (none, [])

def readNumber (cs : List Char) : Option (Json × List Char) := do
  let negative := cs.head? == some '-'
  let (whole, rest) ← readDigits (if negative then cs.tail else cs)
  if whole.head? = some '0' ∧ 1 < whole.length then none
  else
    let (fraction, rest) ← readFraction rest
    let (exponent, rest) ← readExponent rest
    return (← numberOf? negative whole fraction exponent, rest)

/-- The fields with one more, in the place of any of its name. -/
def addField (name : String) (j : Json) (fields : List (String × Json)) : List (String × Json) :=
  (name, j) :: fields.filter fun field => field.1 ≠ name

def maxNesting : Nat := 127

mutual

/-- Reads a value with at most `levels` lists and objects inside each other. -/
def readValue : (fuel levels : Nat) → List Char → Option (Json × List Char)
  | 0, _, _ => none
  | fuel + 1, levels, cs =>
    match skipSpaces cs with
    | [] => none
    | '"' :: rest => (readTextRest (rest.length + 1) [] rest).map fun (s, rest) => (.text s, rest)
    | '[' :: rest =>
      match levels, skipSpaces rest with
      | 0, _ => none
      | _ + 1, ']' :: rest => some (.list [], rest)
      | levels + 1, rest =>
        (readItems fuel levels [] rest).map fun (items, rest) => (.list items, rest)
    | '\x7b' :: rest =>
      match levels, skipSpaces rest with
      | 0, _ => none
      | _ + 1, '\x7d' :: rest => some (.object [], rest)
      | levels + 1, rest =>
        (readFields fuel levels [] rest).map fun (fields, rest) => (.object fields, rest)
    | 't' :: rest => (expect ['r', 'u', 'e'] rest).map fun rest => (.bool true, rest)
    | 'f' :: rest => (expect ['a', 'l', 's', 'e'] rest).map fun rest => (.bool false, rest)
    | 'n' :: rest => (expect ['u', 'l', 'l'] rest).map fun rest => (.null, rest)
    | rest => readNumber rest

/-- Reads the rest of a list, from an item on; `done` are the items before, the last one first. -/
def readItems : (fuel levels : Nat) → (done : List Json) → List Char →
    Option (List Json × List Char)
  | 0, _, _, _ => none
  | fuel + 1, levels, done, cs =>
    match readValue fuel levels cs with
    | none => none
    | some (j, rest) =>
      match skipSpaces rest with
      | ',' :: rest => readItems fuel levels (j :: done) rest
      | ']' :: rest => some ((j :: done).reverse, rest)
      | _ => none

def readFields : (fuel levels : Nat) → (done : List (String × Json)) → List Char →
    Option (List (String × Json) × List Char)
  | 0, _, _, _ => none
  | fuel + 1, levels, done, cs =>
    match skipSpaces cs with
    | '"' :: rest =>
      match readTextRest (rest.length + 1) [] rest with
      | none => none
      | some (name, rest) =>
        match skipSpaces rest with
        | ':' :: rest =>
          match readValue fuel levels rest with
          | none => none
          | some (j, rest) =>
            match skipSpaces rest with
            | ',' :: rest => readFields fuel levels (addField name j done) rest
            | '\x7d' :: rest => some ((addField name j done).reverse, rest)
            | _ => none
        | _ => none
    | _ => none

end

def parse? (text : String) : Option Json :=
  let cs := text.toList
  match readValue (cs.length + 1) maxNesting cs with
  | some (j, rest) => if (skipSpaces rest).isEmpty then some j else none
  | none => none

end Observatory.Json
