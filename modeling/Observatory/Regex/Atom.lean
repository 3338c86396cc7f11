import Observatory.Text.Blank
import Observatory.Text.Hex

/-!
# Single parts of regular expressions

A single part stands for a character, for one of a class of characters, or for a place in the text
between them; most classes and places are written with a backslash. Where Unicode is switched off,
parts stand for bytes, and a part is refused that lets through bytes beyond ASCII. Where it is on, a
part is refused that would take tables of Unicode: shorthands, properties, and characters of either
case.
-/

namespace Observatory.Regex

structure Modes where
  /-- Parts stand for characters, not for bytes. -/
  unicode : Bool
  /-- Blanks between parts do not count, nor do comments from `#` to the end of the line. -/
  verbose : Bool
  ignoreCase : Bool
  deriving DecidableEq, Repr

inductive Atom where
  /-- A character, perhaps written as a byte of two hexadecimal digits. -/
  | literal (c : Char) (asByte : Bool)
  /-- A digit, a blank or a word character, or anything else. -/
  | shorthand (negated : Bool)
  | any
  | anchor
  /-- An end of a word, or no such place. -/
  | wordEdge
  deriving DecidableEq, Repr

def Atom.allowed (modes : Modes) : Atom → Bool
  | .literal c asByte =>
    if modes.unicode then !modes.ignoreCase else !asByte || c.toNat < 0x80
  | .shorthand negated => !modes.unicode && !negated
  | .any => modes.unicode
  | .anchor | .wordEdge => true

def Atom.allowedInSet (modes : Modes) : Atom → Bool
  | .literal c _ => if modes.unicode then !modes.ignoreCase else c.toNat < 0x80
  | .shorthand negated => !modes.unicode && !negated
  | .any | .anchor | .wordEdge => false

def skipNotes : (inComment : Bool) → List Char → List Char
  | _, [] => []
  | true, c :: rest => skipNotes (c ≠ '\n') rest
  | false, c :: rest =>
    if Text.isBlank c then skipNotes false rest
    else if c = '#' then skipNotes true rest
    else c :: rest

def Modes.skip (modes : Modes) (cs : List Char) : List Char :=
  if modes.verbose then skipNotes false cs else cs

/-- Reads a number of `count` hexadecimal digits; `value` is what was read of it. -/
def readHex (modes : Modes) : (count value : Nat) → List Char → Option (Nat × List Char)
  | 0, value, cs => some (value, cs)
  | count + 1, value, cs =>
    match modes.skip cs with
    | [] => none
    | c :: rest =>
      match Text.hexValue? c with
      | some digit => readHex modes count (value * 16 + digit) rest
      | none => none

def readCodePoint (modes : Modes) (count : Nat) (cs : List Char) : Option (Char × List Char) :=
  match readHex modes count 0 cs with
  | some (n, rest) => if n.isValidChar then some (Char.ofNat n, rest) else none
  | none => none

def control? (c : Char) : Option Char :=
  if c = 'a' then some '\x07'
  else if c = 'f' then some '\x0c'
  else if c = 'n' then some '\n'
  else if c = 'r' then some '\r'
  else if c = 't' then some '\t'
  else if c = 'v' then some '\x0b'
  else none

/-- Whether a character stands for itself after a backslash: one of ASCII that is no letter, no
digit and no angle bracket. -/
def standsForItself (c : Char) : Bool :=
  c.toNat < 0x80 && !c.isAlphanum && c != '<' && c != '>'

def readEscape (modes : Modes) : List Char → Option (Atom × List Char)
  | [] => none
  | c :: rest =>
    if c = 'x' then
      (readCodePoint modes 2 rest).map fun (c, rest) => (.literal c true, rest)
    else if c = 'u' then
      (readCodePoint modes 4 rest).map fun (c, rest) => (.literal c false, rest)
    else if c = 'U' then
      (readCodePoint modes 8 rest).map fun (c, rest) => (.literal c false, rest)
    else if ['d', 's', 'w', 'D', 'S', 'W'].contains c then some (.shorthand c.isUpper, rest)
    else if c = 'A' ∨ c = 'z' then some (.anchor, rest)
    else if c = 'b' ∨ c = 'B' ∨ c = '<' ∨ c = '>' then some (.wordEdge, rest)
    else if standsForItself c then some (.literal c false, rest)
    else (control? c).map fun control => (.literal control false, rest)

end Observatory.Regex
