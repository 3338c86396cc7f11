import Observatory.Text.Hex

/-!
# Texts, keys and layout of TOML

A reader takes a part off the front of a text and gives the rest. Control characters other than the
tab stand nowhere; line ends are a line feed, perhaps with a carriage return before it. A text may
be written in four ways: over one line or over several, and with escapes (between quotes) or as it
is (between apostrophes).
-/

namespace Observatory.Toml

def isSpace (c : Char) : Bool :=
  c == ' ' || c == '\t'

def skipSpaces (cs : List Char) : List Char :=
  cs.dropWhile isSpace

def isPlain (c : Char) : Bool :=
  c == '\t' || (0x20 ≤ c.toNat && c.toNat ≠ 0x7F)

def newline? : List Char → Option (List Char)
  | '\n' :: rest => some rest
  | '\r' :: '\n' :: rest => some rest
  | _ => none

def readLineEnd (cs : List Char) : Option (List Char) :=
  let cs := skipSpaces cs
  let cs := if cs.head? = some '#' then cs.dropWhile isPlain else cs
  if cs.isEmpty then some [] else newline? cs

/-- The text without spaces, line ends and comments in front. A comment needs a line end. -/
def skipLines (inComment : Bool) : List Char → Option (List Char)
  | [] => if inComment then none else some []
  | '\n' :: rest => skipLines false rest
  | '\r' :: '\n' :: rest => skipLines false rest
  | c :: rest =>
    if inComment then (if isPlain c then skipLines true rest else none)
    else if isSpace c then skipLines false rest
    else if c = '#' then skipLines true rest
    else some (c :: rest)

def skipBlank : List Char → List Char
  | '\n' :: rest => skipBlank rest
  | '\r' :: '\n' :: rest => skipBlank rest
  | c :: rest => if isSpace c then skipBlank rest else c :: rest
  | [] => []

/-- Reads a character that is written as its code point, with as many digits as told. -/
def readCodePoint (width : Nat) (cs : List Char) : Option (Char × List Char) := do
  let n ← Text.hexRun? (cs.take width)
  if width ≤ cs.length ∧ n.isValidChar then return (Char.ofNat n, cs.drop width) else none

def readEscape : List Char → Option (Char × List Char)
  | 'b' :: rest => some ('\x08', rest)
  | 't' :: rest => some ('\t', rest)
  | 'n' :: rest => some ('\n', rest)
  | 'f' :: rest => some ('\x0c', rest)
  | 'r' :: rest => some ('\r', rest)
  | '"' :: rest => some ('"', rest)
  | '\\' :: rest => some ('\\', rest)
  | 'u' :: rest => readCodePoint 4 rest
  | 'U' :: rest => readCodePoint 8 rest
  | _ => none

/-- Reads the rest of a text with escapes on one line, whose opening quote is taken already; `done`
is what was read of it, the last character first. -/
def readQuoted : (fuel : Nat) → (done cs : List Char) → Option (String × List Char)
  | 0, _, _ => none
  | _ + 1, _, [] => none
  | fuel + 1, done, c :: rest =>
    if c = '"' then some (String.ofList done.reverse, rest)
    else if c = '\\' then
      match readEscape rest with
      | none => none
      | some (c, rest) => readQuoted fuel (c :: done) rest
    else if isPlain c then readQuoted fuel (c :: done) rest
    else none

def readLiteral (cs : List Char) : Option (String × List Char) :=
  let text := cs.takeWhile fun c => isPlain c && c != '\x27'
  match cs.drop text.length with
  | '\x27' :: rest => some (String.ofList text, rest)
  | _ => none

/-- Reads the rest of a text over several lines, whose three opening marks are taken already. Three
marks in a row close it; up to two more in front of them belong to it. -/
def readLines (mark : Char) (escapes : Bool) :
    (fuel : Nat) → (done cs : List Char) → Option (String × List Char)
  | 0, _, _ => none
  | _ + 1, _, [] => none
  | fuel + 1, done, c :: rest =>
    if c = mark then
      let run := (c :: rest).takeWhile (· == mark)
      let rest := rest.drop (run.length - 1)
      if run.length < 3 then readLines mark escapes fuel (run ++ done) rest
      else if run.length < 6 then
        some (String.ofList (run.drop 3 ++ done).reverse, rest)
      else none
    else if c = '\\' ∧ escapes then
      match newline? (skipSpaces rest) with
      | some rest => readLines mark escapes fuel done (skipBlank rest)
      | none =>
        match readEscape rest with
        | none => none
        | some (c, rest) => readLines mark escapes fuel (c :: done) rest
    else if isPlain c then readLines mark escapes fuel (c :: done) rest
    else
      match newline? (c :: rest) with
      | some rest => readLines mark escapes fuel ('\n' :: done) rest
      | none => none

/-- Reads a text in any of its four ways. A line end directly behind three opening marks is
dropped. -/
def readText (cs : List Char) : Option (String × List Char) :=
  let lines mark escapes rest :=
    readLines mark escapes (cs.length + 1) [] ((newline? rest).getD rest)
  match cs with
  | '"' :: '"' :: '"' :: rest => lines '"' true rest
  | '"' :: rest => readQuoted (cs.length + 1) [] rest
  | '\x27' :: '\x27' :: '\x27' :: rest => lines '\x27' false rest
  | '\x27' :: rest => readLiteral rest
  | _ => none

def isBare (c : Char) : Bool :=
  c.isAlphanum || c == '_' || c == '-'

def readName (cs : List Char) : Option (String × List Char) :=
  match cs with
  | '"' :: rest => readQuoted (cs.length + 1) [] rest
  | '\x27' :: rest => readLiteral rest
  | _ =>
    let name := cs.takeWhile isBare
    if name.isEmpty then none else some (String.ofList name, cs.drop name.length)

/-- Reads a key of at most `limit` names with dots between them, as the way to its last name and
that name. -/
def readKey : (limit : Nat) → List Char → Option ((List String × String) × List Char)
  | 0, _ => none
  | limit + 1, cs => do
    let (name, rest) ← readName (skipSpaces cs)
    match skipSpaces rest with
    | '.' :: rest =>
      let ((path, last), rest) ← readKey limit rest
      return ((name :: path, last), rest)
    | rest => return (([], name), rest)

end Observatory.Toml
