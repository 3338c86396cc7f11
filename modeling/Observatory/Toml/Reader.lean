import Observatory.Toml.Scalar

/-!
# Reading TOML

A document is read line by line: a line is empty, an entry or a heading, and a comment may end it.
Keys, lists and tables between braces are less than eighty deep. The main function is `parse?`,
which gives the table that a document means.
-/

namespace Observatory.Toml

/-- The greatest number of names in a key, and of lists and tables between braces around a
value. -/
def depthLimit : Nat := 79

def readEntry (readValue : List Char → Option (Node × List Char)) (cs : List Char) :
    Option (Entry × List Char) := do
  let ((path, name), rest) ← readKey depthLimit cs
  let (value, rest) ← readValue (skipSpaces (← readMark '=' rest))
  return (⟨path, name, value⟩, rest)

/-- Reads the rest of a list, the opening bracket taken already. A comma may follow the last
item. -/
def readItems (readValue : List Char → Option (Node × List Char)) :
    (fuel : Nat) → (done : List Node) → List Char → Option (List Node × List Char)
  | 0, _, _ => none
  | fuel + 1, done, cs => do
    let cs ← skipLines false cs
    if cs.head? = some ']' then some (done.reverse, cs.tail)
    else
      let (item, cs) ← readValue cs
      match ← skipLines false cs with
      | ',' :: rest => readItems readValue fuel (item :: done) rest
      | ']' :: rest => some ((item :: done).reverse, rest)
      | _ => none

/-- Reads the rest of a table between braces, from an entry on. No comma follows the last entry. -/
def readFields (readValue : List Char → Option (Node × List Char)) :
    (fuel : Nat) → (done : List Entry) → List Char → Option (List Entry × List Char)
  | 0, _, _ => none
  | fuel + 1, done, cs => do
    let (entry, cs) ← readEntry readValue cs
    match skipSpaces cs with
    | ',' :: rest => readFields readValue fuel (entry :: done) rest
    | '\x7d' :: rest => some ((entry :: done).reverse, rest)
    | _ => none

/-- Reads a value with at most `depth` lists and tables around its innermost part. -/
def readValue : (depth : Nat) → List Char → Option (Node × List Char)
  | 0, cs => readScalar cs
  | depth + 1, cs =>
    match cs with
    | '[' :: rest => do
      let (items, rest) ← readItems (readValue depth) cs.length [] rest
      return (.list items, rest)
    | '\x7b' :: rest => do
      let (entries, rest) ← match skipSpaces rest with
        | '\x7d' :: rest => some ([], rest)
        | rest => readFields (readValue depth) cs.length [] rest
      return (.table .braces (← Fields.addAll entries .empty), rest)
    | _ => readScalar cs

def readHeading (cs : List Char) : Option (Heading × List Char) :=
  match cs with
  | '[' :: '[' :: rest => do
    let ((path, name), rest) ← readKey depthLimit rest
    return (⟨path, name, true⟩, ← readMark ']' (← readMark ']' rest))
  | '[' :: rest => do
    let ((path, name), rest) ← readKey depthLimit rest
    return (⟨path, name, false⟩, ← readMark ']' rest)
  | _ => none

def readDocument : (fuel : Nat) → List Char → Option Document
  | 0, _ => none
  | fuel + 1, cs =>
    match skipSpaces cs with
    | [] => some ⟨[], []⟩
    | '[' :: rest => do
      let (heading, rest) ← readHeading ('[' :: rest)
      let document ← readDocument fuel (← readLineEnd rest)
      return ⟨[], ⟨heading, document.entries⟩ :: document.sections⟩
    | c :: rest =>
      if c = '#' ∨ c = '\n' ∨ c = '\r' then do
        readDocument fuel (← readLineEnd (c :: rest))
      else do
        let (entry, rest) ← readEntry (readValue depthLimit) (c :: rest)
        let document ← readDocument fuel (← readLineEnd rest)
        return { document with entries := entry :: document.entries }

/-- The table that a text means, if it is TOML. A byte order mark in front is skipped. -/
def parse? (text : String) : Option Fields :=
  let cs := match text.toList with
    | '\ufeff' :: rest => rest
    | cs => cs
  (readDocument (cs.length + 1) cs).bind Document.fields?

end Observatory.Toml
