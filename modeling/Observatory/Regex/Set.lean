import Observatory.Regex.Atom

/-!
# Sets in regular expressions

A set stands between brackets. Its members are characters, ranges of them, classes and further sets,
and sets can be cut with each other, subtracted and compared by `&&`, `--` and `~~`. A hyphen stands
for itself in front and at the end, a closing bracket in front.
-/

namespace Observatory.Regex

/-- How deep parts stand inside each other that stand side by side: a part that stands alone is not
inside anything. -/
def jointDepth : List Nat → Nat
  | [] => 0
  | [depth] => depth
  | depths => depths.foldl max 0 + 1

def classNames : List String :=
  ["alnum", "alpha", "ascii", "blank", "cntrl", "digit", "graph", "lower", "print", "punct",
   "space", "upper", "word", "xdigit"]

def readNamedClass : List Char → Option (Bool × List Char)
  | ':' :: rest =>
    let negated := rest.head? == some '^'
    let rest := if negated then rest.tail else rest
    let name := rest.takeWhile (· ≠ ':')
    match rest.drop name.length with
    | ':' :: ']' :: rest =>
      if classNames.contains (String.ofList name) then some (negated, rest) else none
    | _ => none
  | _ => none

def namedClassAllowed (modes : Modes) (negated : Bool) : Bool :=
  if modes.unicode then !modes.ignoreCase else !negated

def readMember (modes : Modes) : List Char → Option (Atom × List Char)
  | [] => none
  | '\\' :: rest => readEscape modes rest
  | c :: rest => some (.literal c false, rest)

/-- The next character behind a hyphen that counts. A comment is looked into, behind its `#`. -/
def Modes.peek (modes : Modes) (cs : List Char) : Option Char :=
  if modes.verbose then
    match cs.filter fun c => !Text.isBlank c with
    | '#' :: rest => rest.head?
    | rest => rest.head?
  else cs.head?

def readRange (modes : Modes) (cs : List Char) : Option (List Char) :=
  match readMember modes cs with
  | none => none
  | some (first, rest) =>
    let alone (rest : List Char) : Option (List Char) :=
      if first.allowedInSet modes then some rest else none
    match modes.skip rest with
    | '-' :: behind =>
      let next := modes.peek behind
      if next = some ']' ∨ next = some '-' then alone ('-' :: behind)
      else
        match first, readMember modes (modes.skip behind) with
        | .literal low _, some (.literal high asByte, rest) =>
          if low ≤ high ∧ (Atom.literal high asByte).allowedInSet modes then some rest
          else none
        | _, _ => none
    | rest => alone rest

/-- Reads the bracket that opens a set and the mark of its negation. Without Unicode a negated set
would hold bytes beyond ASCII. -/
def openSet (modes : Modes) (cs : List Char) : Option (List Char) :=
  match modes.skip cs with
  | '^' :: rest => if modes.unicode then some rest else none
  | rest => some rest

/-- Reads a set from behind its opening. While `opening`, only hyphens were read; `members` are the
depths of the members since the last operator, and `left` is the depth of what stands before that.
Gives the depth of the set. -/
def readSet (modes : Modes) : (fuel : Nat) → (opening : Bool) → (members : List Nat) →
    (left : Option Nat) → List Char → Option (Nat × List Char)
  | 0, _, _, _, _ => none
  | fuel + 1, opening, members, left, cs =>
    let depth := match left with
      | none => jointDepth members
      | some left => max left (jointDepth members) + 1
    match modes.skip cs with
    | [] => none
    | c :: rest =>
      if opening ∧ c = '-' then readSet modes fuel true (0 :: members) left rest
      else if opening ∧ c = ']' ∧ members.isEmpty then readSet modes fuel false [0] left rest
      else if c = ']' then some (depth + 1, rest)
      else if c = '[' then
        match readNamedClass rest with
        | some (negated, rest) =>
          if namedClassAllowed modes negated then
            readSet modes fuel false (0 :: members) left rest
          else none
        | none =>
          match openSet modes rest with
          | none => none
          | some rest =>
            match readSet modes fuel true [] none rest with
            | some (inner, rest) => readSet modes fuel false (inner :: members) left rest
            | none => none
      else if ['&', '-', '~'].contains c ∧ rest.head? = some c then
        readSet modes fuel false [] (some depth) rest.tail
      else
        match readRange modes (c :: rest) with
        | some rest => readSet modes fuel false (0 :: members) left rest
        | none => none

end Observatory.Regex
