import Observatory.Regex.Set
import Observatory.Text.Wordlike

/-!
# Reading regular expressions

Which texts are regular expressions that can be worked off character by character. Alternatives
stand between bars, groups between parentheses; a group can have a name, and can switch modes for
itself or for what is left of the group around it. Parts stand inside each other to a bounded depth.
The ends of words are not found by single characters where all of Unicode is let in. Counts of
repetitions and other things in braces are left out.
-/

namespace Observatory.Regex

inductive Verdict where
  | valid
  | asksForWordEdges
  | malformed
  deriving DecidableEq, Repr

def maxDepth : Nat := 250

structure Part where
  depth : Nat
  repeatable : Bool
  deriving DecidableEq, Repr

structure Progress where
  rest : List Char
  modes : Modes
  names : List (List Char)
  /-- Whether an end of a word was asked for where Unicode is on. -/
  wordEdges : Bool
  deriving DecidableEq, Repr

def modeLetters : List Char := ['i', 'm', 's', 'U', 'u', 'R', 'x']

/-- Reads letters that switch modes on and, behind a hyphen, off. -/
def switchModes (modes : Modes) (letters : List Char) : Option Modes :=
  let on := letters.takeWhile (· ≠ '-')
  let off := letters.drop on.length
  let after (letter : Char) (before : Bool) : Bool :=
    on.contains letter || before && !off.contains letter
  if (letters.all fun c => c = '-' || modeLetters.contains c) ∧ letters.Nodup ∧
      letters.getLast? ≠ some '-' then
    some ⟨after 'u' modes.unicode, after 'x' modes.verbose, after 'i' modes.ignoreCase⟩
  else none

def readName (cs : List Char) : Option (List Char × List Char) :=
  let name := cs.takeWhile (· ≠ '>')
  let mayFollow (c : Char) : Bool := ['_', '.', '[', ']'].contains c || Text.isWordlike c
  match name, cs.drop name.length with
  | first :: others, _ :: rest =>
    if (first = '_' ∨ Text.isLetter first) ∧ others.all mayFollow then some (name, rest) else none
  | _, _ => none

inductive Opening where
  | group
  /-- Nothing: modes are switched for the rest of the group around it. -/
  | switch
  deriving DecidableEq, Repr

def openNamed (p : Progress) (cs : List Char) : Option (Opening × Progress) :=
  match readName cs with
  | some (name, rest) =>
    if p.names.contains name then none
    else some (.group, { p with rest, names := name :: p.names })
  | none => none

/-- Reads the opening of a group that begins with a question mark: one with a name, or one that
switches modes. Looking ahead and behind is left out. -/
def openSpecial (p : Progress) (cs : List Char) : Option (Opening × Progress) :=
  match cs with
  | 'P' :: '<' :: rest => openNamed p rest
  | '<' :: rest => openNamed p rest
  | _ =>
    let letters := cs.takeWhile fun c => c ≠ ':' && c ≠ ')'
    match switchModes p.modes letters, cs.drop letters.length with
    | some modes, ':' :: rest => some (.group, { p with rest, modes })
    | some modes, ')' :: rest =>
      if letters.isEmpty then none else some (.switch, { p with rest, modes })
    | _, _ => none

def openGroup (p : Progress) : Option (Opening × Progress) :=
  match p.modes.skip p.rest with
  | '?' :: rest => openSpecial p rest
  | rest => some (.group, { p with rest })

def readAtom (modes : Modes) : List Char → Option (Atom × List Char)
  | [] => none
  | c :: rest =>
    if c = '\\' then readEscape modes rest
    else if c = '.' then some (.any, rest)
    else if c = '^' ∨ c = '$' then some (.anchor, rest)
    else some (.literal c false, rest)

/-- Reads alternatives up to a closing parenthesis or the end of the text. `parts` are the parts of
the alternative at hand, the last one first, `branches` the depths of those before it. Gives how
deep parts stand inside each other. -/
def readAlternatives : (fuel : Nat) → (parts : List Part) → (branches : List Nat) → Progress →
    Option (Nat × Progress)
  | 0, _, _, _ => none
  | fuel + 1, parts, branches, p =>
    let branch := jointDepth (parts.map Part.depth)
    match p.modes.skip p.rest with
    | [] => some (jointDepth (branch :: branches), { p with rest := [] })
    | c :: rest =>
      if c = ')' then some (jointDepth (branch :: branches), { p with rest := c :: rest })
      else if c = '|' then readAlternatives fuel [] (branch :: branches) { p with rest }
      else if c = '(' then
        match openGroup { p with rest } with
        | none => none
        | some (.switch, p) => readAlternatives fuel (⟨0, false⟩ :: parts) branches p
        | some (.group, inner) =>
          match readAlternatives fuel [] [] inner with
          | some (depth, after) =>
            match after.rest with
            | ')' :: rest =>
              -- The modes that were switched inside end with the group.
              readAlternatives fuel (⟨depth + 1, true⟩ :: parts) branches
                { after with rest, modes := p.modes }
            | _ => none
          | none => none
      else if c = '[' then
        match openSet p.modes rest with
        | none => none
        | some rest =>
          match readSet p.modes (rest.length + 1) true [] none rest with
          | some (depth, rest) =>
            readAlternatives fuel (⟨depth, true⟩ :: parts) branches { p with rest }
          | none => none
      else if c = '*' ∨ c = '+' ∨ c = '?' then
        match parts with
        | part :: parts =>
          if part.repeatable then
            -- A question mark behind a repetition belongs to it.
            let rest := if rest.head? = some '?' then rest.tail else rest
            readAlternatives fuel (⟨part.depth + 1, true⟩ :: parts) branches { p with rest }
          else none
        | [] => none
      else if c = '\x7b' then none
      else
        match readAtom p.modes (c :: rest) with
        | none => none
        | some (atom, rest) =>
          if atom.allowed p.modes then
            let wordEdges := p.wordEdges || atom == .wordEdge && p.modes.unicode
            readAlternatives fuel (⟨0, true⟩ :: parts) branches { p with rest, wordEdges }
          else none

def check (text : List Char) : Verdict :=
  match readAlternatives (text.length + 1) [] [] ⟨text, ⟨true, false, false⟩, [], false⟩ with
  | some (depth, p) =>
    if ¬ p.rest.isEmpty ∨ maxDepth < depth then .malformed
    else if p.wordEdges then .asksForWordEdges
    else .valid
  | none => .malformed

end Observatory.Regex
