import Observatory.Logging.Filter
import Observatory.Logging.Settings

/-!
# The log of a process

A process installs its log once; before that, records are lost. Installing it again is refused, and
so is a filter that cannot be read, which is found out first. The variable `RUST_LOG`, where it
holds a filter, wins over the settings.
-/

namespace Observatory.Logging

inductive Line where
  /-- A line for people. What it holds is known where it is a piece of a field. -/
  | text (piece : Option String)
  | record (level : Level) (fields : List (String × FieldValue))
  deriving DecidableEq, Repr

inductive Layout where
  | silent
  | text
  | json
  deriving DecidableEq, Repr

inductive LogError where
  /-- A filter cannot be read: that of the settings, or one at which reading breaks off. -/
  | badFilter (text : String) (fault : FilterError)
  | alreadyInstalled
  deriving DecidableEq, Repr

def LogError.message : LogError → String
  | .badFilter text fault => s!"Invalid configuration: log level '{text}': {fault.message}"
  | .alreadyInstalled =>
    "Tracing already initialized: a global default trace dispatcher has already been set"

structure Journal where
  installed : Option (Filter × Layout)
  /-- What is written, the last line first. -/
  written : List Line
  deriving DecidableEq, Repr

namespace Journal

def empty : Journal := ⟨none, []⟩

def lines (journal : Journal) : List Line :=
  journal.written.reverse

def layOut (record : Record) : Layout → List Line
  | .silent => []
  | .text => (record.lines.map Line.text).reverse
  | .json => [.record record.level record.fields]

def log (record : Record) (journal : Journal) : Journal :=
  match journal.installed with
  | some (filter, layout) =>
    if filter.passes record then
      { journal with written := layOut record layout ++ journal.written }
    else journal
  | none => journal

def filterOf? (env : Environment) : Except LogError (Option Filter) :=
  match env.text? "RUST_LOG" with
  | none => .ok none
  | some text =>
    match Filter.parse text with
    | .ok filter => .ok (some filter)
    | .error .brokenCharacter => .error (.badFilter text .brokenCharacter)
    | .error _ => .ok none

def layoutOf (s : LogSettings) : Layout :=
  if !s.console then .silent else if s.json then .json else .text

def opening (target : String) (s : LogSettings) : Record :=
  ⟨.info, target,
    [("message", .shown "Tracing initialized"), ("service", .shown s.serviceName),
     ("json", .bool s.json)]⟩

def filterFor (s : LogSettings) (env : Environment) : Except LogError Filter := do
  match ← filterOf? env with
  | some filter => return filter
  | none => (Filter.parse s.level).mapError (.badFilter s.level)

/-- Installs a log with the given settings, which logs that it is installed at `target`. -/
def install (target : String) (s : LogSettings) (env : Environment) (journal : Journal) :
    Except LogError Journal := do
  -- The filter is read first: a bad one is reported even where a log is installed.
  let filter ← filterFor s env
  match journal.installed with
  | some _ => .error .alreadyInstalled
  | none => return log (opening target s) { journal with installed := some (filter, layoutOf s) }

/-- The filter of a log for tests, unless the variable for it holds one. -/
def testFilter : Filter := ⟨[⟨.upTo .warn, none, none, []⟩]⟩

def installForTests (env : Environment) (journal : Journal) : Except LogError Journal := do
  let filter := (← filterOf? env).getD testFilter
  match journal.installed with
  | some _ => return journal
  | none => return { journal with installed := some (filter, .text) }

end Journal

end Observatory.Logging
