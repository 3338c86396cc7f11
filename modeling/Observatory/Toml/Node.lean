import Observatory.Double
import Observatory.Table
import Observatory.Time.Rfc3339.Reader

/-!
# TOML documents

A document is made of entries and of sections with a heading each; what it means is a table of
nodes. A key or a heading names the way to its table. On that way tables come into being where none
is, and a table remembers how it came about, because that decides who may still add to it:

* an entry adds only to tables that dotted keys have made, and it passes on the way through those
  that were named on the way of headings;
* a heading passes through every table that is not written between braces, and it opens a table
  that so far was only named on the way of others, once.
-/

namespace Observatory.Toml

inductive Origin where
  | heading
  /-- It was named on the way of a heading. -/
  | implied
  /-- It was named on the way of a dotted key. -/
  | dotted
  | braces
  deriving DecidableEq, Repr

structure Moment where
  date : Option Time.Date
  clock : Option Time.Clock
  /-- The offset from UTC, in minutes. -/
  offset : Option Int
  deriving DecidableEq, Repr

inductive Node where
  | text (s : String)
  | int (n : Int)
  | float (d : Double)
  | bool (b : Bool)
  | time (moment : Moment)
  | list (items : List Node)
  | table (origin : Origin) (fields : Table String Node)
  /-- Tables under headings of one name, the last one still open. -/
  | tables (rows : List (Table String Node))

abbrev Fields := Table String Node

structure Entry where
  path : List String
  name : String
  value : Node

structure Heading where
  path : List String
  name : String
  /-- Whether the section's table is one row of several. -/
  repeated : Bool
  deriving DecidableEq, Repr

structure Section where
  heading : Heading
  entries : List Entry

structure Document where
  entries : List Entry
  sections : List Section

namespace Fields

def add (name : String) (value : Node) : List String → Fields → Option Fields
  | [], fields => if fields.contains name then none else some (fields.insert name value)
  | step :: path, fields =>
    match fields.get? step with
    | none => do return fields.insert step (.table .dotted (← add name value path .empty))
    | some (.table origin inner) =>
      if origin = .dotted ∨ (origin = .implied ∧ path ≠ []) then do
        return fields.insert step (.table origin (← add name value path inner))
      else none
    | some (.tables rows) =>
      -- A dotted key passes through the row that is still open, and never replaces a row.
      match path, rows.getLast? with
      | _ :: _, some row => do
        return fields.insert step (.tables (rows.dropLast ++ [← add name value path row]))
      | _, _ => none
    | some _ => none

def addAll (entries : List Entry) (fields : Fields) : Option Fields :=
  entries.foldlM (fun fields entry => fields.add entry.name entry.value entry.path) fields

def reach (change : Fields → Option Fields) : List String → Fields → Option Fields
  | [], fields => change fields
  | step :: path, fields =>
    match fields.get? step with
    | none => do return fields.insert step (.table .implied (← reach change path .empty))
    | some (.table origin inner) =>
      if origin = .braces then none
      else do return fields.insert step (.table origin (← reach change path inner))
    | some (.tables rows) =>
      match rows.getLast? with
      | some row => do
        return fields.insert step (.tables (rows.dropLast ++ [← reach change path row]))
      | none => none
    | some _ => none

def addSection (part : Section) (parent : Fields) : Option Fields :=
  let name := part.heading.name
  if part.heading.repeated then
    match parent.get? name with
    | none => do return parent.insert name (.tables [← addAll part.entries .empty])
    | some (.tables rows) => do
      return parent.insert name (.tables (rows ++ [← addAll part.entries .empty]))
    | some _ => none
  else
    match parent.get? name with
    | none => do return parent.insert name (.table .heading (← addAll part.entries .empty))
    | some (.table .implied inner) => do
      return parent.insert name (.table .heading (← addAll part.entries inner))
    | some _ => none

end Fields

/-- What a document means, unless it defines something twice. -/
def Document.fields? (document : Document) : Option Fields := do
  let fields ← Fields.addAll document.entries .empty
  document.sections.foldlM
    (fun fields part => Fields.reach (Fields.addSection part) part.heading.path fields) fields

end Observatory.Toml
