import Observatory.Double

/-!
# JSON values

JSON as data: integers that fit 64 bits are kept exact, other numbers are doubles. A record is
read from an object by the names of its fields, or from a list by their places; a tag without
content is a text, or an object whose one field is null.
-/

namespace Observatory

inductive Json where
  | null
  | bool (b : Bool)
  | int (n : Int)
  | double (d : Double)
  | text (s : String)
  | list (items : List Json)
  | object (fields : List (String × Json))
  deriving Repr, Inhabited

namespace Json

def asText? : Json → Option String
  | .text s => some s
  | _ => none

def asBool? : Json → Option Bool
  | .bool b => some b
  | _ => none

def asInt64? : Json → Option Int64
  | .int n =>
    if -0x8000000000000000 ≤ n ∧ n < 0x8000000000000000 then some (Int64.ofInt n) else none
  | _ => none

def asDouble? : Json → Option Double
  | .int n => some (.ofInt n)
  | .double d => some d
  | _ => none

def asList? : Json → Option (List Json)
  | .list items => some items
  | _ => none

/-- The field of a name, unless the value has none or it is null. -/
def field? (j : Json) (name : String) : Option Json :=
  match j with
  | .object fields =>
    match fields.lookup name with
    | some .null => none
    | found => found
  | _ => none

def field (j : Json) (name : String) : Json :=
  (j.field? name).getD .null

/-- The tag without content that the value spells. -/
def asTag? : Json → Option String
  | .text s => some s
  | .object [(name, .null)] => some name
  | _ => none

def fields? (names : List String) : Json → Option (List Json)
  | .object fields => names.mapM fun name => fields.lookup name
  | .list items => if items.length = names.length then some items else none
  | _ => none

/-- A finite double, or null in the place of any other. -/
def ofDouble (d : Double) : Json :=
  if d.isFinite then .double d else .null

end Json

end Observatory
