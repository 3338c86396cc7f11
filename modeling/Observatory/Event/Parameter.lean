import Observatory.Double

/-!
# Parameters

The typed payload of an event: named lists of values, in order. A set keeps its parameters in the
order in which their names were first inserted; inserting a name again replaces the parameter in
its place. A set that arrives from elsewhere may repeat a name, and every operation then works on
the first parameter of that name.
-/

namespace Observatory

inductive Value where
  | bool (b : Bool)
  | int (n : Int64)
  | double (d : Double)
  | text (s : String)
  deriving DecidableEq, Repr, Inhabited

/-- Whether two values are of one type and equal, doubles compared as numbers. -/
def Value.agrees : Value → Value → Bool
  | .bool a, .bool b => a == b
  | .int a, .int b => a == b
  | .double a, .double b => a.agrees b
  | .text a, .text b => a == b
  | _, _ => false

def Value.listAgrees : List Value → List Value → Bool
  | [], [] => true
  | a :: as, b :: bs => a.agrees b && listAgrees as bs
  | _, _ => false

structure Parameter where
  name : String
  values : List Value
  deriving DecidableEq, Repr, Inhabited

def Parameter.agrees (a b : Parameter) : Bool :=
  a.name == b.name && Value.listAgrees a.values b.values

structure ParameterSet where
  toList : List Parameter
  deriving DecidableEq, Repr, Inhabited

namespace ParameterSet

def empty : ParameterSet := ⟨[]⟩

def size (s : ParameterSet) : Nat :=
  s.toList.length

def isEmpty (s : ParameterSet) : Bool :=
  s.toList.isEmpty

def names (s : ParameterSet) : List String :=
  s.toList.map Parameter.name

def get? (s : ParameterSet) (name : String) : Option Parameter :=
  s.toList.find? fun p => p.name == name

def contains (s : ParameterSet) (name : String) : Bool :=
  (s.get? name).isSome

/-- Puts `p` in the place of the first parameter of its name, or at the end. -/
def insertInto (p : Parameter) : List Parameter → List Parameter
  | [] => [p]
  | q :: rest => if q.name = p.name then p :: rest else q :: insertInto p rest

/-- Adds a parameter, in the place of one of the same name if there is one. -/
def insert (s : ParameterSet) (p : Parameter) : ParameterSet :=
  ⟨insertInto p s.toList⟩

def erase (s : ParameterSet) (name : String) : ParameterSet :=
  ⟨s.toList.eraseP fun p => p.name == name⟩

def remove (s : ParameterSet) (name : String) : Option Parameter × ParameterSet :=
  (s.get? name, s.erase name)

def listAgrees : List Parameter → List Parameter → Bool
  | [], [] => true
  | a :: as, b :: bs => a.agrees b && listAgrees as bs
  | _, _ => false

/-- Whether two sets hold parameters that agree, in one order. -/
def agrees (a b : ParameterSet) : Bool :=
  listAgrees a.toList b.toList

end ParameterSet

end Observatory
