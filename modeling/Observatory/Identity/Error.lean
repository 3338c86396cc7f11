/-!
# Faults in names

The ways in which a text fails to name a subsystem, a component, an event or a key.
-/

namespace Observatory

inductive ComponentFault where
  | empty
  /-- It begins or ends with a blank character. -/
  | padded
  /-- It holds the separator of keys. -/
  | separator
  deriving DecidableEq, Repr

def ComponentFault.message : ComponentFault → String
  | .empty => "must not be empty"
  | .padded => "must not have leading or trailing whitespace"
  | .separator => "must not contain '.'"

inductive Form where
  /-- A subsystem and a component. -/
  | source
  /-- A subsystem, a component and an event name. -/
  | key
  deriving DecidableEq, Repr

def Form.noun : Form → String
  | .source => "prefix"
  | .key => "event key"

def Form.template : Form → String
  | .source => "SUBSYSTEM.component"
  | .key => "SUBSYSTEM.component.eventName"

inductive NameError where
  | unknownSubsystem (name : String)
  | invalidComponent (name : String) (fault : ComponentFault)
  | emptyEventName
  | malformed (form : Form) (text : String)
  deriving DecidableEq, Repr

def NameError.message : NameError → String
  | .unknownSubsystem name => s!"Unknown subsystem: {name}"
  | .invalidComponent name fault => s!"Invalid component name '{name}': {fault.message}"
  | .emptyEventName => "Event name must not be empty"
  | .malformed form text => s!"Malformed {form.noun} '{text}': expected {form.template}"

end Observatory
