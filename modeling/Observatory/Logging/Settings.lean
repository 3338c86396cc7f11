import Observatory.Settings.Environment
import Observatory.Text.Ascii
import Observatory.Text.Blank

/-!
# Settings of the log

What a process logs, how and under which name. The settings are read from variables, and no value is
refused: a flag that is neither on nor off counts as its usual value outside containers.
-/

namespace Observatory

structure LogSettings where
  serviceName : String
  level : String
  console : Bool
  json : Bool
  deriving DecidableEq, Repr

namespace LogSettings

def default : LogSettings := ⟨"event-bus", "info", true, false⟩

/-- Reads a flag: one of four words for on and four for off, in any case and with blanks around. -/
def flag? (text : String) : Option Bool :=
  let word := Text.lowerAscii (String.ofList (Text.trim text.toList))
  if ["1", "true", "yes", "on"].contains word then some true
  else if ["0", "false", "no", "off"].contains word then some false
  else none

/-- Whether the process runs in a container, by the variables that containers set. -/
def inContainer (env : Environment) : Bool :=
  (env.text? "KUBERNETES_SERVICE_HOST").isSome || (env.text? "DOCKER_CONTAINER").isSome

def ofEnvironment (env : Environment) : LogSettings where
  serviceName := (env.text? "EBUS_SERVICE_NAME").getD default.serviceName
  level := ((env.text? "EBUS_LOG_LEVEL").or (env.text? "RUST_LOG")).getD default.level
  console := ((env.text? "EBUS_CONSOLE_OUTPUT").map fun text => (flag? text).getD true).getD true
  json :=
    ((env.text? "EBUS_JSON_LOGS").map fun text => (flag? text).getD false).getD (inContainer env)

def forComponent (component : String) (env : Environment) : LogSettings :=
  let s := ofEnvironment env
  { s with serviceName := s!"{s.serviceName}-{component}" }

end LogSettings

end Observatory
