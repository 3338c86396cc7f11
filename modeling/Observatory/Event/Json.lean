import Observatory.Event.Basic
import Observatory.Json
import Observatory.Time.Rfc3339.Printer
import Observatory.Time.Rfc3339.Reader

/-!
# Events and keys in JSON

Subsystems, kinds and types of value are tags, times are texts, and all else is a record or a list.
Reading takes records with further fields, and checks nothing of names beyond their being texts.
-/

namespace Observatory

def Source.toJson (s : Source) : Json :=
  .object [("subsystem", .text s.subsystem.tag), ("component_name", .text s.component)]

def EventKey.toJson (k : EventKey) : Json :=
  .object [("source", k.source.toJson), ("event_name", .text k.name.text)]

def Source.ofJson? (j : Json) : Option Source := do
  let [subsystem, component] ← j.fields? ["subsystem", "component_name"] | none
  return ⟨← Subsystem.ofTag? (← subsystem.asTag?), ← component.asText?⟩

def EventKind.tag : EventKind → String
  | .system => "System"
  | .observe => "Observe"

def EventKind.ofTag? (tag : String) : Option EventKind :=
  if tag = "System" then some .system
  else if tag = "Observe" then some .observe
  else none

/-- A value under the tag of its type. -/
def Value.toJson : Value → Json
  | .bool b => .object [("Bool", .bool b)]
  | .int n => .object [("Int", .int n.toInt)]
  | .double d => .object [("Double", .ofDouble d)]
  | .text s => .object [("Text", .text s)]

def Value.ofJson? : Json → Option Value
  | .object [(tag, content)] =>
    if tag = "Bool" then content.asBool?.map .bool
    else if tag = "Int" then content.asInt64?.map .int
    else if tag = "Double" then content.asDouble?.map .double
    else if tag = "Text" then content.asText?.map .text
    else none
  | _ => none

def Parameter.toJson (p : Parameter) : Json :=
  .object [("key_name", .text p.name), ("values", .list (p.values.map Value.toJson))]

def Parameter.ofJson? (j : Json) : Option Parameter := do
  let [name, values] ← j.fields? ["key_name", "values"] | none
  return ⟨← name.asText?, ← (← values.asList?).mapM Value.ofJson?⟩

def ParameterSet.toJson (s : ParameterSet) : Json :=
  .object [("params", .list (s.toList.map Parameter.toJson))]

def ParameterSet.ofJson? (j : Json) : Option ParameterSet := do
  let [params] ← j.fields? ["params"] | none
  return ⟨← (← params.asList?).mapM Parameter.ofJson?⟩

def UtcTime.ofJson? (j : Json) : Option UtcTime := do
  (UtcTime.parse (← j.asText?)).toOption

namespace Event

def toJson (e : Event) : Json :=
  .object
    [("kind", .text e.kind.tag), ("event_id", .text e.id.text), ("source", e.source.toJson),
     ("event_name", .text e.name.text), ("event_time", .text e.time.text),
     ("params", e.params.toJson)]

def ofJson? (j : Json) : Option Event := do
  let [kind, id, source, name, time, params] ←
    j.fields? ["kind", "event_id", "source", "event_name", "event_time", "params"] | none
  return {
    kind := ← EventKind.ofTag? (← kind.asTag?)
    id := ⟨← id.asText?⟩
    source := ← Source.ofJson? source
    name := ⟨← name.asText?⟩
    time := ← UtcTime.ofJson? time
    params := ← ParameterSet.ofJson? params }

end Event

end Observatory
