import Observatory.Bus.Hub

/-!
# Targets

What a subscription listens to: some keys, or the keys that a pattern accepts. Subscriptions to
keys begin with the latest event of every key; subscriptions by pattern do not.
-/

namespace Observatory

inductive Target where
  | keys (keys : List EventKey)
  /-- The keys that a pattern accepts, and of them perhaps only the events on observations. -/
  | pattern (pattern : KeyPattern) (observeOnly : Bool)

namespace Target

def text : Target → String
  | .keys ks => "keys[" ++ ",".intercalate (ks.map EventKey.canonical) ++ "]"
  | .pattern p _ => s!"pattern[{p.text}]"

def register (t : Target) (id : ReaderId) (backend : Backend) : Except TransportError Backend :=
  match t with
  | .keys ks => backend.subscribe id ks
  | .pattern p _ => backend.patternSubscribe id p

/-- The entries that a subscription begins with. -/
def seeds (t : Target) (store : Store) : List Stamped :=
  match t with
  | .keys ks => store.snapshot ks
  | .pattern .. => []

def admits (t : Target) (e : Event) : Bool :=
  match t with
  | .keys _ => true
  | .pattern _ observeOnly => !observeOnly || e.isObserve

end Target

end Observatory
