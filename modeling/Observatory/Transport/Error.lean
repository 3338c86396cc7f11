/-!
# Transport errors

Why a transport does not do what it is asked to do.
-/

namespace Observatory

inductive TransportError where
  | closed (transport : String)
  /-- The event could not be carried in bytes. -/
  | codec (detail : String)
  | rejected (detail : String)
  deriving DecidableEq, Repr

def TransportError.message : TransportError → String
  | .closed transport => s!"Transport '{transport}' is closed"
  | .codec detail => s!"Codec failure: {detail}"
  | .rejected detail => s!"Transport rejected operation: {detail}"

end Observatory
