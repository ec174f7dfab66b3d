import Snowflake.Format

/-!
# Errors: why an id cannot be issued

`Error` gathers the refusals of generators, registries and encoders, each by its cause;
`Error.message` holds their wording.
-/

namespace Snowflake

inductive Error where
  /-- The clock's tick lies before the format's epoch or past its last timestamp. -/
  | clockRangeExceeded (format : Format) (tick : Nat)
  /-- The node id is above `maxNodeId`. -/
  | invalidNodeId (nodeId : Nat)
  /-- The number has bits above the format's layout. -/
  | tooWide (format : Format)
deriving DecidableEq, Repr

def Error.message : Error → String
  | clockRangeExceeded format tick =>
    s!"clock tick {tick} is outside the timestamp range of the {format.name} format"
  | invalidNodeId nodeId => s!"node id {nodeId} is out of range (max = {maxNodeId})"
  | tooWide format => s!"raw id wider than {format.name}"

end Snowflake
