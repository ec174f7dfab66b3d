import Snowflake.Format

/-!
# Parts: what an id says

`Layout.millis` is the start of the tick that the id was issued in, in milliseconds
since 1970; `Layout.parts` adds the node field and the sequence.
-/

namespace Snowflake

structure Parts where
  timestampMillis : Nat
  nodeId : Nat
  sequence : Nat
deriving DecidableEq, Repr

namespace Layout

variable (L : Layout)

/-- When the id's tick began, in milliseconds since 1970. -/
def millis (raw : Nat) : Nat :=
  saturate (saturate (L.timestamp raw + L.epochTick) * L.tickMillis)

def parts (raw : Nat) : Parts :=
  { timestampMillis := L.millis raw, nodeId := L.nodeField raw, sequence := L.sequence raw }

end Layout

end Snowflake
