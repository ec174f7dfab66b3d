import Snowflake.Format
import Snowflake.Text.Decimal

/-!
# Settings taken from the environment

The default node id may be set by a variable. A value that is no node id is passed over
as if the variable were not set.
-/

namespace Snowflake

/-- The value of each variable that is set. -/
abbrev Environment := String → Option String

structure Settings where
  /-- The node id to use when none is named; if unset, one is drawn. -/
  defaultNodeId : Option Nat := none
deriving DecidableEq, Repr

namespace Settings

/-- The variable that holds the default node id. -/
def nodeIdVariable : String := "POLYFLAKE_NODE_ID"

/-- The node id that a value stands for: a number in range, in decimal, with blanks around it. -/
def readNodeId? (value : String) : Option Nat :=
  Text.Decimal.readUnsigned? maxNodeId (Text.trim value.toList)

def ofEnvironment (env : Environment) : Settings :=
  { defaultNodeId := (env nodeIdVariable).bind readNodeId? }

/-! ## Lemmas -/

theorem readNodeId?_le {value : String} {n : Nat} (h : readNodeId? value = some n) : n ≤ maxNodeId :=
  (Text.Decimal.readUnsigned?_eq_some.1 h).2.2

/-- The environment never sets a node id out of range. -/
theorem ofEnvironment_le {env : Environment} {n : Nat} (h : (ofEnvironment env).defaultNodeId = some n) :
    n ≤ maxNodeId := by
  obtain ⟨value, -, hn⟩ := Option.bind_eq_some_iff.1 h
  exact readNodeId?_le hn

end Settings

end Snowflake
