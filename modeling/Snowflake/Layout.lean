import Snowflake.Word

/-!
# Layouts: how an id holds a timestamp, a node field and a sequence

A layout cuts a number into three fields, from high to low: the timestamp (ticks since
the layout's epoch), the node field and the sequence within the tick. `pack` puts the
fields together and keeps of each argument only what its field holds; `timestamp`,
`nodeField` and `sequence` read them back, whatever stands above the layout.
-/

namespace Snowflake

/-- The widths of an id's fields, and the clock its timestamp counts by. -/
structure Layout where
  name : String
  /-- Where a generator keeps its memory of the layout. -/
  slot : Nat
  totalBits : Nat
  timestampBits : Nat
  nodeBits : Nat
  sequenceBits : Nat
  epochMillis : Nat
  tickMillis : Nat
  totalBits_le : totalBits ≤ 128 := by decide
  timestampBits_le : timestampBits ≤ 64 := by decide
  nodeBits_le : nodeBits ≤ 64 := by decide
  sequenceBits_le : sequenceBits ≤ 32 := by decide
  usedBits_le : timestampBits + nodeBits + sequenceBits ≤ totalBits := by decide
  tickMillis_pos : 0 < tickMillis := by decide
  epochMillis_mod : epochMillis % tickMillis = 0 := by decide
  epochMillis_le : epochMillis ≤ wordMax := by decide

namespace Layout

variable (L : Layout)

/-! ## Sizes -/

/-- Bits that carry a field; the container may have more. -/
def usedBits : Nat := L.timestampBits + L.nodeBits + L.sequenceBits

/-- Bits below the timestamp. -/
def timestampShift : Nat := L.nodeBits + L.sequenceBits

/-- Bits below the node field. -/
def nodeShift : Nat := L.sequenceBits

/-- The epoch, counted in ticks. -/
def epochTick : Nat := L.epochMillis / L.tickMillis

def maxTimestamp : Nat := capacity L.timestampBits - 1

def maxNodeField : Nat := capacity L.nodeBits - 1

def maxSequence : Nat := capacity L.sequenceBits - 1

/-- How many ids one node may issue in one tick. -/
def idsPerTick : Nat := L.maxSequence + 1

/-- Characters of an id at a fixed number of bits per character. -/
def width (bitsPerDigit : Nat) : Nat := (L.totalBits + bitsPerDigit - 1) / bitsPerDigit

/-! ## Fields -/

/-- The number lies within the layout: no bit is set above its fields. -/
def Fits (raw : Nat) : Prop := raw < capacity L.usedBits

instance (raw : Nat) : Decidable (L.Fits raw) := inferInstanceAs (Decidable (_ < _))

/-- The id with these fields; a number too wide for its field loses its high bits. -/
def pack (timestamp nodeId sequence : Nat) : Nat :=
  timestamp % capacity L.timestampBits * capacity L.timestampShift
    + nodeId % capacity L.nodeBits * capacity L.nodeShift
    + sequence % capacity L.sequenceBits

def timestamp (raw : Nat) : Nat := raw / capacity L.timestampShift % capacity L.timestampBits

def nodeField (raw : Nat) : Nat := raw / capacity L.nodeShift % capacity L.nodeBits

def sequence (raw : Nat) : Nat := raw % capacity L.sequenceBits

/-- The timestamp field of a tick, if the tick lies in the range that the field covers. -/
def timestampOf? (tick : Nat) : Option Nat :=
  if L.epochTick ≤ tick ∧ tick - L.epochTick ≤ L.maxTimestamp then some (tick - L.epochTick) else none

/-! ## Description -/

/-- The layout's constants on one line, but for the slot. -/
def describe : String :=
  s!"IdFormat \x7b name: \"{L.name}\", total_bits: {L.totalBits}, "
    ++ s!"timestamp_bits: {L.timestampBits}, node_bits: {L.nodeBits}, "
    ++ s!"sequence_bits: {L.sequenceBits}, epoch_millis: {L.epochMillis}, "
    ++ s!"tick_millis: {L.tickMillis} \x7d"

/-! ## Lemmas -/

theorem timestampShift_add : L.timestampShift + L.timestampBits = L.usedBits := by
  unfold timestampShift usedBits
  omega

theorem timestamp_le (raw : Nat) : L.timestamp raw ≤ L.maxTimestamp :=
  Nat.le_sub_one_of_lt (Nat.mod_lt _ (capacity_pos _))

theorem sequence_le (raw : Nat) : L.sequence raw ≤ L.maxSequence :=
  Nat.le_sub_one_of_lt (Nat.mod_lt _ (capacity_pos _))

theorem timestampOf?_eq_some {tick t : Nat} :
    L.timestampOf? tick = some t ↔ tick = L.epochTick + t ∧ t ≤ L.maxTimestamp := by
  unfold timestampOf?
  split <;> simp only [Option.some.injEq, reduceCtorEq, false_iff] <;> omega

end Layout

end Snowflake
