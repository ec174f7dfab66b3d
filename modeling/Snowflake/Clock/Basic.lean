import Snowflake.Word

/-!
# Clocks: reading them, and parking on them

A clock is anything that can be read and parked on, whatever it does in between: it may
stand still, drift with every reading or go backwards. A reading counts milliseconds; a
tick is a reading divided by a resolution, of which zero counts as one.
-/

namespace Snowflake

structure Clock (σ : Type) where
  /-- The reading in milliseconds since 1970, and the clock after it was taken. -/
  read : σ → Nat × σ
  /-- The clock after a pause of this many milliseconds was asked for. -/
  park : Nat → σ → σ
  read_le : ∀ s, (read s).1 ≤ wordMax

/-- The tick of a reading. -/
def tickAt (resolution millis : Nat) : Nat := millis / max resolution 1

namespace Clock

variable {σ : Type}

/-- The present tick, and the clock after it was read. -/
def now (c : Clock σ) (resolution : Nat) (s : σ) : Nat × σ :=
  (tickAt resolution (c.read s).1, (c.read s).2)

end Clock

/-! ## Lemmas -/

theorem tickAt_of_pos {resolution : Nat} (h : 0 < resolution) (millis : Nat) :
    tickAt resolution millis = millis / resolution := by
  unfold tickAt
  rw [Nat.max_eq_left h]

end Snowflake
