import Snowflake.Bits

/-!
# Words: the numbers a clock can read

Readings, ticks, resolutions and pauses are natural numbers that stay at or below
`wordMax`, the greatest number of 64 bits. Sums and products that could pass it stop
there: they saturate, they never wrap.
-/

namespace Snowflake

/-- The greatest reading, tick or node number: 64 bits, all set. -/
def wordMax : Nat := 18446744073709551615

/-- A number cut off at the greatest word. -/
def saturate (n : Nat) : Nat := min n wordMax

/-! ## Lemmas -/

theorem saturate_le (n : Nat) : saturate n ≤ wordMax := Nat.min_le_right ..

theorem saturate_of_le {n : Nat} (h : n ≤ wordMax) : saturate n = n := Nat.min_eq_left h

end Snowflake
