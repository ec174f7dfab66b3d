/-!
# Bits: how many numbers a run of bits can hold

The capacity of a run of bits is the power of two that its numbers stay below. Runs side
by side multiply: `capacity (m + n) = capacity m * capacity n`.
-/

namespace Snowflake

/-- How many numbers have at most so many bits. -/
def capacity (bits : Nat) : Nat := Nat.pow 2 bits

/-! ## Lemmas -/

theorem capacity_pos (bits : Nat) : 0 < capacity bits := Nat.two_pow_pos bits

theorem capacity_zero : capacity 0 = 1 := rfl

theorem capacity_add (m n : Nat) : capacity (m + n) = capacity m * capacity n := Nat.pow_add 2 m n

theorem capacity_le {m n : Nat} (h : m ≤ n) : capacity m ≤ capacity n :=
  Nat.pow_le_pow_right (by decide) h

end Snowflake
