import Snowflake.Codec.Alphabet

/-!
# Hex: ids in base 16

Written with `0` to `9` and `a` to `f`, read in either case. Signs, blanks and prefixes
are no symbols. A number takes every digit: it is shifted in its 128 bits, which 32 digits
fill, and no text of full width has more.
-/

namespace Snowflake

namespace Hex

/-- The value of a hex digit in either case. -/
def value? (b : UInt8) : Option Nat :=
  if 48 ≤ b.toNat ∧ b.toNat ≤ 57 then some (b.toNat - 48)
  else if 97 ≤ b.toNat ∧ b.toNat ≤ 102 then some (b.toNat - 87)
  else if 65 ≤ b.toNat ∧ b.toNat ≤ 70 then some (b.toNat - 55)
  else none

theorem value?_lt (b : UInt8) (d : Nat) (h : value? b = some d) : d < 16 := by
  unfold value? at h
  split at h
  · cases h
    omega
  · split at h
    · cases h
      omega
    · split at h
      · cases h
        omega
      · cases h

/-- The number shifted by four bits, whatever is lost at the top, with the digit in their place. -/
def push (number digit : Nat) : Option Nat := some (number * 16 % capacity 128 + digit)

theorem push_of_lt (number digit : Nat) (h : number < capacity 124) :
    push number digit = some (number * 16 + digit) := by
  have hlt : number * 16 < capacity 128 := Nat.mul_lt_mul_of_pos_right h (by decide)
  unfold push
  rw [Nat.mod_eq_of_lt hlt]

end Hex

/-- Base 16, written in lower case. -/
def Alphabet.hex : Alphabet where
  bitsPerDigit := 4
  symbol := Nat.digitChar
  value? := Hex.value?
  push := Hex.push
  bitsPerDigit_pos := by decide
  value?_lt := Hex.value?_lt
  symbol_ascii := by decide
  value?_symbol := by decide
  push_of_lt := Hex.push_of_lt
  push_of_le h := absurd rfl h

end Snowflake
