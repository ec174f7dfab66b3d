import Snowflake.Codec.Alphabet

/-!
# Crockford base 32: ids in 32 symbols that are hard to misread

The symbols are the digits and the capital letters without `I`, `L`, `O` and `U`. Small
letters count as their capitals, `O` as zero, `I` and `L` as one; `U` is no symbol. Digits
of five bits do not fill 128 bits evenly, so a number is looked at before it is shifted: the
first digit of a text of 26 has room for three bits only.
-/

namespace Snowflake

namespace Crockford

/-- The symbols in the order of their values. -/
def symbols : List Char :=
  ['0', '1', '2', '3', '4', '5', '6', '7', '8', '9', 'A', 'B', 'C', 'D', 'E', 'F',
   'G', 'H', 'J', 'K', 'M', 'N', 'P', 'Q', 'R', 'S', 'T', 'V', 'W', 'X', 'Y', 'Z']

def symbol (d : Nat) : Char := symbols.getD d '0'

/-- The character as the alphabet writes it: a capital, and no look-alike. -/
def canonical (c : Char) : Char :=
  match c.toUpper with
  | 'O' => '0'
  | 'I' => '1'
  | 'L' => '1'
  | c => c

def value? (b : UInt8) : Option Nat := symbols.idxOf? (canonical (Char.ofNat b.toNat))

theorem value?_lt (b : UInt8) (d : Nat) (h : value? b = some d) : d < 32 := by
  obtain ⟨hlt, -⟩ := List.findIdx?_eq_some_iff_getElem.1 h
  exact hlt

/-- The number shifted by five bits with the digit in their place, if no set bit is lost at the top. -/
def push (number digit : Nat) : Option Nat :=
  if number / capacity 123 = 0 then some (number * 32 + digit) else none

theorem push_of_lt (number digit : Nat) (h : number < capacity 123) :
    push number digit = some (number * 32 + digit) := if_pos (Nat.div_eq_of_lt h)

theorem push_of_le (number digit : Nat) (h : capacity 123 ≤ number) : push number digit = none :=
  if_neg (Nat.ne_of_gt (Nat.div_pos h (capacity_pos 123)))

end Crockford

/-- Base 32 with Crockford's symbols. -/
def Alphabet.crockford : Alphabet where
  bitsPerDigit := 5
  symbol := Crockford.symbol
  value? := Crockford.value?
  push := Crockford.push
  bitsPerDigit_pos := by decide
  value?_lt := Crockford.value?_lt
  symbol_ascii := by decide
  value?_symbol := by decide
  push_of_lt := Crockford.push_of_lt
  push_of_le _ := Crockford.push_of_le

end Snowflake
