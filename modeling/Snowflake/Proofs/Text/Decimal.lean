import Mathlib.Data.Nat.Digits.Defs
import Snowflake.Text.Decimal

/-!
# Numerals: the number that digits stand for, and the texts that are read as one

`number digits` adds up what each digit counts at its place, which is what reading from left to
right comes to (`value_eq_number`).  Zeros in front count nothing, however many there are
(`number_zeros_append`).  `Unsigned n cs` is the grammar of numbers with an optional plus sign,
and a number is read where the grammar has one and it is not too great:

    readUnsigned? max cs = some n ↔ Unsigned n cs ∧ n ≤ max        (readUnsigned?_eq_some_iff_unsigned)
-/

namespace Snowflake.Text.Decimal

/-- The number that digits stand for: from the last one on, each place counts ten times the one before. -/
def number (digits : List Char) : Nat := Nat.ofDigits 10 (digits.map fun c => c.toNat - 48).reverse

/-- The text is one digit or more, with or without a plus sign in front, and stands for `n`. -/
inductive Unsigned (n : Nat) : List Char → Prop
  | plain {digits : List Char} (hne : digits ≠ []) (hdigits : ∀ c ∈ digits, c.isDigit = true)
      (hn : number digits = n) : Unsigned n digits
  | signed {digits : List Char} (hne : digits ≠ []) (hdigits : ∀ c ∈ digits, c.isDigit = true)
      (hn : number digits = n) : Unsigned n ('+' :: digits)

variable {max n : Nat} {cs digits : List Char}

/-! ## Values -/

/-- A number and the digits after it, as digits from the least significant on. -/
theorem ofDigitChars_eq_ofDigits (n : Nat) (digits : List Char) :
    Nat.ofDigitChars 10 digits n = Nat.ofDigits 10 ((digits.map fun c => c.toNat - 48).reverse ++ [n]) := by
  induction digits generalizing n with
  | nil => exact (Nat.ofDigits_singleton ..).symm
  | cons c digits ih =>
    have hzero : '0'.toNat = 48 := rfl
    rw [Nat.ofDigitChars_cons, ih, List.map_cons, List.reverse_cons, List.append_assoc, Nat.ofDigits_append,
      Nat.ofDigits_append, hzero]
    simp only [List.singleton_append, Nat.ofDigits_cons, Nat.ofDigits_nil]
    ring

theorem value_eq_number (digits : List Char) : value digits = number digits := by
  unfold value number
  rw [ofDigitChars_eq_ofDigits, Nat.ofDigits_append_zero]

/-- Zeros in front of a number make no difference. -/
theorem number_zeros_append (zeros : Nat) (digits : List Char) :
    number (List.replicate zeros '0' ++ digits) = number digits := by
  unfold number
  rw [List.map_append, List.reverse_append, List.map_replicate, List.reverse_replicate]
  exact Nat.ofDigits_append_replicate_zero _

/-! ## Numbers with an optional sign -/

theorem isNumeral_iff : isNumeral cs = true ↔ cs ≠ [] ∧ ∀ c ∈ cs, c.isDigit = true := by
  unfold isNumeral
  rw [Bool.and_eq_true, Bool.not_eq_true', List.isEmpty_eq_false_iff, List.all_eq_true]

/-- Behind the sign, if there is one, a number has digits alone. -/
theorem unsigned_iff : Unsigned n cs ↔ isNumeral (dropPlus cs) = true ∧ number (dropPlus cs) = n := by
  constructor
  · rintro (⟨hne, hdigits, hn⟩ | ⟨hne, hdigits, hn⟩)
    · -- a plus sign is no digit, so none is dropped
      have hplus : dropPlus cs = cs := by
        fun_cases dropPlus cs with
        | case1 rest => exact absurd (hdigits '+' List.mem_cons_self) (by decide)
        | case2 => rfl
      rw [hplus]
      exact ⟨isNumeral_iff.2 ⟨hne, hdigits⟩, hn⟩
    · exact ⟨isNumeral_iff.2 ⟨hne, hdigits⟩, hn⟩
  · rintro ⟨hnumeral, hn⟩
    obtain ⟨hne, hdigits⟩ := isNumeral_iff.1 hnumeral
    revert hne hdigits hn
    fun_cases dropPlus cs with
    | case1 rest => exact fun hn hne hdigits => .signed hne hdigits hn
    | case2 => exact fun hn hne hdigits => .plain hne hdigits hn

/-- Read are the numbers of the grammar that are not too great. -/
theorem readUnsigned?_eq_some_iff_unsigned : readUnsigned? max cs = some n ↔ Unsigned n cs ∧ n ≤ max := by
  rw [readUnsigned?_eq_some, unsigned_iff, value_eq_number, and_assoc]

end Snowflake.Text.Decimal
