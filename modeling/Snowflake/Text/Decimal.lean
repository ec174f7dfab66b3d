/-!
# Decimal: whole numbers in base 10

Numbers are written without sign, blanks or leading zeros. Read are one or more ASCII
digits, with leading zeros and, in `readUnsigned?`, one plus sign in front.
-/

namespace Snowflake.Text.Decimal

/-- The number's text. -/
def write (n : Nat) : String := String.ofList (Nat.toDigits 10 n)

/-- The number's text with zeros in front, up to a width. -/
def writePadded (width n : Nat) : String :=
  String.ofList ((Nat.toDigits 10 n).leftpad width '0')

/-- The number that a run of digits stands for. -/
def value (digits : List Char) : Nat := Nat.ofDigitChars 10 digits 0

/-- The text without the plus sign in front of it, if it has one. -/
def dropPlus : List Char → List Char
  | '+' :: rest => rest
  | cs => cs

/-- The text is one digit or more. -/
def isNumeral (cs : List Char) : Bool := !cs.isEmpty && cs.all Char.isDigit

/-- A number of at most `max`, with or without a plus sign. -/
def readUnsigned? (max : Nat) (cs : List Char) : Option Nat :=
  let digits := dropPlus cs
  if isNumeral digits ∧ value digits ≤ max then some (value digits) else none

/-! ## Lemmas -/

theorem value_toDigits (n : Nat) : value (Nat.toDigits 10 n) = n :=
  Nat.ofDigitChars_toDigits (by decide) (by decide)

theorem isDigit_of_mem_toDigits {n : Nat} {c : Char} (h : c ∈ Nat.toDigits 10 n) : c.isDigit = true :=
  Nat.isDigit_of_mem_toDigits (by decide) (by decide) h

theorem readUnsigned?_eq_some {max n : Nat} {cs : List Char} :
    readUnsigned? max cs = some n
      ↔ isNumeral (dropPlus cs) = true ∧ value (dropPlus cs) = n ∧ n ≤ max := by
  simp only [readUnsigned?]
  split
  · next h =>
    simp only [Option.some.injEq]
    constructor
    · rintro rfl
      exact ⟨h.1, rfl, h.2⟩
    · exact fun hn => hn.2.1
  · next h =>
    simp only [reduceCtorEq, false_iff]
    rintro ⟨hd, rfl, hle⟩
    exact h ⟨hd, hle⟩

end Snowflake.Text.Decimal
