import Snowflake.Encoding
import Snowflake.Proofs.Codec.Digits
import Snowflake.Proofs.Layout.Fields

/-!
# Order: texts of fixed width sort as their ids do

At one width, digits compare from left to right as the numbers do that they stand for.  An
alphabet whose symbols go up with their digits (`Ascending`) carries this over to the bytes:

    digits bits width m < digits bits width n
      ↔ m % capacity (bits * width) < n % capacity (bits * width)        (digits_lt_digits_iff)
    Text.bytes (A.write f a) < Text.bytes (A.write f b) ↔ a < b           (Ascending.bytes_write_lt_iff)

the second for ids that fit: their width cuts no digit off.  Decimal texts have no fixed
width, and `10` comes before `9`.
-/

namespace Snowflake

namespace Alphabet

/-! ## Digits -/

/-- Digits of one width compare as what is left of the numbers at that width. -/
theorem digits_lt_digits_iff (bits width m n : Nat) :
    digits bits width m < digits bits width n
      ↔ m % capacity (bits * width) < n % capacity (bits * width) := by
  induction width with
  | zero =>
    rw [Nat.mul_zero, capacity_zero, Nat.mod_one, Nat.mod_one]
    exact iff_of_false (List.not_lt_nil _) (Nat.lt_irrefl 0)
  | succ width ih =>
    have hpos := capacity_pos (bits * width)
    -- the leading digit is the quotient at the width below, the other digits stand for the remainder
    have hsplit : ∀ k, k % capacity (bits * (width + 1))
        = k / capacity (bits * width) % capacity bits * capacity (bits * width) + k % capacity (bits * width) := by
      intro k
      rw [Nat.mul_succ, capacity_add, Nat.mod_mul, Nat.add_comm, Nat.mul_comm]
    rw [digits, digits, List.cons_lt_cons_iff, ih, hsplit m, hsplit n,
      mul_add_lt_mul_add_iff (Nat.mod_lt m hpos) (Nat.mod_lt n hpos)]

/-! ## Symbols -/

/-- The bytes of the symbols go up with their digits. -/
def Ascending (A : Alphabet) : Prop :=
  ∀ e, e < A.base → ∀ d, d < e → Text.asciiByte (A.symbol d) < Text.asciiByte (A.symbol e)

theorem ascending_hex : hex.Ascending := by
  unfold Ascending
  decide

theorem ascending_crockford : crockford.Ascending := by
  unfold Ascending
  decide

namespace Ascending

variable {A : Alphabet}

theorem byte_lt_byte_iff (h : A.Ascending) {d e : Nat} (hd : d < A.base) (he : e < A.base) :
    Text.asciiByte (A.symbol d) < Text.asciiByte (A.symbol e) ↔ d < e := by
  constructor
  · intro hlt
    rcases Nat.lt_trichotomy d e with hde | rfl | hed
    · exact hde
    · exact absurd hlt (UInt8.lt_irrefl _)
    · exact absurd hlt (UInt8.lt_asymm (h d hd e hed))
  · exact h e he d

/-- Two digits with one symbol are one. -/
theorem byte_eq_byte_iff (h : A.Ascending) {d e : Nat} (hd : d < A.base) (he : e < A.base) :
    Text.asciiByte (A.symbol d) = Text.asciiByte (A.symbol e) ↔ d = e := by
  constructor
  · intro heq
    rcases Nat.lt_trichotomy d e with hde | hde | hed
    · exact absurd (h e he d hde) (heq ▸ UInt8.lt_irrefl _)
    · exact hde
    · exact absurd (h d hd e hed) (heq ▸ UInt8.lt_irrefl _)
  · rintro rfl
    rfl

/-- Symbols compare, byte by byte, as their digits do. -/
theorem bytes_lt_bytes_iff (h : A.Ascending) {ds es : List Nat} (hds : ∀ d ∈ ds, d < A.base)
    (hes : ∀ e ∈ es, e < A.base) :
    (ds.map fun d => Text.asciiByte (A.symbol d)) < (es.map fun e => Text.asciiByte (A.symbol e))
      ↔ ds < es := by
  induction ds generalizing es with
  | nil =>
    cases es with
    | nil => exact iff_of_false (List.not_lt_nil _) (List.not_lt_nil _)
    | cons e es => exact iff_of_true (List.nil_lt_cons _ _) (List.nil_lt_cons _ _)
  | cons d ds ih =>
    cases es with
    | nil => exact iff_of_false (List.not_lt_nil _) (List.not_lt_nil _)
    | cons e es =>
      have hd := hds d List.mem_cons_self
      have he := hes e List.mem_cons_self
      have hrest := ih (fun d' hd' => hds d' (List.mem_cons_of_mem d hd'))
        (fun e' he' => hes e' (List.mem_cons_of_mem e he'))
      rw [List.map_cons, List.map_cons, List.cons_lt_cons_iff, List.cons_lt_cons_iff,
        h.byte_lt_byte_iff hd he, h.byte_eq_byte_iff hd he, hrest]

/-- Ids that fit compare as their texts do, byte by byte. -/
theorem bytes_write_lt_iff (h : A.Ascending) {f : Format} {a b : Nat} (ha : f.layout.Fits a)
    (hb : f.layout.Fits b) : Text.bytes (A.write f a) < Text.bytes (A.write f b) ↔ a < b := by
  have hroom : ∀ {id}, f.layout.Fits id → id % capacity (A.bitsPerDigit * A.width f) = id := fun hid =>
    Nat.mod_eq_of_lt (hid.lt_capacity_width A.bitsPerDigit_pos)
  rw [bytes_write, bytes_write, h.bytes_lt_bytes_iff (digits_lt _ _ _) (digits_lt _ _ _),
    digits_lt_digits_iff, hroom ha, hroom hb]

end Ascending

end Alphabet

/-! ## Encodings -/

namespace Encoding

/-- **Order.**  Ids that fit their format compare as their hex texts do, byte by byte, and as their
texts in base 32 do. -/
theorem lt_iff_bytes_lt {f : Format} {a b : Nat} (ha : f.layout.Fits a) (hb : f.layout.Fits b) {e : Encoding}
    (he : e ≠ raw) :
    ∃ textA textB, e.encode f a = .ok textA ∧ e.encode f b = .ok textB
      ∧ (a < b ↔ Text.bytes textA < Text.bytes textB) := by
  cases e with
  | raw => exact absurd rfl he
  | hex =>
    exact ⟨_, _, Alphabet.hex.encode_of_fits ha, Alphabet.hex.encode_of_fits hb,
      (Alphabet.ascending_hex.bytes_write_lt_iff ha hb).symm⟩
  | ascii =>
    exact ⟨_, _, Alphabet.crockford.encode_of_fits ha, Alphabet.crockford.encode_of_fits hb,
      (Alphabet.ascending_crockford.bytes_write_lt_iff ha hb).symm⟩

/-- A carry through all but the first hex digit; in base 32 the first letter comes after the last
figure. -/
theorem order_across_carry :
    Format.mini.layout.Fits 0x0fffffffff ∧ Format.mini.layout.Fits 0x1000000000 ∧ hex ≠ raw
      ∧ Format.tiny.layout.Fits 9 ∧ Format.tiny.layout.Fits 10 ∧ ascii ≠ raw
      ∧ hex.encode .mini 0x0fffffffff = .ok "0fffffffff" ∧ hex.encode .mini 0x1000000000 = .ok "1000000000"
      ∧ Text.bytes "0fffffffff" < Text.bytes "1000000000"
      ∧ ascii.encode .tiny 9 = .ok "0000009" ∧ ascii.encode .tiny 10 = .ok "000000A"
      ∧ Text.bytes "0000009" < Text.bytes "000000A" := by
  have hlow : Format.mini.layout.Fits 0x0fffffffff := by decide
  have hhigh : Format.mini.layout.Fits 0x1000000000 := by decide
  have hnine : Format.tiny.layout.Fits 9 := by decide
  have hten : Format.tiny.layout.Fits 10 := by decide
  have hhex : hex ≠ raw := by decide
  have hascii : ascii ≠ raw := by decide
  obtain ⟨_, _, htextLow, htextHigh, hcarry⟩ := lt_iff_bytes_lt hlow hhigh hhex
  obtain ⟨_, _, htextNine, htextTen, hstep⟩ := lt_iff_bytes_lt hnine hten hascii
  cases htextLow
  cases htextHigh
  cases htextNine
  cases htextTen
  exact ⟨hlow, hhigh, hhex, hnine, hten, hascii, rfl, rfl, hcarry.1 (by decide), rfl, rfl, hstep.1 (by decide)⟩

/-- Without a fixed width, ten comes before nine. -/
example : Text.bytes (Text.Decimal.write 10) < Text.bytes (Text.Decimal.write 9) := by decide

end Encoding

end Snowflake
