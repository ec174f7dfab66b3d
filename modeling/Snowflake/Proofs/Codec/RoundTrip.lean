import Snowflake.Encoding
import Snowflake.Proofs.Codec.Digits

/-!
# Round trips: what is written is read back, and nothing else is read

An id that fits its format has a text in every encoding, of fixed width in hex and base
32, and the text is read as the id.  A number that does not fit has no text of fixed
width; in decimal it is written, but the text is refused.  So whatever any text is read
as can be written again, in every encoding.
-/

namespace Snowflake

namespace Text.Decimal

theorem toList_write (n : Nat) : (write n).toList = Nat.toDigits 10 n := String.toList_ofList

theorem all_isDigit_write (n : Nat) : (write n).toList.all Char.isDigit = true := by
  rw [toList_write, List.all_eq_true]
  exact fun c hc => isDigit_of_mem_toDigits hc

theorem isEmpty_write (n : Nat) : (write n).toList.isEmpty = false := by
  rw [toList_write, List.isEmpty_eq_false_iff]
  exact Nat.toDigits_ne_nil

theorem value_write (n : Nat) : value (write n).toList = n := by
  rw [toList_write, value_toDigits]

end Text.Decimal

namespace Encoding

/-! ## Decimal -/

/-- The text of a number of 128 bits is read as the number, if it fits. -/
theorem decodeRaw_write (f : Format) {id : Nat} (h : id < capacity 128) :
    decodeRaw f (Text.Decimal.write id)
      = if f.layout.Fits id then .ok id else .error (.tooWide (Text.Decimal.write id) f) := by
  unfold decodeRaw
  dsimp only
  rw [if_pos (Text.Decimal.all_isDigit_write id), Text.Decimal.isEmpty_write, Text.Decimal.value_write,
    if_neg Bool.false_ne_true, if_neg (Nat.not_le.2 h)]

/-- Read are the numerals of ids that fit. -/
theorem decodeRaw_eq_ok_iff {f : Format} {text : String} {id : Nat} :
    decodeRaw f text = .ok id
      ↔ Text.Decimal.isNumeral text.toList = true ∧ Text.Decimal.value text.toList = id
        ∧ f.layout.Fits id := by
  unfold decodeRaw Text.Decimal.isNumeral
  dsimp only
  constructor
  · intro h
    split at h
    · next hall =>
      split at h
      · cases h
      · next hempty =>
        split at h
        · cases h
        · split at h
          · next hfits =>
            cases h
            refine ⟨?_, rfl, hfits⟩
            rw [hall, Bool.eq_false_iff.2 hempty]
            rfl
          · cases h
    · cases h
  · rintro ⟨hnumeral, rfl, hfits⟩
    rw [Bool.and_eq_true, Bool.not_eq_true'] at hnumeral
    rw [if_pos hnumeral.2, hnumeral.1, if_neg Bool.false_ne_true, if_neg (Nat.not_le.2 hfits.lt_capacity),
      if_pos hfits]

/-! ## All encodings -/

theorem mapError_eq_ok {ε ε' α : Type} {x : Except ε α} {k : ε → ε'} {a : α} :
    x.mapError k = .ok a ↔ x = .ok a := by
  constructor
  · intro h
    cases x with
    | error e => cases h
    | ok b =>
      cases h
      rfl
  · rintro rfl
    rfl

/-- Every text that is read is read as an id that fits. -/
theorem fits_of_decode {e : Encoding} {f : Format} {text : String} {id : Nat} (h : e.decode f text = .ok id) :
    f.layout.Fits id := by
  cases e with
  | raw => exact (decodeRaw_eq_ok_iff.1 h).2.2
  | hex => exact Alphabet.hex.fits_of_decode (mapError_eq_ok.1 h)
  | ascii => exact Alphabet.crockford.fits_of_decode (mapError_eq_ok.1 h)

/-- The width of an encoding's texts, if it is fixed. -/
def width? : Encoding → Format → Option Nat
  | raw, _ => none
  | hex, f => some (f.layout.width 4)
  | ascii, f => some (f.layout.width 5)

/-- An id that fits is written in every encoding, at the width of the encoding if it has one, and its
text is read as the id. -/
theorem exists_encode {f : Format} {id : Nat} (h : f.layout.Fits id) (e : Encoding) :
    ∃ text, e.encode f id = .ok text ∧ e.decode f text = .ok id
      ∧ ∀ width ∈ e.width? f, (Text.bytes text).length = width := by
  -- both alphabets write and read by one law; decimal has one of its own
  have fixed : ∀ A : Alphabet, ∃ text, A.encode f id = .ok text
      ∧ (A.decode f text).mapError IdError.text = .ok id
      ∧ ∀ width ∈ some (f.layout.width A.bitsPerDigit), (Text.bytes text).length = width := by
    intro A
    refine ⟨A.write f id, A.encode_of_fits h, mapError_eq_ok.2 (A.decode_write h), ?_⟩
    intro width hwidth
    cases hwidth
    exact A.length_bytes_write f id
  cases e with
  | raw =>
    refine ⟨_, rfl, (decodeRaw_write f h.lt_capacity).trans (if_pos h), ?_⟩
    intro width hwidth
    cases hwidth
  | hex => exact fixed .hex
  | ascii => exact fixed .crockford

/-- **Round trip.**  An id of 128 bits that fits its format is written in every encoding, at the
width of the encoding, and read back.  One that does not fit has no text of fixed width, and its
decimal text is refused.  Whatever is read can be written again. -/
theorem round_trip (f : Format) {id : Nat} (h : id < capacity 128) :
    (f.layout.Fits id → ∀ e : Encoding, ∃ text, e.encode f id = .ok text ∧ e.decode f text = .ok id
        ∧ ∀ width ∈ e.width? f, (Text.bytes text).length = width)
      ∧ (¬ f.layout.Fits id → hex.encode f id = .error (.tooWide f) ∧ ascii.encode f id = .error (.tooWide f)
        ∧ ∃ text, raw.encode f id = .ok text ∧ raw.decode f text = .error (.tooWide text f))
      ∧ ∀ (e : Encoding) (text : String) (found : Nat), e.decode f text = .ok found →
        f.layout.Fits found ∧ ∀ e' : Encoding, ∃ text', e'.encode f found = .ok text' := by
  refine ⟨exists_encode, ?_, ?_⟩
  · intro hwide
    refine ⟨Alphabet.hex.encode_of_not_fits hwide, Alphabet.crockford.encode_of_not_fits hwide, _, rfl, ?_⟩
    exact (decodeRaw_write f h).trans (if_neg hwide)
  · intro e text found hread
    have hfits := fits_of_decode hread
    refine ⟨hfits, fun e' => ?_⟩
    obtain ⟨text', hwritten, -⟩ := exists_encode hfits e'
    exact ⟨text', hwritten⟩

/-- The greatest id of 63 bits fits in three spellings; the number after it sets the reserved bit. -/
theorem round_trip_at_reserved_bit :
    let top := capacity 63 - 1
    top < capacity 128 ∧ Format.id64.layout.Fits top ∧ ¬ Format.id64.layout.Fits (top + 1)
      ∧ (∀ e : Encoding, ∃ text, e.encode .id64 top = .ok text ∧ e.decode .id64 text = .ok top
        ∧ ∀ width ∈ e.width? .id64, (Text.bytes text).length = width)
      ∧ hex.encode .id64 (top + 1) = .error (.tooWide .id64)
      ∧ ascii.decode .id64 "7zzzzzzzzzzzz" = .ok top ∧ ∃ text, hex.encode .id64 top = .ok text := by
  intro top
  have htop : top < capacity 128 := by decide
  have hnext : top + 1 < capacity 128 := by decide
  have hread : ascii.decode .id64 "7zzzzzzzzzzzz" = .ok top := rfl
  obtain ⟨hwritten, -, hagain⟩ := round_trip .id64 htop
  obtain ⟨-, hwide, -⟩ := round_trip .id64 hnext
  exact ⟨htop, by decide, by decide, hwritten (by decide), (hwide (by decide)).1, hread,
    (hagain .ascii _ _ hread).2 .hex⟩

end Encoding

end Snowflake
