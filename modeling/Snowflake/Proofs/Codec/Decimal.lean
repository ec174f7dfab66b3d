import Mathlib.Data.List.Basic
import Snowflake.Proofs.Codec.Grammar
import Snowflake.Proofs.Text.Decimal

/-!
# Decimal ids: which texts are read, and what is told of the others

An id in decimal has no fixed width: its text is any run of figures.  `Encoding.ReadsDecimal f
text r` says what a text is to be read as.  Faults are looked for in this order, and `r` is what
is told of the first one, from the outside in:

* a byte that is no figure, whatever else is wrong with the text: no cause is given;
* no figure at all, or a number of more than 128 bits: the cause says which;
* a number that is too great for the format: no cause.

Without a fault `r` is the number, each figure counted at its place.  The raw form is read just
so (`decodeRaw_eq_iff`).
-/

namespace Snowflake

/-- Base 10: the ten figures, each spelled in one way. -/
def Grammar.decimal : Grammar where
  spellings := [['0'], ['1'], ['2'], ['3'], ['4'], ['5'], ['6'], ['7'], ['8'], ['9']]

/-- What is told of an error: the error, and then what lies behind it. -/
def IdError.told (e : IdError) : List String := e.message :: e.causes

/-- What a text is read as in decimal: what is told of the first fault, or else the number. -/
inductive Encoding.ReadsDecimal (f : Format) (text : String) : Except (List String) Nat → Prop
  | notDecimal {b : UInt8} (hb : b ∈ Text.bytes text) (hnone : ¬Grammar.decimal.IsSymbol b) :
      ReadsDecimal f text (.error [s!"`{text}` is not a decimal id"])
  | empty (hempty : text = "") :
      ReadsDecimal f text (.error [s!"`{text}` is not a decimal id", "cannot parse integer from empty string"])
  | tooLarge (hall : ∀ b ∈ Text.bytes text, Grammar.decimal.IsSymbol b)
      (hlarge : capacity 128 ≤ Grammar.decimal.value (Text.bytes text)) :
      ReadsDecimal f text (.error [s!"`{text}` is not a decimal id", "number too large to fit in target type"])
  | tooWide (hall : ∀ b ∈ Text.bytes text, Grammar.decimal.IsSymbol b)
      (hwide : capacity f.layout.usedBits ≤ Grammar.decimal.value (Text.bytes text))
      (hsmall : Grammar.decimal.value (Text.bytes text) < capacity 128) :
      ReadsDecimal f text (.error [s!"`{text}` is wider than a {f.name} id"])
  | value (hne : text ≠ "") (hall : ∀ b ∈ Text.bytes text, Grammar.decimal.IsSymbol b)
      (hfits : Grammar.decimal.value (Text.bytes text) < capacity f.layout.usedBits) :
      ReadsDecimal f text (.ok (Grammar.decimal.value (Text.bytes text)))

/-! ## Figures and their bytes -/

theorem Text.ascii_of_isDigit {c : Char} (h : c.isDigit = true) : c.toNat < 128 := by
  have hnine : '9'.toNat = 57 := rfl
  rw [Char.isDigit_iff_toNat, hnine] at h
  omega

namespace Grammar

theorem isSymbol_decimal (b : UInt8) : decimal.IsSymbol b ↔ 48 ≤ b.toNat ∧ b.toNat ≤ 57 :=
  Text.forall_byte (P := fun b => decimal.IsSymbol b ↔ 48 ≤ b.toNat ∧ b.toNat ≤ 57) (by decide +kernel)
    (fun _ hb => iff_of_false (decimal.not_isSymbol_of_le hb) (by omega)) b

theorem digit?_decimal {c : Char} (h : c.isDigit = true) : decimal.digit? (Text.asciiByte c) = some (c.toNat - 48) :=
  Text.forall_ascii (P := fun c => c.isDigit = true → decimal.digit? (Text.asciiByte c) = some (c.toNat - 48))
    (by decide +kernel) c (Text.ascii_of_isDigit h) h

theorem isDigit_of_isSymbol {c : Char} (hc : c.toNat < 128) (h : decimal.IsSymbol (Text.asciiByte c)) :
    c.isDigit = true :=
  Text.forall_ascii (P := fun c => decimal.IsSymbol (Text.asciiByte c) → c.isDigit = true) (by decide +kernel) c hc h

variable {text : String}

theorem bytes_of_digits (h : ∀ c ∈ text.toList, c.isDigit = true) :
    Text.bytes text = text.toList.map Text.asciiByte := by
  have hbytes := Text.bytes_ofList fun c hc => Text.ascii_of_isDigit (h c hc)
  rwa [String.ofList_toList] at hbytes

/-- All bytes are figures exactly if all characters are. -/
theorem forall_isSymbol_iff :
    (∀ b ∈ Text.bytes text, decimal.IsSymbol b) ↔ ∀ c ∈ text.toList, c.isDigit = true := by
  constructor
  · intro h c hc
    have hmem : ∀ b ∈ String.utf8EncodeChar c, decimal.IsSymbol b :=
      fun b hb => h b (List.mem_flatMap.2 ⟨c, hc, hb⟩)
    rcases Nat.lt_or_ge c.toNat 128 with hascii | hpast
    · rw [Text.utf8EncodeChar_ascii hascii] at hmem
      exact isDigit_of_isSymbol hascii (hmem _ (List.mem_singleton_self _))
    · -- a character past ASCII has a byte that is no figure
      obtain ⟨b, hb, hle⟩ := Text.exists_byte_of_not_ascii hpast
      exact absurd (hmem b hb) (decimal.not_isSymbol_of_le hle)
  · intro h b hb
    rw [bytes_of_digits h] at hb
    obtain ⟨c, hc, rfl⟩ := List.mem_map.1 hb
    unfold IsSymbol
    rw [digit?_decimal (h c hc)]
    rfl

/-- The number of a text's bytes is that of its characters. -/
theorem value_decimal (h : ∀ c ∈ text.toList, c.isDigit = true) :
    decimal.value (Text.bytes text) = Text.Decimal.value text.toList := by
  have hdigits : (Text.bytes text).filterMap decimal.digit? = text.toList.map fun c => c.toNat - 48 := by
    rw [bytes_of_digits h, List.filterMap_map]
    exact List.filterMap_eq_map_iff_forall_eq_some.2 fun c hc => digit?_decimal (h c hc)
  rw [Text.Decimal.value_eq_number]
  unfold value Text.Decimal.number
  rw [hdigits]
  rfl

end Grammar

/-! ## Reading -/

namespace Encoding

variable {f : Format} {text : String}

/-- One of the faults is there, or there is a number to read. -/
theorem exists_readsDecimal (f : Format) (text : String) : ∃ r, ReadsDecimal f text r := by
  by_cases hall : ∀ b ∈ Text.bytes text, Grammar.decimal.IsSymbol b
  · by_cases hempty : text = ""
    · exact ⟨_, .empty hempty⟩
    · rcases Nat.lt_or_ge (Grammar.decimal.value (Text.bytes text)) (capacity f.layout.usedBits) with hfits | hwide
      · exact ⟨_, .value hempty hall hfits⟩
      · rcases Nat.lt_or_ge (Grammar.decimal.value (Text.bytes text)) (capacity 128) with hsmall | hlarge
        · exact ⟨_, .tooWide hall hwide hsmall⟩
        · exact ⟨_, .tooLarge hall hlarge⟩
  · obtain ⟨_, b, hb, hnone, -⟩ := Grammar.exists_leftmost hall
    exact ⟨_, .notDecimal (List.mem_of_getElem? hb) hnone⟩

theorem ne_empty_of_le {bits : Nat} (h : capacity bits ≤ Grammar.decimal.value (Text.bytes text)) : text ≠ "" := by
  rintro rfl
  exact absurd h (Nat.not_le.2 (capacity_pos bits))

/-- Once there are figures and nothing else, it is for the number to fit. -/
theorem decodeRaw_of_digits (hall : ∀ b ∈ Text.bytes text, Grammar.decimal.IsSymbol b) (hne : text ≠ "") :
    decodeRaw f text
      = if capacity 128 ≤ Grammar.decimal.value (Text.bytes text) then .error (.badNumeral text .tooLarge)
        else if f.layout.Fits (Grammar.decimal.value (Text.bytes text)) then
          .ok (Grammar.decimal.value (Text.bytes text))
        else .error (.tooWide text f) := by
  have hdigits := Grammar.forall_isSymbol_iff.1 hall
  have hcs : ¬text.toList.isEmpty = true := by
    rw [List.isEmpty_iff, String.toList_eq_nil_iff]
    exact hne
  unfold decodeRaw
  dsimp only
  rw [if_pos (List.all_eq_true.2 hdigits), if_neg hcs, Grammar.value_decimal hdigits]

theorem ReadsDecimal.decodeRaw_eq {r : Except (List String) Nat} (h : ReadsDecimal f text r) :
    (decodeRaw f text).mapError IdError.told = r := by
  cases h with
  | notDecimal hb hnone =>
    have hsome : ¬text.toList.all Char.isDigit = true := by
      intro hdigits
      exact hnone (Grammar.forall_isSymbol_iff.2 (List.all_eq_true.1 hdigits) _ hb)
    unfold decodeRaw
    dsimp only
    rw [if_neg hsome]
    rfl
  | empty hempty =>
    subst hempty
    rfl
  | tooLarge hall hlarge =>
    rw [decodeRaw_of_digits hall (ne_empty_of_le hlarge), if_pos hlarge]
    rfl
  | tooWide hall hwide hsmall =>
    have hover : ¬f.layout.Fits (Grammar.decimal.value (Text.bytes text)) := Nat.not_lt.2 hwide
    rw [decodeRaw_of_digits hall (ne_empty_of_le hwide), if_neg (Nat.not_le.2 hsmall), if_neg hover]
    rfl
  | value hne hall hfits =>
    have hfits : f.layout.Fits (Grammar.decimal.value (Text.bytes text)) := hfits
    rw [decodeRaw_of_digits hall hne, if_neg (Nat.not_le.2 hfits.lt_capacity), if_pos hfits]
    rfl

/-- **Reading.**  A text is read in decimal just as it is to be read. -/
theorem decodeRaw_eq_iff {r : Except (List String) Nat} :
    (decodeRaw f text).mapError IdError.told = r ↔ ReadsDecimal f text r := by
  constructor
  · rintro rfl
    obtain ⟨r, hr⟩ := exists_readsDecimal f text
    rw [hr.decodeRaw_eq]
    exact hr
  · exact ReadsDecimal.decodeRaw_eq

/-- Zeros in front of figures are read over, however many there are. -/
theorem decodeRaw_zeros_append (zeros : Nat) (hne : text ≠ "") {id : Nat} :
    decodeRaw f (String.ofList (List.replicate zeros '0') ++ text) = .ok id ↔ decodeRaw f text = .ok id := by
  have hcs : text.toList ≠ [] := mt String.toList_eq_nil_iff.1 hne
  have hzeros : ∀ c ∈ List.replicate zeros '0', c.isDigit = true := by
    intro c hc
    rw [List.eq_of_mem_replicate hc]
    rfl
  have hnumeral : Text.Decimal.isNumeral (List.replicate zeros '0' ++ text.toList)
      = Text.Decimal.isNumeral text.toList := by
    rw [Bool.eq_iff_iff, Text.Decimal.isNumeral_iff, Text.Decimal.isNumeral_iff, List.forall_mem_append]
    exact ⟨fun h => ⟨hcs, h.2.2⟩, fun h => ⟨List.append_ne_nil_of_right_ne_nil _ hcs, hzeros, h.2⟩⟩
  rw [decodeRaw_eq_ok_iff, decodeRaw_eq_ok_iff, String.toList_append, String.toList_ofList, hnumeral,
    Text.Decimal.value_eq_number, Text.Decimal.number_zeros_append, Text.Decimal.value_eq_number]

/-- **Decimal.**  The ten figures stand for digits and no other byte does.  A text is read by the grammar:
a byte that is no figure comes before all else, then a text without figures or a number of more than 128
bits, each with its cause, and then a number that is too great for the format.  Zeros in front of a number
change nothing. -/
theorem raw_decode_iff (f : Format) :
    (∀ b : UInt8, Grammar.decimal.IsSymbol b ↔ 48 ≤ b.toNat ∧ b.toNat ≤ 57)
      ∧ (∀ (text : String) (r : Except (List String) Nat),
        (raw.decode f text).mapError IdError.told = r ↔ ReadsDecimal f text r)
      ∧ ∀ (text : String) (zeros id : Nat), text ≠ "" →
        (raw.decode f (String.ofList (List.replicate zeros '0') ++ text) = .ok id ↔ raw.decode f text = .ok id) :=
  ⟨Grammar.isSymbol_decimal, fun _ _ => decodeRaw_eq_iff, fun _ zeros _ hne => decodeRaw_zeros_append zeros hne⟩

/-- The greatest number of 128 bits is read with a zero in front; one more is too large for any format. -/
example : raw.decode .id128 "0340282366920938463463374607431768211455" = .ok (capacity 128 - 1)
    ∧ raw.decode .id128 "340282366920938463463374607431768211456"
      = .error (.badNumeral "340282366920938463463374607431768211456" .tooLarge) := by
  decide +kernel

end Encoding

end Snowflake
