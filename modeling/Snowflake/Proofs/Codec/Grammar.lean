import Mathlib.Data.Nat.Digits.Defs
import Snowflake.Proofs.Codec.Normal

/-!
# Grammars: which texts of fixed width are read, and what is wrong with the others

A grammar is a table: row `d` has the characters that stand for the digit `d`, and the number
of its rows is the base.  `G.Reads f width bytes r` says what bytes are to be read as, in the
order in which faults are reported: a wrong length, the leftmost byte that stands for nothing,
a value too great for the format, and else the value, a natural number of any size.  An
alphabet with this table reads just so:

    A.decode f text = r ↔ G.Reads f (A.width f) (Text.bytes text) r             (decode_eq_iff)

The reader itself never holds more than 128 bits.  That costs nothing: with all its digits but
one, no text of full width has more than 128 bits, so the limit can only be met on the last
byte, after all have been looked at (`readChecked_of_leftmost`).
-/

namespace Snowflake

/-- For each digit from zero on, the characters that stand for it. -/
structure Grammar where
  spellings : List (List Char)
  ascii : (spellings.all fun row => row.all fun c => c.toNat < 128) = true := by decide

namespace Grammar

variable (G : Grammar)

/-- How many digits there are. -/
def base : Nat := G.spellings.length

/-- The digit that a byte stands for: the first row with its character. -/
def digit? (b : UInt8) : Option Nat := G.spellings.findIdx? fun row => row.any fun c => c.toNat == b.toNat

/-- The byte stands for a digit. -/
def IsSymbol (b : UInt8) : Prop := (G.digit? b).isSome = true

instance (b : UInt8) : Decidable (G.IsSymbol b) := inferInstanceAs (Decidable (_ = _))

/-- The number that the bytes stand for, most significant digit first. -/
def value (bytes : List UInt8) : Nat := Nat.ofDigits G.base (bytes.filterMap G.digit?).reverse

/-- What bytes are read as where the format's texts have so many: the first fault, or else the value. -/
inductive Reads (f : Format) (width : Nat) (bytes : List UInt8) : Except DecodeError Nat → Prop
  | invalidLength (hlength : bytes.length ≠ width) :
      Reads f width bytes (.error (.invalidLength width bytes.length))
  | invalidCharacter {b : UInt8} {i : Nat} (hlength : bytes.length = width) (hb : bytes[i]? = some b)
      (hnone : ¬G.IsSymbol b) (hbefore : ∀ j < i, ∀ a, bytes[j]? = some a → G.IsSymbol a) :
      Reads f width bytes (.error (.invalidCharacter b i))
  | overflow (hlength : bytes.length = width) (hall : ∀ b ∈ bytes, G.IsSymbol b)
      (hwide : capacity f.layout.usedBits ≤ G.value bytes) : Reads f width bytes (.error (.overflow f))
  | value (hlength : bytes.length = width) (hall : ∀ b ∈ bytes, G.IsSymbol b)
      (hfits : G.value bytes < capacity f.layout.usedBits) : Reads f width bytes (.ok (G.value bytes))

/-- Base 16: figures and the letters from `a` to `f`, in either case. -/
def hex : Grammar where
  spellings :=
    [['0'], ['1'], ['2'], ['3'], ['4'], ['5'], ['6'], ['7'], ['8'], ['9'],
     ['a', 'A'], ['b', 'B'], ['c', 'C'], ['d', 'D'], ['e', 'E'], ['f', 'F']]

/-- Base 32: figures and letters in either case; `O` is a zero, `I` and `L` are ones, and `U` is nothing. -/
def crockford : Grammar where
  spellings :=
    [['0', 'o', 'O'], ['1', 'i', 'I', 'l', 'L'], ['2'], ['3'], ['4'], ['5'], ['6'], ['7'], ['8'], ['9'],
     ['a', 'A'], ['b', 'B'], ['c', 'C'], ['d', 'D'], ['e', 'E'], ['f', 'F'], ['g', 'G'], ['h', 'H'],
     ['j', 'J'], ['k', 'K'], ['m', 'M'], ['n', 'N'], ['p', 'P'], ['q', 'Q'], ['r', 'R'], ['s', 'S'],
     ['t', 'T'], ['v', 'V'], ['w', 'W'], ['x', 'X'], ['y', 'Y'], ['z', 'Z']]

/-! ## The first fault is one -/

variable {G} {f : Format} {width : Nat} {bytes : List UInt8}

theorem isSymbol_of_getElem? (hall : ∀ b ∈ bytes, G.IsSymbol b) {i : Nat} {b : UInt8} (hb : bytes[i]? = some b) :
    G.IsSymbol b := hall b (List.mem_of_getElem? hb)

/-- Bytes are read as one thing only. -/
theorem Reads.unique {r r' : Except DecodeError Nat} (h : G.Reads f width bytes r) (h' : G.Reads f width bytes r') :
    r = r' := by
  cases h with
  | invalidLength hlength =>
    cases h' with
    | invalidLength => rfl
    | invalidCharacter hlength' | overflow hlength' | value hlength' => exact absurd hlength' hlength
  | @invalidCharacter b i hlength hb hnone hbefore =>
    cases h' with
    | invalidLength hlength' => exact absurd hlength hlength'
    | @invalidCharacter b' i' _ hb' hnone' hbefore' =>
      -- of two leftmost bytes neither is left of the other
      rcases Nat.lt_trichotomy i i' with hlt | rfl | hlt
      · exact absurd (hbefore' i hlt b hb) hnone
      · rw [hb] at hb'
        rw [Option.some.inj hb']
      · exact absurd (hbefore i' hlt b' hb') hnone'
    | overflow _ hall | value _ hall => exact absurd (isSymbol_of_getElem? hall hb) hnone
  | overflow hlength hall hwide =>
    cases h' with
    | invalidLength hlength' => exact absurd hlength hlength'
    | invalidCharacter _ hb hnone => exact absurd (isSymbol_of_getElem? hall hb) hnone
    | overflow => rfl
    | value _ _ hfits => exact absurd hwide (Nat.not_le.2 hfits)
  | value hlength hall hfits =>
    cases h' with
    | invalidLength hlength' => exact absurd hlength hlength'
    | invalidCharacter _ hb hnone => exact absurd (isSymbol_of_getElem? hall hb) hnone
    | overflow _ _ hwide => exact absurd hwide (Nat.not_le.2 hfits)
    | value => rfl

/-- Bytes that do not all stand for digits have a leftmost one that does not. -/
theorem exists_leftmost (h : ¬∀ b ∈ bytes, G.IsSymbol b) :
    ∃ (i : Nat) (b : UInt8), bytes[i]? = some b ∧ ¬G.IsSymbol b
      ∧ ∀ j < i, ∀ a, bytes[j]? = some a → G.IsSymbol a := by
  have hsome : ∃ i : Nat, ∃ b, bytes[i]? = some b ∧ ¬G.IsSymbol b := by
    rw [not_forall] at h
    obtain ⟨b, hb⟩ := h
    obtain ⟨hmem, hb⟩ := Classical.not_imp.1 hb
    obtain ⟨i, hi⟩ := List.getElem?_of_mem hmem
    exact ⟨i, b, hi, hb⟩
  classical
  obtain ⟨b, hb, hnone⟩ := Nat.find_spec hsome
  refine ⟨Nat.find hsome, b, hb, hnone, fun j hj a ha => ?_⟩
  by_contra hbad
  exact Nat.find_min hsome hj ⟨a, ha, hbad⟩

/-! ## Bytes beyond ASCII -/

/-- A byte past ASCII is in no row. -/
theorem digit?_of_le (G : Grammar) {b : UInt8} (h : 128 ≤ b.toNat) : G.digit? b = none := by
  unfold digit?
  rw [List.findIdx?_eq_none_iff]
  intro row hrow
  rw [List.any_eq_false]
  intro c hc
  have hascii := of_decide_eq_true (List.all_eq_true.1 (List.all_eq_true.1 G.ascii row hrow) c hc)
  rw [beq_iff_eq]
  omega

theorem not_isSymbol_of_le {b : UInt8} (h : 128 ≤ b.toNat) : ¬G.IsSymbol b := by
  unfold IsSymbol
  rw [G.digit?_of_le h]
  exact Bool.false_ne_true

end Grammar

/-- The bytes of a character past ASCII are past ASCII. -/
theorem Text.le_of_mem_utf8EncodeChar {c : Char} (h : 128 ≤ c.toNat) {b : UInt8}
    (hb : b ∈ String.utf8EncodeChar c) : 128 ≤ b.toNat := by
  have hv : c.val.toNat = c.toNat := rfl
  have hbyte : ∀ n, (UInt8.ofNat n).toNat = n % 256 := fun _ => rfl
  unfold String.utf8EncodeChar at hb
  dsimp only at hb
  rw [hv, if_neg (by omega)] at hb
  -- each byte is a mark of 128 or more with a few low bits of the character
  split at hb
  · simp only [List.mem_cons, List.not_mem_nil, or_false] at hb
    rcases hb with rfl | rfl <;> rw [hbyte] <;> omega
  · split at hb
    · simp only [List.mem_cons, List.not_mem_nil, or_false] at hb
      rcases hb with rfl | rfl | rfl <;> rw [hbyte] <;> omega
    · simp only [List.mem_cons, List.not_mem_nil, or_false] at hb
      rcases hb with rfl | rfl | rfl | rfl <;> rw [hbyte] <;> omega

namespace Alphabet

variable (A : Alphabet)

/-! ## The limit of 128 bits -/

/-- Before the leftmost byte that stands for nothing, the limit is not met: the digits up to it have 128
bits at most. -/
theorem readChecked_of_leftmost (f : Format) {bytes : List UInt8} {b : UInt8} {i : Nat} (hb : bytes[i]? = some b)
    (hnone : A.value? b = none) (hbefore : ∀ j < i, ∀ a, bytes[j]? = some a → (A.value? a).isSome = true)
    {index n : Nat} (hn : n < capacity (A.bitsPerDigit * index)) (hroom : A.bitsPerDigit * (index + i) ≤ 128) :
    A.readChecked f index n bytes = .error (.invalidCharacter b (index + i)) := by
  induction i generalizing bytes index n with
  | zero =>
    cases bytes with
    | nil => cases hb
    | cons a rest =>
      cases hb
      unfold readChecked
      rw [hnone]
      rfl
  | succ i ih =>
    cases bytes with
    | nil => cases hb
    | cons a rest =>
      obtain ⟨d, hd⟩ := Option.isSome_iff_exists.1 (hbefore 0 (Nat.succ_pos i) a rfl)
      have hbits : A.bitsPerDigit * (index + 1) = A.bitsPerDigit * index + A.bitsPerDigit := Nat.mul_succ ..
      have hle : A.bitsPerDigit * (index + 1) ≤ A.bitsPerDigit * (index + (i + 1)) := Nat.mul_le_mul_left _ (by omega)
      have hguard : n < capacity (128 - A.bitsPerDigit) := Nat.lt_of_lt_of_le hn (capacity_le (by omega))
      have hnext : n * A.base + d < capacity (A.bitsPerDigit * (index + 1)) := by
        rw [hbits]
        exact A.mul_base_add_lt hn (A.value?_lt a d hd)
      have hroom' : A.bitsPerDigit * (index + 1 + i) ≤ 128 := by
        rw [Nat.add_assoc, Nat.add_comm 1 i]
        exact hroom
      have hrest := @ih rest hb (fun j hj c hc => hbefore (j + 1) (by omega) c hc) _ _ hnext hroom'
      unfold readChecked
      rw [hd]
      dsimp only
      rw [if_pos hguard, hrest, Nat.add_assoc, Nat.add_comm 1 i]

/-- Bytes that all stand for digits are read as their number, unless it has more than 128 bits. -/
theorem readChecked_of_digits (hbits : A.bitsPerDigit ≤ 128) (f : Format) {bytes : List UInt8} {ds : List Nat}
    (h : bytes.map A.value? = ds.map some) {index n : Nat} (hn : n < capacity 128) :
    A.readChecked f index n bytes
      = if numberFrom A.bitsPerDigit n ds < capacity 128 then .ok (numberFrom A.bitsPerDigit n ds)
        else .error (.overflow f) := by
  induction bytes generalizing ds index n with
  | nil =>
    obtain rfl : ds = [] := List.map_eq_nil_iff.1 h.symm
    exact (if_pos hn).symm
  | cons b bytes ih =>
    cases ds with
    | nil => cases h
    | cons d ds =>
      rw [List.map_cons, List.map_cons, List.cons.injEq] at h
      have hroom : capacity (128 - A.bitsPerDigit) * capacity A.bitsPerDigit = capacity 128 := by
        rw [← capacity_add, Nat.sub_add_cancel hbits]
      unfold readChecked
      rw [h.1]
      dsimp only
      by_cases hguard : n < capacity (128 - A.bitsPerDigit)
      · have hnext := A.mul_base_add_lt hguard (A.value?_lt b d h.1)
        rw [Nat.sub_add_cancel hbits] at hnext
        rw [if_pos hguard, ih h.2 hnext]
        rfl
      · have hmul := Nat.mul_le_mul_right (capacity A.bitsPerDigit) (Nat.not_lt.1 hguard)
        have hle := le_numberFrom A.bitsPerDigit (n * capacity A.bitsPerDigit + d) ds
        rw [if_neg hguard, if_neg]
        unfold numberFrom
        omega

/-! ## Values -/

/-- A number and the digits after it, as digits from the least significant on. -/
theorem numberFrom_eq_ofDigits (bits n : Nat) (ds : List Nat) :
    numberFrom bits n ds = Nat.ofDigits (capacity bits) (ds.reverse ++ [n]) := by
  induction ds generalizing n with
  | nil => exact (Nat.ofDigits_singleton ..).symm
  | cons d ds ih =>
    rw [numberFrom, ih, List.reverse_cons, List.append_assoc, Nat.ofDigits_append, Nat.ofDigits_append]
    simp only [List.singleton_append, Nat.ofDigits_cons, Nat.ofDigits_nil]
    ring

end Alphabet

/-! ## Alphabets that read by a grammar -/

/-- The alphabet reads its digits by the grammar's table. -/
structure Alphabet.ReadsBy (A : Alphabet) (G : Grammar) : Prop where
  base_eq : A.base = G.base
  value?_eq : ∀ b, A.value? b = G.digit? b
  bitsPerDigit_le : A.bitsPerDigit ≤ 128

namespace Alphabet.ReadsBy

variable {A : Alphabet} {G : Grammar} {f : Format}

theorem isSymbol_iff (h : A.ReadsBy G) (b : UInt8) : G.IsSymbol b ↔ (A.value? b).isSome = true := by
  rw [h.value?_eq]
  rfl

/-- Bytes that stand for digits, with their digits and their value. -/
theorem exists_digits (h : A.ReadsBy G) {bytes : List UInt8} (hall : ∀ b ∈ bytes, G.IsSymbol b) :
    ∃ ds, bytes.map A.value? = ds.map some ∧ numberFrom A.bitsPerDigit 0 ds = G.value bytes := by
  refine ⟨bytes.filterMap G.digit?, ?_, ?_⟩
  · rw [funext h.value?_eq, List.map_filterMap_some_eq_filter_map_isSome]
    symm
    rw [List.filter_eq_self]
    intro digit hdigit
    obtain ⟨b, hb, rfl⟩ := List.mem_map.1 hdigit
    exact hall b hb
  · rw [numberFrom_eq_ofDigits, Nat.ofDigits_append_zero]
    unfold Grammar.value
    rw [← h.base_eq]
    rfl

/-- The value of bytes has no more bits than their digits. -/
theorem value_lt (h : A.ReadsBy G) {bytes : List UInt8} (hall : ∀ b ∈ bytes, G.IsSymbol b) :
    G.value bytes < capacity (A.bitsPerDigit * bytes.length) := by
  obtain ⟨ds, hds, hvalue⟩ := h.exists_digits hall
  have hlength : ds.length = bytes.length := by
    have hmap := congrArg List.length hds
    rw [List.length_map, List.length_map] at hmap
    exact hmap.symm
  have hlt : ∀ d ∈ ds, d < capacity A.bitsPerDigit := by
    intro d hd
    have hmem : some d ∈ bytes.map A.value? := hds ▸ List.mem_map_of_mem hd
    obtain ⟨b, -, hb⟩ := List.mem_map.1 hmem
    exact A.value?_lt b d hb
  have hdiv := numberFrom_div A.bitsPerDigit 0 hlt
  rw [hvalue, hlength] at hdiv
  exact (Nat.div_eq_zero_iff_lt (capacity_pos _)).1 hdiv

/-- An alphabet reads a text as its grammar says. -/
theorem reads_decode (h : A.ReadsBy G) (f : Format) (text : String) :
    G.Reads f (A.width f) (Text.bytes text) (A.decode f text) := by
  unfold decode
  dsimp only
  by_cases hlength : (Text.bytes text).length = A.width f
  · rw [if_pos hlength, A.read_eq_readChecked hlength]
    by_cases hall : ∀ b ∈ Text.bytes text, G.IsSymbol b
    · obtain ⟨ds, hds, hvalue⟩ := h.exists_digits hall
      rw [A.readChecked_of_digits h.bitsPerDigit_le f hds (capacity_pos 128), hvalue]
      by_cases hfits : f.layout.Fits (G.value (Text.bytes text))
      · rw [if_pos hfits.lt_capacity]
        dsimp only
        rw [if_pos hfits]
        exact .value hlength hall hfits
      · have hoverflow := Grammar.Reads.overflow (f := f) hlength hall (Nat.not_lt.1 hfits)
        by_cases hsmall : G.value (Text.bytes text) < capacity 128
        · rw [if_pos hsmall]
          dsimp only
          rw [if_neg hfits]
          exact hoverflow
        · rw [if_neg hsmall]
          exact hoverflow
    · obtain ⟨i, b, hb, hnone, hbefore⟩ := Grammar.exists_leftmost hall
      have hvalue : A.value? b = none := by
        rwa [h.isSymbol_iff, Bool.not_eq_true, Option.isSome_eq_false_iff, Option.isNone_iff_eq_none] at hnone
      have hi : i < (Text.bytes text).length := (List.getElem?_eq_some_iff.1 hb).1
      have hroom : A.bitsPerDigit * (0 + i) ≤ 128 := by
        have hwidth := A.mul_width_lt f
        have hmul := Nat.mul_le_mul_left A.bitsPerDigit (show i + 1 ≤ A.width f by omega)
        rw [Nat.mul_succ] at hmul
        rw [Nat.zero_add]
        omega
      have hread := A.readChecked_of_leftmost f hb hvalue
        (fun j hj a ha => (h.isSymbol_iff a).1 (hbefore j hj a ha)) (n := 0) (capacity_pos _) hroom
      rw [hread, Nat.zero_add]
      exact .invalidCharacter hlength hb hnone hbefore
  · rw [if_neg hlength]
    exact .invalidLength hlength

/-- **Reading.**  An alphabet reads just what its grammar says, and as just that. -/
theorem decode_eq_iff (h : A.ReadsBy G) {text : String} {r : Except DecodeError Nat} :
    A.decode f text = r ↔ G.Reads f (A.width f) (Text.bytes text) r := by
  constructor
  · rintro rfl
    exact h.reads_decode f text
  · exact (h.reads_decode f text).unique

end Alphabet.ReadsBy

/-! ## Hex and base 32 -/

/-- What holds of the first 128 bytes and of all past ASCII holds of every byte. -/
theorem Text.forall_byte {P : UInt8 → Prop} (h : ∀ n, n < 128 → P (UInt8.ofNat n))
    (hhigh : ∀ b : UInt8, 128 ≤ b.toNat → P b) (b : UInt8) : P b := by
  rcases Nat.lt_or_ge b.toNat 128 with hlt | hge
  · have hb := h b.toNat hlt
    rwa [UInt8.ofNat_toNat] at hb
  · exact hhigh b hge

namespace Grammar

theorem readsBy_hex : Alphabet.hex.ReadsBy hex where
  base_eq := rfl
  value?_eq := Text.forall_byte (by decide +kernel) fun _ hb => (Hex.value?_eq_none hb).trans (hex.digit?_of_le hb).symm
  bitsPerDigit_le := by decide

theorem readsBy_crockford : Alphabet.crockford.ReadsBy crockford where
  base_eq := rfl
  value?_eq := Text.forall_byte (by decide +kernel) fun _ hb =>
    (Crockford.value?_eq_none hb).trans (crockford.digit?_of_le hb).symm
  bitsPerDigit_le := by decide

/-- **Base 32.**  Figures stand for digits and so do the letters of both cases but `U`.  A text is read by
the grammar: a wrong length comes before all else, then the leftmost byte that stands for nothing, whatever
the digits before it amount to, and only then a value that does not fit. -/
theorem crockford_decode_iff (f : Format) :
    (∀ b : UInt8, crockford.IsSymbol b
        ↔ (48 ≤ b.toNat ∧ b.toNat ≤ 57) ∨ (65 ≤ b.toNat ∧ b.toNat ≤ 90 ∧ b.toNat ≠ 85)
          ∨ (97 ≤ b.toNat ∧ b.toNat ≤ 122 ∧ b.toNat ≠ 117))
      ∧ ∀ (text : String) (r : Except DecodeError Nat),
        Alphabet.crockford.decode f text = r ↔ crockford.Reads f (f.layout.width 5) (Text.bytes text) r := by
  refine ⟨Text.forall_byte (by decide +kernel) fun b hb => ?_, fun text r => readsBy_crockford.decode_eq_iff⟩
  exact iff_of_false (crockford.not_isSymbol_of_le hb) (by omega)

/-- The digits before the last byte are too great for the format, and still it is the last that is reported. -/
example : Alphabet.crockford.decode .tiny "ZZZZZZU" = .error (.invalidCharacter 85 6) := rfl

/-- **Hex.**  Figures stand for digits and so do the letters from `a` to `f` in both cases, but no sign, no
blank and no byte of a character past ASCII.  A text is read by the grammar, with faults in the same order.
Only one format has texts whose value does not fit. -/
theorem hex_decode_iff (f : Format) :
    (∀ b : UInt8, hex.IsSymbol b
        ↔ (48 ≤ b.toNat ∧ b.toNat ≤ 57) ∨ (97 ≤ b.toNat ∧ b.toNat ≤ 102) ∨ (65 ≤ b.toNat ∧ b.toNat ≤ 70))
      ∧ (∀ c : Char, 128 ≤ c.toNat → ∀ b ∈ String.utf8EncodeChar c, ¬hex.IsSymbol b)
      ∧ (∀ (text : String) (r : Except DecodeError Nat),
        Alphabet.hex.decode f text = r ↔ hex.Reads f (f.layout.width 4) (Text.bytes text) r)
      ∧ ((∃ text, Alphabet.hex.decode f text = .error (.overflow f)) ↔ f = .id64) := by
  refine ⟨Text.forall_byte (by decide +kernel) fun b hb => ?_, fun c hc b hb => ?_,
    fun text r => readsBy_hex.decode_eq_iff, fun ⟨text, htext⟩ => ?_, ?_⟩
  · exact iff_of_false (hex.not_isSymbol_of_le hb) (by omega)
  · exact hex.not_isSymbol_of_le (Text.le_of_mem_utf8EncodeChar hc hb)
  · by_contra hf
    have hbits : f.layout.usedBits = 4 * f.layout.width 4 := by
      cases f with
      | id64 => exact absurd rfl hf
      | tiny | mini | id48 | id128 => rfl
    cases readsBy_hex.decode_eq_iff.1 htext with
    | overflow hlength hall hwide =>
      have hlt : hex.value (Text.bytes text) < capacity (4 * (Text.bytes text).length) := readsBy_hex.value_lt hall
      rw [hlength] at hlt
      rw [hbits] at hwide
      exact absurd hlt (Nat.not_lt.2 hwide)
  · rintro rfl
    exact ⟨"8000000000000000", rfl⟩

end Grammar

end Snowflake
