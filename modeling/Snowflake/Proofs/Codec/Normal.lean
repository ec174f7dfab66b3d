import Snowflake.Proofs.Codec.RoundTrip

/-!
# Normal forms: the one spelling that is written among all that are read

An id is read in many spellings: hex in either case, base 32 in either case and with
look-alikes, decimal with zeros in front.  `normal` takes a text to the spelling that is
written, character by character for the alphabets (`Alphabet.Respells`) and by dropping
zeros for decimal:

    e.decode f text = .ok id → e.encode f id = .ok (e.normal text)    (encode_of_decode)
    e.decode f (e.normal text) = .ok id ↔ e.decode f text = .ok id    (decode_normal)

so texts that are read stand for one id exactly when they have one normal form.
-/

namespace Snowflake

namespace Text

/-! ## Characters -/

/-- What holds of the first 128 characters holds of all of ASCII. -/
theorem forall_ascii {P : Char → Prop} (h : ∀ n, n < 128 → P (Char.ofNat n)) (c : Char)
    (hc : c.toNat < 128) : P c := by
  have hn := h c.toNat hc
  rwa [Char.ofNat_toNat] at hn

/-- An ASCII character is its byte's. -/
theorem ofNat_asciiByte {c : Char} (h : c.toNat < 128) : Char.ofNat (asciiByte c).toNat = c := by
  have hbyte : (asciiByte c).toNat = c.toNat := Nat.mod_eq_of_lt (by omega)
  rw [hbyte, Char.ofNat_toNat]

theorem toNat_ofNat_byte (b : UInt8) : (Char.ofNat b.toNat).toNat = b.toNat := by
  have hbyte := b.toNat_lt
  have hvalid : b.toNat.isValidChar := Or.inl (by omega)
  unfold Char.ofNat
  rw [dif_pos hvalid]
  rfl

/-- A character past ASCII has a byte past ASCII. -/
theorem exists_byte_of_not_ascii {c : Char} (h : 128 ≤ c.toNat) :
    ∃ b ∈ String.utf8EncodeChar c, 128 ≤ b.toNat := by
  have hv : c.val.toNat = c.toNat := rfl
  -- the last byte carries the low six bits under the mark of a byte that goes on
  refine ⟨UInt8.ofNat (c.toNat % 64 + 128), ?_, ?_⟩
  · unfold String.utf8EncodeChar
    dsimp only
    rw [hv, if_neg (by omega)]
    split
    · simp
    · split
      · simp
      · simp
  · show 128 ≤ (c.toNat % 64 + 128) % 256
    omega

theorem toLower_of_not_ascii {c : Char} (h : 128 ≤ c.toNat) : c.toLower = c := by
  unfold Char.toLower
  rw [dif_neg]
  rintro ⟨-, hle⟩
  have hcode : c.toNat ≤ 90 := hle
  omega

theorem toUpper_of_not_ascii {c : Char} (h : 128 ≤ c.toNat) : c.toUpper = c := by
  unfold Char.toUpper
  rw [dif_neg]
  rintro ⟨-, hle⟩
  have hcode : c.toNat ≤ 122 := hle
  omega

/-! ## Decimal -/

namespace Decimal

/-- The digits without the zeros in front of them, as long as there is another character. -/
def dropZeros : List Char → List Char
  | '0' :: c :: cs => dropZeros (c :: cs)
  | cs => cs

theorem value_cons (c : Char) (cs : List Char) :
    value (c :: cs) = Nat.ofDigitChars 10 cs (c.toNat - 48) := by
  unfold value
  rw [Nat.ofDigitChars_cons, Nat.mul_zero, Nat.zero_add]
  rfl

theorem value_zero_cons (cs : List Char) : value ('0' :: cs) = value cs := value_cons '0' cs

theorem value_dropZeros (cs : List Char) : value (dropZeros cs) = value cs := by
  fun_induction dropZeros cs with
  | case1 c cs ih =>
    rw [ih, value_zero_cons]
  | case2 => rfl

theorem isNumeral_dropZeros (cs : List Char) : isNumeral (dropZeros cs) = isNumeral cs := by
  fun_induction dropZeros cs with
  | case1 c cs ih =>
    rw [ih]
    simp [isNumeral]
  | case2 => rfl

/-- A digit is the symbol of its value. -/
theorem digitChar_of_isDigit {c : Char} (h : c.isDigit = true) :
    c.toNat - 48 < 10 ∧ Nat.digitChar (c.toNat - 48) = c := by
  have hzero : '0'.toNat = 48 := rfl
  have hnine : '9'.toNat = 57 := rfl
  rw [Char.isDigit_iff_toNat, hzero, hnine] at h
  have hlt : c.toNat - 48 < 10 := by omega
  refine ⟨hlt, Char.toNat_inj.1 ?_⟩
  rw [Nat.toNat_digitChar_of_lt_ten hlt]
  omega

/-- Digits after a number that is not zero are the last digits of the number they make together. -/
theorem toDigits_append {n : Nat} (hn : 0 < n) {cs : List Char} (h : cs.all Char.isDigit = true) :
    Nat.toDigits 10 n ++ cs = Nat.toDigits 10 (Nat.ofDigitChars 10 cs n) := by
  induction cs generalizing n with
  | nil => simp
  | cons c cs ih =>
    rw [List.all_cons, Bool.and_eq_true] at h
    obtain ⟨hlt, hchar⟩ := digitChar_of_isDigit h.1
    have hstep : Nat.toDigits 10 n ++ [c] = Nat.toDigits 10 (10 * n + (c.toNat - 48)) := by
      rw [← Nat.toDigits_append_toDigits (by decide) hn hlt, Nat.toDigits_of_lt_base hlt, hchar]
    calc Nat.toDigits 10 n ++ c :: cs
        = Nat.toDigits 10 n ++ [c] ++ cs := by rw [List.append_assoc, List.singleton_append]
      _ = Nat.toDigits 10 (10 * n + (c.toNat - 48)) ++ cs := by rw [hstep]
      _ = Nat.toDigits 10 (Nat.ofDigitChars 10 cs (10 * n + (c.toNat - 48))) := ih (by omega) h.2
      _ = Nat.toDigits 10 (Nat.ofDigitChars 10 (c :: cs) n) := by rw [Nat.ofDigitChars_cons]; rfl

/-- What is written of a numeral's value is the numeral without zeros in front. -/
theorem toDigits_value {cs : List Char} (h : isNumeral cs = true) :
    Nat.toDigits 10 (value cs) = dropZeros cs := by
  fun_induction dropZeros cs with
  | case1 c cs ih =>
    rw [value_zero_cons]
    refine ih ?_
    simpa [isNumeral] using h
  | case2 cs hstop =>
    cases cs with
    | nil => cases h
    | cons c cs =>
      have hall : (c :: cs).all Char.isDigit = true := (Bool.and_eq_true_iff.1 h).2
      rw [List.all_cons, Bool.and_eq_true] at hall
      obtain ⟨hlt, hchar⟩ := digitChar_of_isDigit hall.1
      by_cases hzero : c = '0'
      · subst hzero
        -- a zero is kept only if nothing follows it
        cases cs with
        | nil => rfl
        | cons d ds => exact (hstop d ds rfl).elim
      · -- the first digit makes a number above zero, and every further one is its next last digit
        have hpos : 0 < c.toNat - 48 := by
          apply Nat.pos_of_ne_zero
          intro hvalue
          rw [hvalue] at hchar
          exact hzero hchar.symm
        rw [value_cons, ← toDigits_append hpos hall.2, Nat.toDigits_of_lt_base hlt, hchar]
        rfl

end Decimal

end Text

/-! ## Alphabets -/

namespace Alphabet

/-- Characters are respelled for an alphabet: one that stands for a digit as the digit's symbol, any
other as one that stands for none.  Beyond ASCII nothing changes, and nothing stands for a digit. -/
structure Respells (A : Alphabet) (respell : Char → Char) : Prop where
  eq_symbol : ∀ c : Char, c.toNat < 128 → ∀ d ∈ A.value? (Text.asciiByte c), respell c = A.symbol d
  ascii : ∀ c : Char, c.toNat < 128 → (respell c).toNat < 128
  value?_eq : ∀ c : Char, c.toNat < 128 →
    A.value? (Text.asciiByte (respell c)) = A.value? (Text.asciiByte c)
  eq_self : ∀ c : Char, 128 ≤ c.toNat → respell c = c
  value?_eq_none : ∀ b : UInt8, 128 ≤ b.toNat → A.value? b = none

namespace Respells

variable {A : Alphabet} {respell : Char → Char}

/-- A text is read byte by byte as its respelling is. -/
theorem value?_bytes_map (h : A.Respells respell) (text : String) :
    (Text.bytes (text.map respell)).map A.value? = (Text.bytes text).map A.value? := by
  have hchar : ∀ c : Char, (String.utf8EncodeChar (respell c)).map A.value?
      = (String.utf8EncodeChar c).map A.value? := by
    intro c
    by_cases hc : c.toNat < 128
    · rw [Text.utf8EncodeChar_ascii hc, Text.utf8EncodeChar_ascii (h.ascii c hc), List.map_singleton,
        List.map_singleton, h.value?_eq c hc]
    · rw [h.eq_self c (by omega)]
  unfold Text.bytes
  rw [String.toList_map, List.map_flatMap, List.map_flatMap, List.flatMap_map]
  congr 1
  funext c
  exact hchar c

/-- Where every byte stands for a digit, there are only ASCII characters. -/
theorem ascii_of_digits (h : A.Respells respell) {text : String} {ds : List Nat}
    (hds : (Text.bytes text).map A.value? = ds.map some) : ∀ c ∈ text.toList, c.toNat < 128 := by
  intro c hc
  apply Nat.lt_of_not_le
  intro hhigh
  obtain ⟨b, hb, hbyte⟩ := Text.exists_byte_of_not_ascii hhigh
  have hmem : A.value? b ∈ (Text.bytes text).map A.value? :=
    List.mem_map_of_mem (List.mem_flatMap.2 ⟨c, hc, hb⟩)
  rw [hds, h.value?_eq_none b hbyte] at hmem
  obtain ⟨d, -, hd⟩ := List.mem_map.1 hmem
  cases hd

theorem map_eq_map_symbol (h : A.Respells respell) {cs : List Char} (hascii : ∀ c ∈ cs, c.toNat < 128)
    {ds : List Nat} (hds : (cs.map Text.asciiByte).map A.value? = ds.map some) :
    cs.map respell = ds.map A.symbol := by
  induction cs generalizing ds with
  | nil =>
    obtain rfl : ds = [] := List.map_eq_nil_iff.1 hds.symm
    rfl
  | cons c cs ih =>
    cases ds with
    | nil => cases hds
    | cons d ds =>
      rw [List.map_cons, List.map_cons, List.map_cons, List.cons.injEq] at hds
      have hc := h.eq_symbol c (hascii c List.mem_cons_self) d hds.1
      have hcs := ih (fun e he => hascii e (List.mem_cons_of_mem c he)) hds.2
      rw [List.map_cons, List.map_cons, hc, hcs]

/-- A text whose bytes stand for digits is respelled as the digits' symbols. -/
theorem map_eq_symbols (h : A.Respells respell) {text : String} {ds : List Nat}
    (hds : (Text.bytes text).map A.value? = ds.map some) :
    text.map respell = String.ofList (ds.map A.symbol) := by
  have hascii := h.ascii_of_digits hds
  rw [← String.ofList_toList (s := text), Text.bytes_ofList hascii] at hds
  rw [← h.map_eq_map_symbol hascii hds, ← String.toList_map, String.ofList_toList]

/-- What is written of the id that a text is read as is the text respelled. -/
theorem encode_of_decode (h : A.Respells respell) {f : Format} {text : String} {raw : Nat}
    (hread : A.decode f text = .ok raw) : A.encode f raw = .ok (text.map respell) := by
  obtain ⟨ds, hds, hlength, rfl, hfits⟩ := A.decode_eq_ok_iff.1 hread
  have hlt : ∀ d ∈ ds, d < capacity A.bitsPerDigit := by
    intro d hd
    have hmem : some d ∈ (Text.bytes text).map A.value? := hds ▸ List.mem_map_of_mem hd
    obtain ⟨b, -, hb⟩ := List.mem_map.1 hmem
    exact A.value?_lt b d hb
  rw [A.encode_of_fits hfits, A.write_numberFrom hlength hlt, h.map_eq_symbols hds]

/-- A text is read as its respelling is. -/
theorem decode_map (h : A.Respells respell) {f : Format} {text : String} {raw : Nat} :
    A.decode f (text.map respell) = .ok raw ↔ A.decode f text = .ok raw := by
  rw [A.decode_eq_ok_iff, A.decode_eq_ok_iff, h.value?_bytes_map]

end Respells

end Alphabet

theorem Hex.value?_eq_none {b : UInt8} (h : 128 ≤ b.toNat) : value? b = none := by
  unfold value?
  rw [if_neg (by omega), if_neg (by omega), if_neg (by omega)]

theorem Hex.respells_toLower : Alphabet.hex.Respells Char.toLower where
  eq_symbol := Text.forall_ascii (by decide)
  ascii := Text.forall_ascii (by decide)
  value?_eq := Text.forall_ascii (by decide)
  eq_self := fun _ => Text.toLower_of_not_ascii
  value?_eq_none := fun _ => value?_eq_none

namespace Crockford

/-- The symbol that a capital looks like, if it is none itself. -/
def lookAlike : Char → Char
  | 'O' => '0'
  | 'I' => '1'
  | 'L' => '1'
  | c => c

theorem canonical_eq (c : Char) : canonical c = lookAlike c.toUpper := rfl

theorem lookAlike_of_not_ascii {c : Char} (h : 128 ≤ c.toNat) : lookAlike c = c := by
  unfold lookAlike
  split
  · exact absurd h (by decide)
  · exact absurd h (by decide)
  · exact absurd h (by decide)
  · rfl

theorem canonical_of_not_ascii {c : Char} (h : 128 ≤ c.toNat) : canonical c = c := by
  rw [canonical_eq, Text.toUpper_of_not_ascii h, lookAlike_of_not_ascii h]

theorem ascii_canonical : ∀ c : Char, c.toNat < 128 → (canonical c).toNat < 128 :=
  Text.forall_ascii (by decide)

theorem canonical_canonical : ∀ c : Char, c.toNat < 128 → canonical (canonical c) = canonical c :=
  Text.forall_ascii (by decide)

theorem value?_asciiByte {c : Char} (h : c.toNat < 128) :
    value? (Text.asciiByte c) = symbols.idxOf? (canonical c) := by
  unfold value?
  rw [Text.ofNat_asciiByte h]

theorem symbol_of_idxOf? {c : Char} {d : Nat} (h : symbols.idxOf? c = some d) : symbol d = c := by
  obtain ⟨hlt, heq, -⟩ := List.idxOf?_eq_some_iff.1 h
  unfold symbol
  rw [List.getD_eq_getElem?_getD, List.getElem?_eq_getElem hlt, heq, Option.getD_some]

theorem value?_crockford : Alphabet.crockford.value? = value? := by
  unfold Alphabet.crockford
  rfl

theorem symbol_crockford : Alphabet.crockford.symbol = symbol := by
  unfold Alphabet.crockford
  rfl

theorem value?_eq_none {b : UInt8} (h : 128 ≤ b.toNat) : value? b = none := by
  have hcode := Text.toNat_ofNat_byte b
  cases hb : value? b with
  | none => rfl
  | some d =>
    -- the symbol of the digit would be the byte's own character, which is not ASCII
    have hsymbol := symbol_of_idxOf? hb
    have hlt := Alphabet.crockford.symbol_ascii d (value?_lt b d hb)
    rw [canonical_of_not_ascii (by omega)] at hsymbol
    rw [symbol_crockford, hsymbol] at hlt
    omega

theorem respells_canonical : Alphabet.crockford.Respells canonical where
  eq_symbol := by
    intro c hc d hd
    rw [value?_crockford, value?_asciiByte hc] at hd
    rw [symbol_crockford, symbol_of_idxOf? hd]
  ascii := ascii_canonical
  value?_eq := by
    intro c hc
    rw [value?_crockford, value?_asciiByte hc, value?_asciiByte (ascii_canonical c hc), canonical_canonical c hc]
  eq_self := fun _ => canonical_of_not_ascii
  value?_eq_none := by
    intro b hb
    rw [value?_crockford, value?_eq_none hb]

end Crockford

/-! ## Encodings -/

namespace Encoding

/-- The spelling that is written, of all that are read alike: small letters in hex, capitals and no
look-alikes in base 32, no zeros in front in decimal. -/
def normal : Encoding → String → String
  | raw, text => String.ofList (Text.Decimal.dropZeros text.toList)
  | hex, text => text.map Char.toLower
  | ascii, text => text.map fun c => Crockford.lookAlike c.toUpper

theorem encode_of_decode {e : Encoding} {f : Format} {text : String} {id : Nat}
    (h : e.decode f text = .ok id) : e.encode f id = .ok (e.normal text) := by
  cases e with
  | raw =>
    obtain ⟨hnumeral, rfl, -⟩ := decodeRaw_eq_ok_iff.1 h
    show Except.ok (Text.Decimal.write _) = _
    unfold Text.Decimal.write
    rw [Text.Decimal.toDigits_value hnumeral]
    rfl
  | hex => exact Hex.respells_toLower.encode_of_decode (mapError_eq_ok.1 h)
  | ascii => exact Crockford.respells_canonical.encode_of_decode (mapError_eq_ok.1 h)

theorem decode_normal {e : Encoding} {f : Format} {text : String} {id : Nat} :
    e.decode f (e.normal text) = .ok id ↔ e.decode f text = .ok id := by
  cases e with
  | raw =>
    show decodeRaw f (String.ofList _) = _ ↔ decodeRaw f text = _
    rw [decodeRaw_eq_ok_iff, decodeRaw_eq_ok_iff, String.toList_ofList, Text.Decimal.isNumeral_dropZeros,
      Text.Decimal.value_dropZeros]
  | hex => exact (mapError_eq_ok.trans Hex.respells_toLower.decode_map).trans mapError_eq_ok.symm
  | ascii => exact (mapError_eq_ok.trans Crockford.respells_canonical.decode_map).trans mapError_eq_ok.symm

/-- **Normal forms.**  Whatever id a text is read as, the id is written as the text's normal form.
So two texts that are read stand for one id exactly when they have one normal form, and a text is
read exactly when its normal form is, as the same id. -/
theorem read_up_to_normal_form (e : Encoding) (f : Format) :
    (∀ text id, e.decode f text = .ok id → e.encode f id = .ok (e.normal text))
      ∧ (∀ text text' id id', e.decode f text = .ok id → e.decode f text' = .ok id' →
        (id = id' ↔ e.normal text = e.normal text'))
      ∧ ∀ text id, e.decode f text = .ok id ↔ e.decode f (e.normal text) = .ok id := by
  refine ⟨fun _ _ => encode_of_decode, ?_, fun _ _ => decode_normal.symm⟩
  intro text text' id id' hread hread'
  constructor
  · rintro rfl
    have hwritten := (encode_of_decode hread).symm.trans (encode_of_decode hread')
    exact Except.ok.inj hwritten
  · intro hnormal
    -- both normal forms are read, so one text is read as both ids
    have hagain := decode_normal.2 hread
    rw [hnormal, decode_normal.2 hread'] at hagain
    exact (Except.ok.inj hagain).symm

/-- Zeros in front, capitals, small letters and look-alikes go, and nothing else changes. -/
theorem spellings_of_small_ids :
    raw.decode .tiny "00042" = .ok 42 ∧ raw.encode .tiny 42 = .ok "42"
      ∧ hex.decode .id48 "00000000BeEF" = .ok 48879 ∧ hex.encode .id48 48879 = .ok "00000000beef"
      ∧ ascii.decode .tiny "oOO0i0L" = .ok 1025 ∧ ascii.decode .tiny "000OLo1" = .ok 1025
      ∧ ascii.normal "oOO0i0L" = ascii.normal "000OLo1" ∧ ascii.decode .tiny "0000101" = .ok 1025 := by
  have hraw : raw.decode .tiny "00042" = .ok 42 := rfl
  have hhex : hex.decode .id48 "00000000BeEF" = .ok 48879 := rfl
  have hsmall : hex.normal "00000000BeEF" = "00000000beef" := String.toList_inj.1 String.toList_map
  have hascii : ascii.decode .tiny "oOO0i0L" = .ok 1025 := rfl
  have hascii' : ascii.decode .tiny "000OLo1" = .ok 1025 := rfl
  have hplain : ascii.normal "oOO0i0L" = "0000101" := String.toList_inj.1 String.toList_map
  have hraw42 := (read_up_to_normal_form raw .tiny).1 _ _ hraw
  have hhexBeef := (read_up_to_normal_form hex .id48).1 _ _ hhex
  obtain ⟨-, halike, hagain⟩ := read_up_to_normal_form ascii .tiny
  have hnormal := (halike _ _ _ _ hascii hascii').1 rfl
  have hread := (hagain _ _).1 hascii
  rw [hsmall] at hhexBeef
  rw [hplain] at hread
  exact ⟨hraw, hraw42, hhex, hhexBeef, hascii, hascii', hnormal, hread⟩

end Encoding

end Snowflake
