import Snowflake.Proofs.Codec.RoundTrip

/-!
# Plain texts: what can stand in a field of a line

A plain text has no tab and no end of line in it.  So fields that are plain are found again
in the line that is made of them, and lines in the text that is made of them:

    pieces '\t' ("\t".intercalate fields) = fields                      (pieces_intercalate)
    pieces '\n' (String.join (lines.map (· ++ "\n"))) = lines ++ [""]    (pieces_join)

Whatever an encoding reads as an id is plain (`plain_of_decode`): no grammar of the three has
either character.
-/

namespace Snowflake

namespace Text

/-- The text has no tab and no end of line. -/
def Plain (s : String) : Prop := '\t' ∉ s.toList ∧ '\n' ∉ s.toList

instance (s : String) : Decidable (Plain s) := inferInstanceAs (Decidable (_ ∧ _))

/-- The text cut at every place where the separator stands. -/
def pieces (separator : Char) (s : String) : List String := (s.toList.splitOn separator).map String.ofList

/-! ## Pieces -/

theorem pieces_intercalate {separator : Char} {fields : List String} (h : ∀ s ∈ fields, separator ∉ s.toList)
    (hne : fields ≠ []) : pieces separator ((String.singleton separator).intercalate fields) = fields := by
  have hchars : ∀ cs ∈ fields.map String.toList, separator ∉ cs := by
    intro cs hcs
    obtain ⟨s, hs, rfl⟩ := List.mem_map.1 hcs
    exact h s hs
  unfold pieces
  rw [String.toList_intercalate, String.toList_singleton,
    List.splitOn_intercalate separator hchars (mt List.map_eq_nil_iff.1 hne), List.map_map]
  simp

/-- A character that is neither in the fields nor in what stands between them is not in the line. -/
theorem not_mem_intercalate {c : Char} {separator : String} (hseparator : c ∉ separator.toList) :
    ∀ {fields : List String}, (∀ s ∈ fields, c ∉ s.toList) → c ∉ (separator.intercalate fields).toList
  | [], _ => by simp
  | [s], h => by
    rw [String.intercalate_singleton]
    exact h s (List.mem_singleton_self s)
  | s :: t :: fields, h => by
    have hrest := not_mem_intercalate hseparator fun u hu => h u (List.mem_cons_of_mem s hu)
    rw [String.intercalate_cons_cons, String.toList_append, String.toList_append, List.mem_append, List.mem_append,
      not_or, not_or]
    exact ⟨⟨h s List.mem_cons_self, hseparator⟩, hrest⟩

/-- A text of ended lines is cut into the lines, and nothing is left after the last end. -/
theorem pieces_join {separator : Char} {lines : List String} (h : ∀ line ∈ lines, separator ∉ line.toList) :
    pieces separator (String.join (lines.map (· ++ String.singleton separator))) = lines ++ [""] := by
  unfold pieces
  rw [String.toList_join]
  induction lines with
  | nil => simp
  | cons line lines ih =>
    have hrest := ih fun other hother => h other (List.mem_cons_of_mem line hother)
    rw [List.map_cons, List.flatMap_cons, String.toList_append, String.toList_singleton, List.append_assoc,
      List.singleton_append, List.splitOn_append_cons_self_of_not_mem (h line List.mem_cons_self), List.map_cons,
      String.ofList_toList, hrest, List.cons_append]

/-! ## Plain texts -/

theorem plain_append {s t : String} : Plain (s ++ t) ↔ Plain s ∧ Plain t := by
  unfold Plain
  rw [String.toList_append, List.mem_append, List.mem_append, not_or, not_or, and_and_and_comm]

theorem plain_ofList {cs : List Char} (h : ∀ c ∈ cs, c.isDigit = true) : Plain (String.ofList cs) := by
  unfold Plain
  rw [String.toList_ofList]
  constructor
  · intro hc
    exact absurd (h _ hc) (by decide)
  · intro hc
    exact absurd (h _ hc) (by decide)

theorem plain_write (n : Nat) : Plain (Decimal.write n) := plain_ofList fun _ => Decimal.isDigit_of_mem_toDigits

theorem plain_writePadded (width n : Nat) : Plain (Decimal.writePadded width n) := by
  refine plain_ofList fun c hc => ?_
  rcases List.mem_append.1 hc with hc | hc
  · rw [List.eq_of_mem_replicate hc]
    rfl
  · exact Decimal.isDigit_of_mem_toDigits hc

end Text

/-! ## Texts of ids -/

/-- A character of ASCII in a text that is read stands for a digit. -/
theorem Alphabet.isSome_value?_of_decode {A : Alphabet} {f : Format} {text : String} {raw : Nat}
    (h : A.decode f text = .ok raw) {c : Char} (hc : c ∈ text.toList) (hascii : c.toNat < 128) :
    (A.value? (Text.asciiByte c)).isSome = true := by
  obtain ⟨ds, hds, -⟩ := A.decode_eq_ok_iff.1 h
  have hbyte : Text.asciiByte c ∈ Text.bytes text := by
    refine List.mem_flatMap.2 ⟨c, hc, ?_⟩
    rw [Text.utf8EncodeChar_ascii hascii]
    exact List.mem_singleton_self _
  have hmem : A.value? (Text.asciiByte c) ∈ ds.map some := hds ▸ List.mem_map_of_mem hbyte
  obtain ⟨d, -, hd⟩ := List.mem_map.1 hmem
  rw [← hd]
  rfl

theorem Alphabet.plain_of_decode {A : Alphabet} (htab : A.value? (Text.asciiByte '\t') = none)
    (hend : A.value? (Text.asciiByte '\n') = none) {f : Format} {text : String} {raw : Nat}
    (h : A.decode f text = .ok raw) : Text.Plain text := by
  constructor
  · intro hc
    have hdigit := isSome_value?_of_decode h hc (by decide)
    rw [htab] at hdigit
    cases hdigit
  · intro hc
    have hdigit := isSome_value?_of_decode h hc (by decide)
    rw [hend] at hdigit
    cases hdigit

/-- Whatever is read as an id is plain. -/
theorem Encoding.plain_of_decode {e : Encoding} {f : Format} {text : String} {id : Nat}
    (h : e.decode f text = .ok id) : Text.Plain text := by
  cases e with
  | raw =>
    have hnumeral := (decodeRaw_eq_ok_iff.1 h).1
    unfold Text.Decimal.isNumeral at hnumeral
    rw [Bool.and_eq_true, List.all_eq_true] at hnumeral
    rw [← String.ofList_toList (s := text)]
    exact Text.plain_ofList hnumeral.2
  | hex => exact Alphabet.plain_of_decode rfl rfl (mapError_eq_ok.1 h)
  | ascii => exact Alphabet.plain_of_decode rfl rfl (mapError_eq_ok.1 h)

end Snowflake
