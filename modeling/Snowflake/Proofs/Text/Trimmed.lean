import Mathlib.Data.List.DropRight
import Snowflake.Text.Blank

/-!
# Trimmed texts: what stands between the blanks

`Trimmed cs word` tells what trimming comes to and not how it is done: blanks stand before
`word` and blanks after it, and `word` itself neither starts nor ends with one.  Each text
has one such word, also where it is nothing but blanks, and `trim` finds it:

    trim cs = word ↔ Trimmed cs word                                   (trim_eq_iff)
-/

namespace Snowflake.Text

/-- The text neither starts nor ends with a blank. -/
def Bare (cs : List Char) : Prop :=
  (∀ c ∈ cs.head?, isBlank c = false) ∧ ∀ c ∈ cs.getLast?, isBlank c = false

/-- The word is what stands in the text between the blanks around it. -/
structure Trimmed (cs word : List Char) : Prop where
  exists_blanks : ∃ before after, cs = before ++ (word ++ after)
    ∧ (∀ c ∈ before, isBlank c = true) ∧ ∀ c ∈ after, isBlank c = true
  bare : Bare word

variable {cs word : List Char}

theorem bare_of_forall (h : ∀ c ∈ cs, isBlank c = false) : Bare cs :=
  ⟨fun c hc => h c (List.mem_of_head? hc), fun c hc => h c (List.mem_of_getLast? hc)⟩

theorem Bare.trimmed (h : Bare cs) : Trimmed cs cs :=
  ⟨⟨[], [], (List.append_nil cs).symm, List.forall_mem_nil _, List.forall_mem_nil _⟩, h⟩

/-! ## Blanks at the start -/

theorem isBlank_of_mem_head?_dropWhile (cs : List Char) {c : Char} (h : c ∈ (cs.dropWhile isBlank).head?) :
    isBlank c = false := by
  have hhead := List.head?_dropWhile_not isBlank cs
  rw [Option.mem_def.1 h] at hhead
  exact hhead

theorem dropWhile_isBlank_eq_self (h : ∀ c ∈ cs.head?, isBlank c = false) : cs.dropWhile isBlank = cs := by
  cases cs with
  | nil => rfl
  | cons c cs =>
    have hc := h c rfl
    exact List.dropWhile_cons_of_neg (by rw [hc]; exact Bool.false_ne_true)

/-! ## Trimming -/

/-- What is left by `trim` stands between blanks. -/
theorem trimmed_trim (cs : List Char) : Trimmed cs (trim cs) := by
  have hsplit : cs.dropWhile isBlank = trim cs ++ (cs.dropWhile isBlank).rtakeWhile isBlank :=
    List.rdropWhile_append_rtakeWhile.symm
  refine ⟨⟨cs.takeWhile isBlank, (cs.dropWhile isBlank).rtakeWhile isBlank, ?_, ?_, ?_⟩, ?_, ?_⟩
  · rw [← hsplit]
    exact List.takeWhile_append_dropWhile.symm
  · exact fun c hc => List.mem_takeWhile_imp hc
  · exact fun c hc => List.mem_rtakeWhile_imp hc
  · -- the word starts where the blanks in front of it end
    intro c hc
    apply isBlank_of_mem_head?_dropWhile cs
    rw [hsplit, List.head?_append, Option.mem_def.1 hc]
    rfl
  · intro c hc
    apply isBlank_of_mem_head?_dropWhile (cs.dropWhile isBlank).reverse
    rw [← List.getLast?_reverse]
    exact hc

theorem Trimmed.trim_eq (h : Trimmed cs word) : trim cs = word := by
  obtain ⟨⟨before, after, rfl, hbefore, hafter⟩, hhead, hlast⟩ := h
  have hback : ∀ c ∈ after.reverse, isBlank c = true := fun c hc => hafter c (List.mem_reverse.1 hc)
  have hword : word.reverse.dropWhile isBlank = word.reverse := by
    apply dropWhile_isBlank_eq_self
    rw [List.head?_reverse]
    exact hlast
  unfold trim
  rw [List.dropWhile_append_of_pos hbefore]
  cases word with
  | nil => rw [List.nil_append, List.dropWhile_eq_nil_iff.2 hafter]; rfl
  | cons c rest =>
    have hfront : (c :: rest ++ after).dropWhile isBlank = c :: rest ++ after := dropWhile_isBlank_eq_self hhead
    rw [hfront, List.reverse_append, List.dropWhile_append_of_pos hback, hword, List.reverse_reverse]

/-- **Trimming.**  A text is trimmed to the word between its blanks, and to nothing else. -/
theorem trim_eq_iff : trim cs = word ↔ Trimmed cs word := by
  constructor
  · rintro rfl
    exact trimmed_trim cs
  · exact Trimmed.trim_eq

end Snowflake.Text
