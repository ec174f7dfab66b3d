import Snowflake.Format
import Snowflake.Proofs.Text.Trimmed

/-!
# Names of formats: which texts name one

A format has a short name, and three of the five are also known with `id` in front of it
(`Format.names`).  A text spells a name in any case and with blanks around it
(`Format.Spells`).  Reading drops one `id` from whatever is spelled before it looks at the rest,
so it takes the short name of every format with `id` in front:

    ofName? text = some f ↔ Spells text f.shortName ∨ Spells text ("id" ++ f.shortName)
                                                                        (ofName?_eq_some_iff)

These are the names of the formats and two more words, one for each of the two formats whose
names have no `id`.
-/

namespace Snowflake.Format

/-- The name of a format without `id` in front. -/
def shortName : Format → String
  | tiny => "tiny"
  | mini => "mini"
  | id48 => "48"
  | id64 => "64"
  | id128 => "128"

/-- The names that a format goes by. -/
def names : Format → List String
  | tiny => ["tiny"]
  | mini => ["mini"]
  | id48 => ["48", "id48"]
  | id64 => ["64", "id64"]
  | id128 => ["128", "id128"]

/-- The text is the word, in letters of any case and with blanks around it. -/
def Spells (text word : String) : Prop :=
  ∃ bare, Text.Trimmed text.toList bare ∧ bare.map Char.toLower = word.toList

variable {text word : String} {f : Format}

/-! ## Spelling -/

theorem spells_iff : Spells text word ↔ (Text.trim text.toList).map Char.toLower = word.toList := by
  unfold Spells
  simp only [← Text.trim_eq_iff, exists_eq_left']

instance : Decidable (Spells text word) := decidable_of_iff _ spells_iff.symm

/-- A text spells one word. -/
theorem Spells.unique {word' : String} (h : Spells text word) (h' : Spells text word') : word = word' :=
  String.toList_inj.1 ((spells_iff.1 h).symm.trans (spells_iff.1 h'))

/-! ## Reading -/

theorem ofShortName?_eq_some_iff {cs : List Char} : ofShortName? cs = some f ↔ cs = f.shortName.toList := by
  constructor
  · intro h
    unfold ofShortName? at h
    split at h <;> cases h <;> rfl
  · rintro rfl
    cases f <;> rfl

/-- What is left without `id` is the word if the word was there, with or without `id`. -/
theorem dropId_eq_iff {cs word : List Char} (hword : ∀ rest, word ≠ 'i' :: 'd' :: rest) :
    dropId cs = word ↔ cs = word ∨ cs = 'i' :: 'd' :: word := by
  fun_cases dropId cs with
  | case1 rest =>
    constructor
    · rintro rfl
      exact Or.inr rfl
    · rintro (h | h)
      · exact absurd h.symm (hword rest)
      · cases h
        rfl
  | case2 cs hother =>
    constructor
    · exact Or.inl
    · rintro (h | h)
      · exact h
      · exact (hother _ h).elim

/-- **Reading.**  Read are the short names of the formats, each with or without `id` in front. -/
theorem ofName?_eq_some_iff :
    ofName? text = some f ↔ Spells text f.shortName ∨ Spells text ("id" ++ f.shortName) := by
  have hshort : ∀ rest, f.shortName.toList ≠ 'i' :: 'd' :: rest := by
    intro rest h
    cases f <;> cases h
  have hid : ("id" ++ f.shortName).toList = 'i' :: 'd' :: f.shortName.toList := String.toList_append
  unfold ofName?
  rw [ofShortName?_eq_some_iff, dropId_eq_iff hshort, spells_iff, spells_iff, hid]

/-! ## Names and other words -/

/-- The words that are read as a format: its names, and for a format whose names have no `id` one more. -/
theorem spells_iff_named : (Spells text f.shortName ∨ Spells text ("id" ++ f.shortName))
    ↔ (∃ word ∈ f.names, Spells text word)
      ∨ (f = .tiny ∧ Spells text "idtiny") ∨ (f = .mini ∧ Spells text "idmini") := by
  cases f <;> simp [names, shortName]

/-- Neither of the two words is a name of a format. -/
theorem not_named {word : String} (hword : word = "idtiny" ∨ word = "idmini") (h : Spells text word) :
    ¬∃ name ∈ f.names, Spells text name := by
  rintro ⟨name, hname, hspells⟩
  rw [← h.unique hspells] at hname
  rcases hword with rfl | rfl <;> cases f <;> simp [names] at hname

/-- **Names.**  A text is read as a format exactly if it spells a name of the format, or one of two words
besides.  Where it spells neither of the two, it is read by the names alone. -/
theorem read_by_name_iff (text : String) :
    (∀ f, ofName? text = some f ↔ (∃ word ∈ f.names, Spells text word)
        ∨ (f = .tiny ∧ Spells text "idtiny") ∨ (f = .mini ∧ Spells text "idmini"))
      ∧ ((∀ f, ofName? text = some f ↔ ∃ word ∈ f.names, Spells text word)
        ↔ ¬Spells text "idtiny" ∧ ¬Spells text "idmini") := by
  have hread : ∀ f, ofName? text = some f ↔ (∃ word ∈ f.names, Spells text word)
      ∨ (f = .tiny ∧ Spells text "idtiny") ∨ (f = .mini ∧ Spells text "idmini") :=
    fun f => ofName?_eq_some_iff.trans spells_iff_named
  refine ⟨hread, ?_, ?_⟩
  · intro hnamed
    constructor
    · intro h
      exact not_named (Or.inl rfl) h ((hnamed .tiny).1 ((hread .tiny).2 (Or.inr (Or.inl ⟨rfl, h⟩))))
    · intro h
      exact not_named (Or.inr rfl) h ((hnamed .mini).1 ((hread .mini).2 (Or.inr (Or.inr ⟨rfl, h⟩))))
  · rintro ⟨htiny, hmini⟩ f
    rw [hread f]
    constructor
    · rintro (h | ⟨-, h⟩ | ⟨-, h⟩)
      · exact h
      · exact absurd h htiny
      · exact absurd h hmini
    · exact Or.inl

/-- A word that is no name of any format and is read as one. -/
theorem read_without_name : ofName? "idtiny" = some .tiny ∧ ∀ f : Format, ¬∃ word ∈ f.names, Spells "idtiny" word :=
  ⟨by decide +kernel, fun _ => not_named (Or.inl rfl) (by decide +kernel)⟩

end Snowflake.Format
