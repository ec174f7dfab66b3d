import Snowflake.Generator.Issue
import Snowflake.Proofs.Generator.Rule

/-!
# Forms: an id is the same in every form

An id that fits its format has a text in every encoding, and its container loses none of
its bits.  So a call for an id in any form is the call of `generate` with its id written
down (`generateAs_eq_map`), and comes to the same (`generateAs_cases`): writing never
fails and never costs an id.
-/

namespace Snowflake

/-- What an id is written as. -/
def Encoding.write : Encoding → Format → Nat → String
  | raw, _, id => Text.Decimal.write id
  | hex, f, id => Alphabet.hex.write f id
  | ascii, f, id => Alphabet.crockford.write f id

theorem Encoding.encode_of_fits (e : Encoding) {f : Format} {id : Nat} (h : f.layout.Fits id) :
    e.encode f id = .ok (e.write f id) := by
  cases e with
  | raw => rfl
  | hex => exact if_pos h
  | ascii => exact if_pos h

/-- What an id is written as in the form it was asked for. -/
def Form.write : Form → Format → Nat → String
  | number, _, id => Text.Decimal.write id
  | typed, _, id => Text.Decimal.write id
  | text encoding, f, id => encoding.write f id

/-- An id issued in a form. -/
def Form.issue (form : Form) (f : Format) (id : Nat) : Issue := { raw := id, text := form.write f id }

namespace Generator

variable {σ : Type}

/-- An id that a call gives out fits its format. -/
theorem fits_of_generate {g : Generator} (hg : g.Sound) {c : Clock σ} {f : Format} {patience : Nat} {s : σ} {id : Nat}
    (h : (generate c f patience g s).outcome = .ok id) : f.layout.Fits id := by
  rcases generate_cases c f g (hg f) patience s with ⟨stamp, _, _, _, _, _, ho, _⟩ | ⟨failure, ho, _⟩
  · rw [ho] at h
    cases h
    exact f.layout.fits_idAt ..
  · rw [ho] at h
    cases h

variable (c : Clock σ)

/-- The ids that an outcome gives out. -/
def idsOf (outcome : Except Failure Issue) : List Nat := outcome.toOption.toList.map Issue.raw

/-- All forms are one call of `generate`, written down: no id is lost in writing. -/
theorem generateAs_eq_map (form : Form) (f : Format) (patience : Nat) {g : Generator} (hg : g.Sound) (s : σ) :
    generateAs c form f patience g s = (generate c f patience g s).map (form.issue f) := by
  cases form with
  | number => rfl
  | typed =>
    unfold generateAs
    rw [generateTyped_eq]
    unfold Call.map
    cases ho : (generate c f patience g s).outcome with
    | error failure => rfl
    | ok id =>
      simp only [Except.map, Typed.toNat_ofRaw (fits_of_generate hg ho)]
      rfl
  | text encoding =>
    rw [generateAs_text]
    unfold generateText Call.andThen Call.map
    cases ho : (generate c f patience g s).outcome with
    | error failure => rfl
    | ok id =>
      simp only [Except.bind, encoding.encode_of_fits (fits_of_generate hg ho)]
      rfl

/-- A call in any form issues the id of a stamp that follows the last one and lies on the tick of
the call's last reading, or it fails and leaves the generator as it was. -/
theorem generateAs_cases (form : Form) (f : Format) (patience : Nat) {g : Generator} (hg : g.Sound) (s : σ) :
    (∃ stamp reading, stamp.Fits f.layout ∧ stamp.Follows (g.last.get f)
        ∧ (generateAs c form f patience g s).readings.getLast? = some reading
        ∧ stamp.tick = tickAt f.layout.tickMillis reading
        ∧ (generateAs c form f patience g s).outcome = .ok (form.issue f (f.layout.idAt g.nodeId stamp))
        ∧ (generateAs c form f patience g s).generator = g.remember f stamp)
      ∨ ∃ failure, (generateAs c form f patience g s).outcome = .error failure
        ∧ (generateAs c form f patience g s).generator = g := by
  rw [generateAs_eq_map c form f patience hg]
  unfold Call.map
  dsimp only
  rcases generate_cases c f g (hg f) patience s with
    ⟨stamp, reading, hfits, hfollows, hlast, htick, ho, hgen⟩ | ⟨failure, ho, hgen⟩
  · rw [ho]
    exact Or.inl ⟨stamp, reading, hfits, hfollows, hlast, htick, rfl, hgen⟩
  · rw [ho]
    exact Or.inr ⟨failure, rfl, hgen⟩

end Generator

end Snowflake
