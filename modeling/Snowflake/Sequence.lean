/-!
# Sequences: numbering ids within a tick

A stamp is a tick and a number within it. `next?` gives the stamp after the last one:
number 0 on the first tick and on every later one, one more on the same tick while the
format has numbers left. A full tick or an earlier one is refused, and then the last
stamp stays what it was.
-/

namespace Snowflake

structure Stamp where
  tick : Nat
  sequence : Nat
deriving DecidableEq, Repr

namespace Sequence

/-- The stamp that follows `last` at a tick, if there is one. -/
def next? (last : Option Stamp) (tick maxSequence : Nat) : Option Stamp :=
  match last with
  | none => some ⟨tick, 0⟩
  | some stamp =>
    if stamp.tick < tick then some ⟨tick, 0⟩
    else if stamp.tick = tick ∧ stamp.sequence < maxSequence then some ⟨tick, stamp.sequence + 1⟩
    else none

/-- The stamp to remember after asking: the new one, or the old one if there is none. -/
def after (last : Option Stamp) (tick maxSequence : Nat) : Option Stamp :=
  (next? last tick maxSequence).or last

/-- Asks for one stamp after the other; each answer comes with the stamp remembered after it. -/
def run : Option Stamp → List (Nat × Nat) → List (Option Stamp × Option Stamp)
  | _, [] => []
  | last, (tick, maxSequence) :: steps =>
    (next? last tick maxSequence, after last tick maxSequence)
      :: run (after last tick maxSequence) steps

/-! ## Lemmas -/

theorem next?_none (tick maxSequence : Nat) : next? none tick maxSequence = some ⟨tick, 0⟩ := rfl

theorem next?_of_lt {stamp : Stamp} {tick : Nat} (maxSequence : Nat) (h : stamp.tick < tick) :
    next? (some stamp) tick maxSequence = some ⟨tick, 0⟩ := by simp [next?, h]

theorem next?_same (stamp : Stamp) (maxSequence : Nat) :
    next? (some stamp) stamp.tick maxSequence
      = if stamp.sequence < maxSequence then some ⟨stamp.tick, stamp.sequence + 1⟩ else none := by
  simp [next?]

/-- A stamp is refused on an earlier tick, and on the last one when its numbers are used up. -/
theorem next?_eq_none {last : Option Stamp} {tick maxSequence : Nat} :
    next? last tick maxSequence = none
      ↔ ∃ stamp, last = some stamp
          ∧ (tick < stamp.tick ∨ (stamp.tick = tick ∧ maxSequence ≤ stamp.sequence)) := by
  cases last with
  | none => simp [next?]
  | some stamp =>
    simp only [next?, Option.some.injEq, exists_eq_left']
    split
    · simp only [reduceCtorEq, false_iff]
      omega
    · split
      · simp only [reduceCtorEq, false_iff]
        omega
      · simp only [true_iff]
        omega

end Sequence

end Snowflake
