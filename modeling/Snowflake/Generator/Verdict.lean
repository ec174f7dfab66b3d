import Snowflake.Layout
import Snowflake.Sequence

/-!
# Verdicts: what a tick allows, given the last stamp

On a tick there are three possibilities, and they are looked at in this order:

* `wait`: the tick is behind the last one; whatever the range, the clock will catch up;
* `refuse`: the tick is out of the layout's range;
* `issue`, with the timestamp field and the stamp, if the sequence has a number left,
  and `wait` if it has none.
-/

namespace Snowflake

inductive Verdict where
  | issue (timestamp : Nat) (stamp : Stamp)
  | refuse
  /-- Wait until this tick has passed. -/
  | wait (tick : Nat)
deriving DecidableEq, Repr

namespace Verdict

/-- The verdict on a tick that is not behind the last one. -/
def onRange (L : Layout) (last : Option Stamp) (tick : Nat) : Verdict :=
  match L.timestampOf? tick with
  | none => refuse
  | some timestamp =>
    match Sequence.next? last tick L.maxSequence with
    | some stamp => issue timestamp stamp
    | none => wait ((last.map Stamp.tick).getD tick)

def onTick (L : Layout) (last : Option Stamp) (tick : Nat) : Verdict :=
  match last with
  | none => onRange L none tick
  | some stamp => if tick < stamp.tick then wait stamp.tick else onRange L last tick

/-! ## Lemmas -/

theorem onTick_none (L : Layout) (tick : Nat) : onTick L none tick = onRange L none tick := rfl

theorem onTick_behind (L : Layout) {stamp : Stamp} {tick : Nat} (h : tick < stamp.tick) :
    onTick L (some stamp) tick = wait stamp.tick := by
  simp [onTick, h]

theorem onTick_of_le (L : Layout) {stamp : Stamp} {tick : Nat} (h : stamp.tick ≤ tick) :
    onTick L (some stamp) tick = onRange L (some stamp) tick := by
  simp [onTick, Nat.not_lt.2 h]

/-- On a tick that no stamp has reached, nothing is waited for. -/
theorem onRange_of_fresh (L : Layout) {last : Option Stamp} {tick : Nat}
    (h : ∀ stamp ∈ last, stamp.tick < tick) :
    onRange L last tick
      = match L.timestampOf? tick with
        | none => refuse
        | some timestamp => issue timestamp ⟨tick, 0⟩ := by
  unfold onRange
  cases last with
  | none => rfl
  | some stamp => rw [Sequence.next?_of_lt _ (h stamp rfl)]

/-- Only the last stamp's tick is ever waited for. -/
theorem eq_of_onTick_eq_wait {L : Layout} {last : Option Stamp} {tick t : Nat}
    (h : onTick L last tick = wait t) : ∃ stamp, last = some stamp ∧ stamp.tick = t := by
  cases last with
  | none =>
    simp only [onTick_none, onRange, Sequence.next?_none] at h
    split at h <;> cases h
  | some stamp =>
    refine ⟨stamp, rfl, ?_⟩
    rcases Nat.lt_or_ge tick stamp.tick with hlt | hge
    · rw [onTick_behind L hlt] at h
      exact Verdict.wait.inj h
    · rw [onTick_of_le L hge, onRange] at h
      split at h
      · cases h
      · split at h
        · cases h
        · exact Verdict.wait.inj h

end Verdict

end Snowflake
