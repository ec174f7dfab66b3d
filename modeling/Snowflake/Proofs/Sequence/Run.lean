import Snowflake.Proofs.Generator.Issuance
import Snowflake.Word

/-!
# Runs of a sequence: the stamps it gives and the steps it refuses

A sequence is asked for a stamp on one tick after the other, each time with the greatest number
that is allowed; ticks may come again or go back, and what is allowed may shrink.  It remembers
the last stamp that it gave and nothing else:

    remembered last steps = (given (run last steps)).getLast?.or last         (remembered_eq)

A step is given a stamp if its tick is past the last one, or is the last one with numbers left
(`isSome_next?`); so the stamps go up, tick first (`order_given`).  A refused step leaves the
memory as it was, so the run is the same without it (`run_accepted`).
-/

namespace Snowflake

/-- The stamp is of an earlier tick, or of the same tick with a smaller number. -/
def Stamp.Before (a b : Stamp) : Prop := a.tick < b.tick ∨ (a.tick = b.tick ∧ a.sequence < b.sequence)

theorem Stamp.Before.trans {a b c : Stamp} (hab : a.Before b) (hbc : b.Before c) : a.Before c := by
  unfold Stamp.Before at *
  omega

namespace Sequence

/-- The stamps that answers give, in order. -/
def given (answers : List (Option Stamp × Option Stamp)) : List Stamp := answers.filterMap Prod.fst

/-- The stamp that is remembered after the steps. -/
def remembered (last : Option Stamp) (steps : List (Nat × Nat)) : Option Stamp :=
  steps.foldl (fun last (tick, maxSequence) => after last tick maxSequence) last

/-- The steps of a run that are given a stamp. -/
def accepted (last : Option Stamp) (steps : List (Nat × Nat)) : List (Nat × Nat) :=
  ((steps.zip (run last steps)).filter fun (_, answer) => answer.1.isSome).map Prod.fst

/-! ## One step -/

variable {last : Option Stamp} {tick maxSequence : Nat} {stamp : Stamp}

theorem after_of_none (h : next? last tick maxSequence = none) : after last tick maxSequence = last := by
  unfold after
  rw [h]
  rfl

theorem after_of_some (h : next? last tick maxSequence = some stamp) : after last tick maxSequence = some stamp := by
  unfold after
  rw [h]
  rfl

/-- A step is given a stamp unless its tick is behind the last one, or is the last one and used up. -/
theorem isSome_next? :
    (next? last tick maxSequence).isSome = true
      ↔ last = none ∨ ∃ l, last = some l ∧ (l.tick < tick ∨ (l.tick = tick ∧ l.sequence < maxSequence)) := by
  cases last with
  | none => simp [next?_none]
  | some l =>
    simp only [reduceCtorEq, Option.some.injEq, false_or, exists_eq_left']
    unfold next?
    dsimp only
    split
    · next hlt => exact iff_of_true rfl (Or.inl hlt)
    · next hlt =>
      split
      · next hsame => exact iff_of_true rfl (Or.inr hsame)
      · next hsame => exact iff_of_false Bool.false_ne_true (not_or.2 ⟨hlt, hsame⟩)

/-- A stamp that follows the last one comes after it. -/
theorem before_of_follows (h : stamp.Follows last) : ∀ l ∈ last, l.Before stamp := by
  rintro l rfl
  unfold Stamp.Follows at h
  unfold Stamp.Before
  omega

/-! ## Runs -/

variable {steps : List (Nat × Nat)}

theorem run_cons (last : Option Stamp) (tick maxSequence : Nat) (steps : List (Nat × Nat)) :
    run last ((tick, maxSequence) :: steps)
      = (next? last tick maxSequence, after last tick maxSequence) :: run (after last tick maxSequence) steps := rfl

theorem remembered_cons (last : Option Stamp) (tick maxSequence : Nat) (steps : List (Nat × Nat)) :
    remembered last ((tick, maxSequence) :: steps) = remembered (after last tick maxSequence) steps := rfl

/-- A refused step leaves the rest of the run to what was remembered before it. -/
theorem given_run_cons_of_none (h : next? last tick maxSequence = none) (steps : List (Nat × Nat)) :
    given (run last ((tick, maxSequence) :: steps)) = given (run last steps) := by
  rw [run_cons, h, after_of_none h]
  rfl

theorem given_run_cons_of_some (h : next? last tick maxSequence = some stamp) (steps : List (Nat × Nat)) :
    given (run last ((tick, maxSequence) :: steps)) = stamp :: given (run (some stamp) steps) := by
  rw [run_cons, h, after_of_some h]
  rfl

theorem run_append (last : Option Stamp) (steps steps' : List (Nat × Nat)) :
    run last (steps ++ steps') = run last steps ++ run (remembered last steps) steps' := by
  induction steps generalizing last with
  | nil => rfl
  | cons step steps ih =>
    obtain ⟨tick, maxSequence⟩ := step
    exact congrArg _ (ih _)

theorem take_run (last : Option Stamp) (steps : List (Nat × Nat)) (i : Nat) :
    (run last steps).take i = run last (steps.take i) := by
  induction steps generalizing last i with
  | nil => simp [run]
  | cons step steps ih =>
    cases i with
    | zero => rfl
    | succ i => exact congrArg _ (ih _ i)

/-- A step is answered from what is remembered after the steps before it. -/
theorem getElem?_run (last : Option Stamp) {i : Nat} (h : steps[i]? = some (tick, maxSequence)) :
    (run last steps)[i]?
      = some (next? (remembered last (steps.take i)) tick maxSequence,
          after (remembered last (steps.take i)) tick maxSequence) := by
  induction steps generalizing last i with
  | nil => cases h
  | cons step steps ih =>
    cases i with
    | zero =>
      cases h
      rfl
    | succ i => exact ih _ h

/-- What is remembered is the last stamp given. -/
theorem remembered_eq (last : Option Stamp) (steps : List (Nat × Nat)) :
    remembered last steps = (given (run last steps)).getLast?.or last := by
  induction steps generalizing last with
  | nil => rfl
  | cons step steps ih =>
    obtain ⟨tick, maxSequence⟩ := step
    rw [remembered_cons, ih]
    cases h : next? last tick maxSequence with
    | none => rw [given_run_cons_of_none h, after_of_none h]
    | some stamp =>
      rw [given_run_cons_of_some h, after_of_some h, List.getLast?_cons, Option.some_or]
      cases (given (run (some stamp) steps)).getLast? <;> rfl

/-- Every stamp given is on the tick of a step, with a number that the step allows. -/
theorem exists_step_of_mem_given (h : stamp ∈ given (run last steps)) :
    ∃ step ∈ steps, stamp.tick = step.1 ∧ stamp.sequence ≤ step.2 := by
  induction steps generalizing last with
  | nil => cases h
  | cons step steps ih =>
    obtain ⟨tick, maxSequence⟩ := step
    cases hnext : next? last tick maxSequence with
    | none =>
      rw [given_run_cons_of_none hnext] at h
      obtain ⟨step, hstep, hle⟩ := ih h
      exact ⟨step, List.mem_cons_of_mem _ hstep, hle⟩
    | some next =>
      rw [given_run_cons_of_some hnext] at h
      rcases List.mem_cons.1 h with rfl | hlater
      · obtain ⟨htick, -, hle⟩ := next?_eq_some.1 hnext
        exact ⟨_, List.mem_cons_self, htick, hle⟩
      · obtain ⟨step, hstep, hle⟩ := ih hlater
        exact ⟨step, List.mem_cons_of_mem _ hstep, hle⟩

/-- The stamps of a run come after the last one before it, and go up. -/
theorem order_given (last : Option Stamp) (steps : List (Nat × Nat)) :
    (∀ stamp ∈ given (run last steps), ∀ l ∈ last, l.Before stamp)
      ∧ (given (run last steps)).Pairwise Stamp.Before := by
  induction steps generalizing last with
  | nil => exact ⟨fun _ h => (nomatch h), .nil⟩
  | cons step steps ih =>
    obtain ⟨tick, maxSequence⟩ := step
    cases hnext : next? last tick maxSequence with
    | none =>
      rw [given_run_cons_of_none hnext]
      exact ih last
    | some next =>
      rw [given_run_cons_of_some hnext]
      obtain ⟨hlater, horder⟩ := ih (some next)
      obtain ⟨-, hfollows, -⟩ := next?_eq_some.1 hnext
      have hfirst := before_of_follows hfollows
      constructor
      · intro stamp hstamp l hl
        rcases List.mem_cons.1 hstamp with rfl | hmem
        · exact hfirst l hl
        · exact (hfirst l hl).trans (hlater stamp hmem next rfl)
      · exact List.pairwise_cons.2 ⟨fun stamp hstamp => hlater stamp hstamp next rfl, horder⟩

/-! ## Refused steps -/

theorem accepted_cons_of_none (h : next? last tick maxSequence = none) (steps : List (Nat × Nat)) :
    accepted last ((tick, maxSequence) :: steps) = accepted last steps := by
  unfold accepted
  rw [run_cons, List.zip_cons_cons, List.filter_cons_of_neg (by simp [h]), after_of_none h]

theorem accepted_cons_of_some (h : next? last tick maxSequence = some stamp) (steps : List (Nat × Nat)) :
    accepted last ((tick, maxSequence) :: steps) = (tick, maxSequence) :: accepted (some stamp) steps := by
  unfold accepted
  rw [run_cons, List.zip_cons_cons, List.filter_cons_of_pos (by simp [h]), after_of_some h]
  rfl

/-- **Refusals.**  Without the steps that it refuses, a run gives the other answers as before. -/
theorem run_accepted (last : Option Stamp) (steps : List (Nat × Nat)) :
    run last (accepted last steps) = (run last steps).filter fun answer => answer.1.isSome := by
  induction steps generalizing last with
  | nil => rfl
  | cons step steps ih =>
    obtain ⟨tick, maxSequence⟩ := step
    rw [run_cons]
    cases h : next? last tick maxSequence with
    | none => rw [accepted_cons_of_none h, ih, List.filter_cons_of_neg (by simp), after_of_none h]
    | some stamp =>
      rw [accepted_cons_of_some h, run_cons, h, after_of_some h, ih, List.filter_cons_of_pos (by simp)]

/-! ## Steps in a row -/

/-- On a tick that is begun, the numbers that are left are given one by one, and then no more. -/
theorem run_replicate_same (tick : Nat) {m n : Nat} (hn : n ≤ m) (k : Nat) :
    (run (some ⟨tick, n⟩) (List.replicate k (tick, m))).map Prod.fst
      = (List.range' (n + 1) (min k (m - n))).map (fun number => some ⟨tick, number⟩)
        ++ List.replicate (k - (m - n)) none := by
  induction k generalizing n with
  | zero => simp [run]
  | succ k ih =>
    have hnext := next?_same ⟨tick, n⟩ m
    rw [List.replicate_succ, run_cons, List.map_cons]
    rcases Nat.lt_or_eq_of_le hn with hlt | rfl
    · rw [if_pos hlt] at hnext
      have hleft : min (k + 1) (m - n) = min k (m - (n + 1)) + 1 := by omega
      have hrest : k + 1 - (m - n) = k - (m - (n + 1)) := by omega
      rw [hnext, after_of_some hnext, ih hlt, hleft, hrest, List.range'_succ]
      rfl
    · rw [if_neg (Nat.lt_irrefl _)] at hnext
      rw [hnext, after_of_none hnext, ih (Nat.le_refl n)]
      simp [List.replicate_succ]

/-- On a new tick the numbers from zero on are given, and then no more. -/
theorem run_replicate_new (hnew : ∀ l ∈ last, l.tick < tick) (k m : Nat) :
    (run last (List.replicate k (tick, m))).map Prod.fst
      = (List.range (min k (m + 1))).map (fun number => some ⟨tick, number⟩) ++ List.replicate (k - (m + 1)) none := by
  cases k with
  | zero => simp [run]
  | succ k =>
    have hnext : next? last tick m = some ⟨tick, 0⟩ := by
      cases last with
      | none => rfl
      | some l => exact next?_of_lt m (hnew l rfl)
    rw [List.replicate_succ, run_cons, List.map_cons, hnext, after_of_some hnext,
      run_replicate_same tick (Nat.zero_le m), Nat.add_min_add_right, Nat.add_sub_add_right, List.range_eq_range', List.range'_succ]
    rfl

/-! ## The law of a fresh sequence -/

/-- What the answer to one step is, when `last` is the stamp given last. -/
structure Answers (last : Option Stamp) (tick maxSequence : Nat) (answer : Option Stamp) : Prop where
  isSome_iff : answer.isSome = true
    ↔ last = none ∨ ∃ l, last = some l ∧ (l.tick < tick ∨ (l.tick = tick ∧ l.sequence < maxSequence))
  tick_eq : ∀ stamp ∈ answer, stamp.tick = tick
  sequence_le : ∀ stamp ∈ answer, stamp.sequence ≤ maxSequence
  sequence_same : ∀ stamp ∈ answer, ∀ l ∈ last, l.tick = tick → stamp.sequence = l.sequence + 1
  sequence_new : ∀ stamp ∈ answer, (∀ l ∈ last, l.tick ≠ tick) → stamp.sequence = 0

theorem answers_next? (last : Option Stamp) (tick maxSequence : Nat) :
    Answers last tick maxSequence (next? last tick maxSequence) where
  isSome_iff := isSome_next?
  tick_eq stamp h := (next?_eq_some.1 h).1
  sequence_le stamp h := (next?_eq_some.1 h).2.2
  sequence_same stamp h l hl hsame := by
    cases hl
    obtain ⟨htick, hfollows, -⟩ := next?_eq_some.1 h
    unfold Stamp.Follows at hfollows
    omega
  sequence_new stamp h hnew := by
    obtain ⟨htick, hfollows, -⟩ := next?_eq_some.1 h
    cases last with
    | none => exact hfollows
    | some l =>
      have hne := hnew l rfl
      unfold Stamp.Follows at hfollows
      omega

/-- **A fresh sequence.**  The stamps go up, tick first, and no number goes past the greatest word if no
maximum does.  Each step is answered from the stamp given last before it, and changes what is remembered only
if it is given one itself; without its refused steps the run gives the other answers as before.  Steps in a
row on a new tick are given the numbers from zero to the maximum, and then no more. -/
theorem stamps_in_order (steps : List (Nat × Nat)) :
    (given (run none steps)).Pairwise Stamp.Before
      ∧ ((∀ step ∈ steps, step.2 ≤ wordMax) → ∀ stamp ∈ given (run none steps), stamp.sequence ≤ wordMax)
      ∧ (∀ (i tick maxSequence : Nat), steps[i]? = some (tick, maxSequence) →
          let last := (given ((run none steps).take i)).getLast?
          ∃ answer, (run none steps)[i]? = some (answer, answer.or last) ∧ Answers last tick maxSequence answer)
      ∧ run none (accepted none steps) = (run none steps).filter (fun answer => answer.1.isSome)
      ∧ ∀ (tick k maxSequence : Nat), (∀ l ∈ (given (run none steps)).getLast?, l.tick < tick) →
          (run none (steps ++ List.replicate k (tick, maxSequence))).map Prod.fst
            = (run none steps).map Prod.fst
              ++ (List.range (min k (maxSequence + 1))).map (fun number => some ⟨tick, number⟩)
              ++ List.replicate (k - (maxSequence + 1)) none := by
  have hlast (steps : List (Nat × Nat)) : remembered none steps = (given (run none steps)).getLast? := by
    rw [remembered_eq, Option.or_none]
  refine ⟨(order_given none steps).2, fun hword stamp hstamp => ?_, fun i tick maxSequence hstep => ?_,
    run_accepted none steps, fun tick k maxSequence hnew => ?_⟩
  · obtain ⟨step, hstep, -, hle⟩ := exists_step_of_mem_given hstamp
    exact Nat.le_trans hle (hword step hstep)
  · have hanswer := getElem?_run none hstep
    rw [hlast, ← take_run] at hanswer
    exact ⟨_, hanswer, answers_next? ..⟩
  · rw [← hlast] at hnew
    rw [run_append, List.map_append, run_replicate_new hnew, List.append_assoc]

/-- On tick 7 two numbers are allowed and given; a third, a smaller maximum and a tick gone back are refused, and
a greater maximum gives one number more.  The next tick gives its two numbers to the first two of three steps. -/
theorem stamps_across_refusals :
    let steps := [(7, 1), (7, 1), (7, 1), (7, 0), (6, 3), (7, 2)]
    given (run none steps) = [⟨7, 0⟩, ⟨7, 1⟩, ⟨7, 2⟩]
      ∧ accepted none steps = [(7, 1), (7, 1), (7, 2)]
      ∧ (given (run none steps)).Pairwise Stamp.Before
      ∧ (∀ stamp ∈ given (run none steps), stamp.sequence ≤ wordMax)
      ∧ (∃ answer, (run none steps)[4]? = some (answer, answer.or (some ⟨7, 1⟩))
          ∧ Answers (some ⟨7, 1⟩) 6 3 answer)
      ∧ (run none (steps ++ [(9, 1), (9, 1), (9, 1)])).map Prod.fst
          = (run none steps).map Prod.fst ++ [some ⟨9, 0⟩, some ⟨9, 1⟩] ++ [none] := by
  intro steps
  obtain ⟨horder, hword, hstep, -, hrow⟩ := stamps_in_order steps
  refine ⟨rfl, rfl, horder, hword (by decide), hstep 4 6 3 rfl, ?_⟩
  exact hrow 9 3 1 fun l hl => by cases hl; decide

end Sequence

end Snowflake
