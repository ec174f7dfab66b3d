import Snowflake.Clock.Manual
import Snowflake.Proofs.Generator.History

/-!
# Atomicity: a call that fails leaves no trace

A call issues an id or it leaves the generator as it was, however it failed: refused at
once, refused after a wait, or cut short in the middle of one.  So the failed calls of a
run may be left out.  `trimmed keep c g s steps` is what is kept of a run, each step
after a move to the clock that it started from in the run; with `Step.succeeded` it keeps
the calls that gave an id:

    (run c g s₀ (trimmed Step.succeeded c g s steps)).map Done.answer
      = the answers of run c g s steps without the failures       (run_succeeded)

and both runs end with the same generator.
-/

namespace Snowflake.Generator

variable {σ τ : Type}

/-! ## Leaving steps out of a run -/

/-- What is kept of the steps of a run, each after a move to the clock that it started from. -/
def trimmed (keep : Step σ → Answer → Option (Step σ)) (c : Clock σ) (g : Generator) (s : σ) :
    List (Step σ) → List (Step σ)
  | [] => []
  | step :: steps =>
    let done := perform c g s step
    let rest := trimmed keep c done.generator done.clock steps
    match keep step done.answer with
    | none => rest
    | some kept => .move (fun _ => s) :: kept :: rest

theorem trimmed_cons_of_none {keep : Step σ → Answer → Option (Step σ)} {c : Clock σ} {g : Generator} {s : σ}
    {step : Step σ} (h : keep step (perform c g s step).answer = none) (steps : List (Step σ)) :
    trimmed keep c g s (step :: steps)
      = trimmed keep c (perform c g s step).generator (perform c g s step).clock steps := by
  conv => lhs; unfold trimmed
  dsimp only
  rw [h]

theorem trimmed_cons_of_some {keep : Step σ → Answer → Option (Step σ)} {c : Clock σ} {g : Generator} {s : σ}
    {step kept : Step σ} (h : keep step (perform c g s step).answer = some kept) (steps : List (Step σ)) :
    trimmed keep c g s (step :: steps)
      = .move (fun _ => s) :: kept
          :: trimmed keep c (perform c g s step).generator (perform c g s step).clock steps := by
  conv => lhs; unfold trimmed
  dsimp only
  rw [h]

/-- A step without its failed call: of a single call nothing is left, of a burst the calls before. -/
def Step.succeeded : Step σ → Answer → Option (Step σ)
  | .generate _ _ _, .failed _ => none
  | .burst form f _ patience, .burst _ issues _ => some (.burst form f issues.length patience)
  | step, _ => some step

/-- An answer without the failure in it. -/
def Answer.succeeded : Answer → Option Answer
  | .failed _ => none
  | .burst f issues _ => some (.burst f issues none)
  | answer => some answer

/-! ## Calls -/

theorem rounds_of_error (c : Clock σ) (f : Format) (g : Generator) (n patience reading : Nat) (s : σ)
    {failure : Failure} (h : (rounds c f g n patience reading s).outcome = .error failure) :
    (rounds c f g n patience reading s).generator = g := by
  induction n generalizing patience reading s with
  | zero => rfl
  | succ n ih =>
    unfold rounds at h ⊢
    dsimp only at h ⊢
    split
    · next hv =>
      simp only [hv] at h
      cases h
    · rfl
    · next hv =>
      simp only [hv] at h
      split
      · rfl
      · next hw =>
        simp only [hw] at h
        exact ih _ _ _ h

/-- **Atomicity.**  A call of any generator that fails leaves it as it was. -/
theorem generate_of_error (c : Clock σ) (f : Format) (patience : Nat) (g : Generator) (s : σ) {failure : Failure}
    (h : (generate c f patience g s).outcome = .error failure) :
    (generate c f patience g s).generator = g := rounds_of_error c f g _ _ _ _ h

variable (c : Clock σ)

theorem generateAs_of_error (form : Form) (f : Format) (patience : Nat) {g : Generator} (hg : g.Sound) (s : σ)
    {failure : Failure} (h : (generateAs c form f patience g s).outcome = .error failure) :
    (generateAs c form f patience g s).generator = g := by
  rcases generateAs_cases c form f patience hg s with ⟨_, _, _, _, _, _, hok, _⟩ | ⟨_, _, hgen⟩
  · rw [hok] at h
    cases h
  · exact hgen

/-! ## Bursts -/

theorem failure_add_ok (b : Burst σ) {call : Call σ Issue} {issue : Issue} (h : call.outcome = .ok issue) :
    (b.add call).failure = none := by
  unfold Burst.failure Burst.add
  dsimp only
  rw [h]

theorem failure_add_error (b : Burst σ) {call : Call σ Issue} {failure : Failure}
    (h : call.outcome = .error failure) : (b.add call).failure = some failure := by
  unfold Burst.failure Burst.add
  dsimp only
  rw [h]

theorem continueBurst_of_failure (form : Form) (f : Format) (patience : Nat) {b : Burst σ} {failure : Failure}
    (h : b.failure = some failure) (n : Nat) : continueBurst c form f patience n b = b := by
  cases n with
  | zero => rfl
  | succ n =>
    unfold continueBurst
    rw [h]
    rfl

/-- One call more, before the burst goes on as it would from there. -/
theorem continueBurst_succ (form : Form) (f : Format) (patience : Nat) {b : Burst σ} (h : b.failure = none)
    (n : Nat) :
    continueBurst c form f patience (n + 1) b
      = continueBurst c form f patience n (b.add (generateAs c form f patience b.generator b.clock)) := by
  conv => lhs; unfold continueBurst
  rw [h]
  rfl

/-- A burst that is cut to the calls that gave an id gives the same ids and does not fail. -/
theorem exists_continueBurst (form : Form) (f : Format) (patience : Nat) {b : Burst σ} (hb : b.generator.Sound)
    (hok : b.failure = none) (n : Nat) :
    ∃ k, (continueBurst c form f patience n b).issues.length = b.issues.length + k
      ∧ (continueBurst c form f patience k b).issues = (continueBurst c form f patience n b).issues
      ∧ (continueBurst c form f patience k b).failure = none
      ∧ (continueBurst c form f patience k b).generator = (continueBurst c form f patience n b).generator := by
  induction n generalizing b with
  | zero => exact ⟨0, rfl, rfl, hok, rfl⟩
  | succ n ih =>
    rw [continueBurst_succ c form f patience hok]
    cases ho : (generateAs c form f patience b.generator b.clock).outcome with
    | ok issue =>
      have hsound := (generateAs_progress c form f patience hb b.clock).sound hb
      obtain ⟨k, hlen, hrest⟩ := ih hsound (failure_add_ok b ho)
      refine ⟨k + 1, ?_, ?_⟩
      · rw [hlen, Burst.issues_add, ho, List.length_append]
        simp only [Except.toOption, Option.toList, List.length_singleton]
        omega
      · rw [continueBurst_succ c form f patience hok]
        exact hrest
    | error failure =>
      have hgen := generateAs_of_error c form f patience hb b.clock ho
      have hissues : (b.add (generateAs c form f patience b.generator b.clock)).issues = b.issues := by
        rw [Burst.issues_add, ho]
        exact List.append_nil _
      rw [continueBurst_of_failure c form f patience (failure_add_error b ho)]
      exact ⟨0, congrArg List.length hissues, hissues.symm, hok, hgen.symm⟩

theorem burst_succeeded (form : Form) (f : Format) (count patience : Nat) {g : Generator} (hg : g.Sound) (s : σ) :
    let b := burst c form f count patience g s
    let b' := burst c form f b.issues.length patience g s
    b'.issues = b.issues ∧ b'.failure = none ∧ b'.generator = b.generator := by
  intro b b'
  obtain ⟨k, hlen, hrest⟩ :=
    exists_continueBurst c form f patience (b := { generator := g, clock := s }) hg rfl count
  obtain rfl : k = b.issues.length := (Nat.zero_add k).symm.trans hlen.symm
  exact hrest

/-! ## Steps and runs -/

/-- Without its failed call a step gives the same answer, less the failure, and leaves the same
generator behind; if nothing is left of the step, it had left the generator as it was. -/
theorem perform_succeeded {g : Generator} (hg : g.Sound) (s : σ) (step : Step σ) :
    (step.succeeded (perform c g s step).answer = none ∧ (perform c g s step).answer.succeeded = none
        ∧ (perform c g s step).generator = g)
      ∨ ∃ kept, step.succeeded (perform c g s step).answer = some kept
        ∧ (perform c g s step).answer.succeeded = some (perform c g s kept).answer
        ∧ (perform c g s kept).generator = (perform c g s step).generator := by
  cases step with
  | move _ | now _ | node => exact Or.inr ⟨_, rfl, rfl, rfl⟩
  | generate form f patience =>
    cases ho : (generateAs c form f patience g s).outcome with
    | ok issue =>
      have hanswer : (perform c g s (.generate form f patience)).answer = .issued f issue := by
        simp only [perform, ho]
      rw [hanswer]
      exact Or.inr ⟨_, rfl, congrArg some hanswer.symm, rfl⟩
    | error failure =>
      have hanswer : (perform c g s (.generate form f patience)).answer = .failed failure := by
        simp only [perform, ho]
      rw [hanswer]
      exact Or.inl ⟨rfl, rfl, generateAs_of_error c form f patience hg s ho⟩
  | burst form f count patience =>
    obtain ⟨hissues, hok, hgen⟩ := burst_succeeded c form f count patience hg s
    refine Or.inr ⟨_, rfl, ?_, hgen⟩
    show some (Answer.burst f (burst c form f count patience g s).issues none) = some (.burst f _ _)
    rw [hissues, hok]

/-- **Runs.**  A run without its failed calls gives the answers of the run, less the failures, each
after the move that sets its clock, and ends with the same generator. -/
theorem run_succeeded {g : Generator} (hg : g.Sound) (s s₀ : σ) (steps : List (Step σ)) :
    (run c g s₀ (trimmed Step.succeeded c g s steps)).map Done.answer
        = (((run c g s steps).map Done.answer).filterMap Answer.succeeded).flatMap (fun answer => [.moved, answer])
      ∧ after g (run c g s₀ (trimmed Step.succeeded c g s steps)) = after g (run c g s steps) := by
  induction steps generalizing g s s₀ with
  | nil => exact ⟨rfl, rfl⟩
  | cons step steps ih =>
    have hsound := (perform_progress c hg s step).sound hg
    have hanswers : (run c g s (step :: steps)).map Done.answer
        = (perform c g s step).answer
          :: (run c (perform c g s step).generator (perform c g s step).clock steps).map Done.answer := rfl
    have hafter : after g (run c g s (step :: steps))
        = after (perform c g s step).generator
            (run c (perform c g s step).generator (perform c g s step).clock steps) := rfl
    rcases perform_succeeded c hg s step with ⟨hkept, hanswer, hgen⟩ | ⟨kept, hkept, hanswer, hgen⟩
    · rw [trimmed_cons_of_none hkept, hanswers, hafter, List.filterMap_cons_none hanswer]
      have hrest := ih hsound (perform c g s step).clock s₀
      rw [hgen] at hrest ⊢
      exact hrest
    · rw [trimmed_cons_of_some hkept, hanswers, hafter, List.filterMap_cons_some hanswer]
      obtain ⟨hrest, hlast⟩ := ih hsound (perform c g s step).clock (perform c g s kept).clock
      rw [← hgen] at hrest hlast ⊢
      exact ⟨congrArg (fun answers => Answer.moved :: (perform c g s kept).answer :: answers) hrest, hlast⟩

/-! ## Ids -/

theorem idsOf_succeeded (f : Format) (answer : Answer) :
    answer.succeeded.toList.flatMap (Answer.idsOf f) = answer.idsOf f := by
  cases answer with
  | failed failure => rfl
  | moved | tick _ | node _ _ | issued _ _ | burst _ _ _ => exact List.append_nil _

/-- No id of the answers is in the failures, and none is in a move. -/
theorem flatMap_idsOf_succeeded (f : Format) (answers : List Answer) :
    ((answers.filterMap Answer.succeeded).flatMap (fun answer => [.moved, answer])).flatMap (Answer.idsOf f)
      = answers.flatMap (Answer.idsOf f) := by
  induction answers with
  | nil => rfl
  | cons answer answers ih =>
    rw [List.flatMap_cons, ← idsOf_succeeded f answer, ← ih]
    cases h : answer.succeeded with
    | none =>
      rw [List.filterMap_cons_none h]
      rfl
    | some kept =>
      rw [List.filterMap_cons_some h]
      simp [Answer.idsOf]

theorem issued_eq_flatMap (f : Format) (dones : List (Done σ)) :
    issued f dones = (dones.map Done.answer).flatMap (Answer.idsOf f) := by
  unfold issued
  rw [List.flatMap_map]

/-- **No trace.**  In every state that a run can leave, a call on any clock that fails leaves the
generator as it was.  Without its failed calls, each other one started from the same clock, a run
gives the same answers but for the failures, the same ids of every format, and ends with the same
generator. -/
theorem failed_calls_leave_no_trace {nodeId : Nat} {g : Generator} (hg : ofNodeId nodeId = .ok g) (s s₀ : σ)
    (steps : List (Step σ)) :
    let dones := run c g s steps
    let dones' := run c g s₀ (trimmed Step.succeeded c g s steps)
    (∀ {τ : Type} (c' : Clock τ) (f : Format) (patience : Nat) (s' : τ) (failure : Failure),
        (generate c' f patience (after g dones) s').outcome = .error failure →
        (generate c' f patience (after g dones) s').generator = after g dones)
      ∧ dones'.map Done.answer
          = ((dones.map Done.answer).filterMap Answer.succeeded).flatMap (fun answer => [.moved, answer])
      ∧ (∀ f, issued f dones' = issued f dones) ∧ after g dones' = after g dones := by
  intro dones dones'
  obtain ⟨hanswers, hafter⟩ := run_succeeded c (sound_of_fresh hg) s s₀ steps
  refine ⟨?_, hanswers, fun f => ?_, hafter⟩
  · intro τ c' f patience s' failure h
    exact generate_of_error c' f patience _ s' h
  · rw [issued_eq_flatMap, issued_eq_flatMap, hanswers, flatMap_idsOf_succeeded]

/-- On the last tick of the narrowest format, set back by 5 milliseconds: a call is refused after its
wait, the next one is cut short, and the number after the first id is still there. -/
theorem no_trace_past_the_last_tick :
    ∃ g, ofNodeId 5 = .ok g ∧
      let last := 2406778230000
      let steps : List (Step ManualClock) :=
        [.generate .number .tiny 3, .move (·.set (last - 5)), .generate .number .tiny 3, .move (·.set 0),
          .generate .number .tiny 0, .move (·.set last), .generate .number .tiny 0]
      let dones := run ManualClock.clock g (.steady last) steps
      let dones' := run ManualClock.clock g (.steady 0)
        (trimmed Step.succeeded ManualClock.clock g (.steady last) steps)
      let call := generate ManualClock.clock .tiny 3 (after g dones) (.steady (last - 5))
      call.parks = [10005] ∧ call.outcome = .error (.refused (.clockRangeExceeded .tiny 240677824))
        ∧ call.generator = after g dones ∧ issued .tiny dones = [4294967248, 4294967249]
        ∧ issued .tiny dones' = issued .tiny dones ∧ after g dones' = after g dones := by
  have hg : ofNodeId 5 = .ok { nodeId := 5, nodeId_le := by decide } := rfl
  have htrace := failed_calls_leave_no_trace ManualClock.clock hg (.steady 2406778230000) (.steady 0)
    [.generate .number .tiny 3, .move (·.set (2406778230000 - 5)), .generate .number .tiny 3, .move (·.set 0),
      .generate .number .tiny 0, .move (·.set 2406778230000), .generate .number .tiny 0]
  exact ⟨_, hg, rfl, rfl, htrace.1 ManualClock.clock .tiny 3 (.steady (2406778230000 - 5)) _ rfl, rfl,
    htrace.2.2.1 .tiny, htrace.2.2.2⟩

end Snowflake.Generator
