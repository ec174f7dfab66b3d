import Snowflake.Clock.Manual
import Snowflake.Proofs.Generator.Atomicity

/-!
# Separation: formats do not touch each other

`g.only f` is a generator with the memory of the format `f` and none of the others.  A step
of `f` needs no other memory, and a step of another format leaves the memory of `f` alone:

    perform c (g.only f) s step = (perform c g s step).only f         for a step of f      (perform_only)
    (perform c g s step).generator.only f = g.only f                  for any other step   (only_perform)

So a mixed run, taken apart, is a run of each format by itself.  The steps of `f`, each
from the clock that it started from, go as they would on a generator that is never asked
for anything else (`run_only`); all the formats share is the clock.
-/

namespace Snowflake

namespace Generator

variable {σ : Type}

/-! ## One format by itself -/

/-- The generator with the memory of this format, and none of the others. -/
def only (g : Generator) (f : Format) : Generator :=
  { g with last := (PerFormat.const none).set f (g.last.get f) }

/-- The format that a step asks for ids of. -/
def Step.format? : Step σ → Option Format
  | .generate _ f _ => some f
  | .burst _ f _ _ => some f
  | .move _ | .now _ | .node => none

/-- A step that asks for ids of this format; nothing is left of any other. -/
def Step.only (f : Format) (step : Step σ) (_ : Answer) : Option (Step σ) :=
  if step.format? = some f then some step else none

/-- The step as it went, with what it left behind for this format. -/
def Done.only (done : Done σ) (f : Format) : Done σ := { done with generator := done.generator.only f }

/-- The steps of a run that asked for ids of this format, as they went. -/
def doneFor (f : Format) (steps : List (Step σ)) (dones : List (Done σ)) : List (Done σ) :=
  ((steps.zip dones).filter fun (step, _) => step.format? = some f).map fun (_, done) => done.only f

end Generator

/-- The call as it went, with what it left behind for this format. -/
def Call.only {σ α : Type} (call : Call σ α) (f : Format) : Call σ α :=
  { call with generator := call.generator.only f }

/-- The burst as it went, with what it left behind for this format. -/
def Burst.only {σ : Type} (b : Burst σ) (f : Format) : Burst σ :=
  { callsBack := b.callsBack.map (Call.only · f), generator := b.generator.only f, clock := b.clock }

namespace Generator

variable {σ τ : Type} (c : Clock σ) {f f' : Format} {g : Generator}

theorem last_only (g : Generator) (f : Format) : (g.only f).last.get f = g.last.get f :=
  PerFormat.get_set_self ..

theorem only_remember (g : Generator) (f : Format) (stamp : Stamp) :
    (g.only f).remember f stamp = (g.remember f stamp).only f := by
  unfold remember only
  dsimp only
  rw [PerFormat.set_set, PerFormat.get_set_self]

theorem only_remember_of_ne (stamp : Stamp) (h : f' ≠ f) : (g.remember f' stamp).only f = g.only f := by
  unfold only
  rw [last_remember_of_ne g stamp (Ne.symm h)]
  rfl

theorem last_eq_of_only_eq {g g' : Generator} (h : g.only f = g'.only f) : g.last.get f = g'.last.get f := by
  rw [← last_only g f, h, last_only]

/-- A fresh generator has no memory to leave out. -/
theorem only_of_fresh {nodeId : Nat} (hg : ofNodeId nodeId = .ok g) (f : Format) : g.only f = g := by
  obtain ⟨-, hlast⟩ := ofNodeId_eq_ok hg
  cases g
  subst hlast
  unfold only
  dsimp only
  rw [PerFormat.get_const, PerFormat.set_const]

/-! ## Calls -/

/-- A call needs the memory of its own format only. -/
theorem rounds_only (n patience reading : Nat) (s : σ) :
    rounds c f (g.only f) n patience reading s = (rounds c f g n patience reading s).only f := by
  induction n generalizing patience reading s with
  | zero => rfl
  | succ n ih =>
    unfold rounds
    dsimp only
    rw [last_only]
    cases Verdict.onTick f.layout (g.last.get f) (tickAt f.layout.tickMillis reading) with
    | issue timestamp stamp =>
      dsimp only
      rw [only_remember]
      rfl
    | refuse => rfl
    | wait past =>
      dsimp only
      cases (c.waitPast past f.layout.tickMillis patience s).ending with
      | cutShort pause => rfl
      | reached tick =>
        dsimp only
        rw [ih]
        rfl

/-- A call leaves the memory of every other format as it was. -/
theorem only_rounds (h : f' ≠ f) (n patience reading : Nat) (s : σ) :
    (rounds c f' g n patience reading s).generator.only f = g.only f := by
  induction n generalizing patience reading s with
  | zero => rfl
  | succ n ih =>
    unfold rounds
    dsimp only
    cases Verdict.onTick f'.layout (g.last.get f') (tickAt f'.layout.tickMillis reading) with
    | issue timestamp stamp => exact only_remember_of_ne stamp h
    | refuse => rfl
    | wait past =>
      dsimp only
      cases (c.waitPast past f'.layout.tickMillis patience s).ending with
      | cutShort pause => rfl
      | reached tick => exact ih _ _ _

theorem generateAs_only (form : Form) (patience : Nat) (s : σ) :
    generateAs c form f patience (g.only f) s = (generateAs c form f patience g s).only f := by
  have hcall : generate c f patience (g.only f) s = (generate c f patience g s).only f := rounds_only c ..
  cases form with
  | number =>
    unfold generateAs
    rw [hcall]
    rfl
  | typed =>
    unfold generateAs
    rw [generateTyped_eq, generateTyped_eq, hcall]
    rfl
  | text encoding =>
    rw [generateAs_text, generateAs_text]
    unfold generateText
    rw [hcall]
    rfl

theorem only_generateAs (h : f' ≠ f) (form : Form) (patience : Nat) (s : σ) :
    (generateAs c form f' patience g s).generator.only f = g.only f := by
  have hcall : (generate c f' patience g s).generator.only f = g.only f := only_rounds c h ..
  cases form with
  | number => exact hcall
  | typed =>
    unfold generateAs
    rw [generateTyped_eq]
    exact hcall
  | text encoding =>
    rw [generateAs_text]
    exact hcall

/-! ## Bursts -/

section Bursts

variable (b : Burst σ)

theorem calls_only : (b.only f).calls = b.calls.map (Call.only · f) := by
  unfold Burst.calls Burst.only
  rw [List.map_reverse]

theorem failure_only : (b.only f).failure = b.failure := by
  unfold Burst.failure Burst.only
  cases b.callsBack <;> rfl

theorem issues_only : (b.only f).issues = b.issues := by
  unfold Burst.issues
  rw [calls_only, List.filterMap_map]
  rfl

theorem readings_only : (b.only f).readings = b.readings := by
  unfold Burst.readings
  rw [calls_only, List.flatMap_map]
  rfl

theorem parks_only : (b.only f).parks = b.parks := by
  unfold Burst.parks
  rw [calls_only, List.flatMap_map]
  rfl

end Bursts

theorem continueBurst_only (form : Form) (patience n : Nat) (b : Burst σ) :
    continueBurst c form f patience n (b.only f) = (continueBurst c form f patience n b).only f := by
  induction n generalizing b with
  | zero => rfl
  | succ n ih =>
    unfold continueBurst
    rw [failure_only]
    split
    · rfl
    · have hcall : generateAs c form f patience (b.only f).generator (b.only f).clock
          = (generateAs c form f patience b.generator b.clock).only f := generateAs_only c form patience b.clock
      rw [hcall, ← ih]
      rfl

theorem only_continueBurst (h : f' ≠ f) (form : Form) (patience n : Nat) (b : Burst σ) :
    (continueBurst c form f' patience n b).generator.only f = b.generator.only f := by
  induction n generalizing b with
  | zero => rfl
  | succ n ih =>
    unfold continueBurst
    split
    · rfl
    · rw [ih]
      exact only_generateAs c h form patience b.clock

/-! ## Steps -/

/-- **One step of the format.**  It needs no memory of another format, and shows the same without. -/
theorem perform_only (s : σ) {step : Step σ} (h : step.format? = some f) :
    perform c (g.only f) s step = (perform c g s step).only f := by
  cases step with
  | move _ | now _ | node => cases h
  | generate form f' patience =>
    cases h
    unfold perform
    dsimp only
    rw [generateAs_only]
    rfl
  | burst form f' count patience =>
    cases h
    have hburst : burst c form f count patience (g.only f) s = (burst c form f count patience g s).only f :=
      continueBurst_only c form patience count { generator := g, clock := s }
    unfold perform
    dsimp only
    rw [hburst, issues_only, failure_only, readings_only, parks_only]
    rfl

/-- **Any other step.**  It leaves the memory of the format as it was. -/
theorem only_perform (s : σ) {step : Step σ} (h : step.format? ≠ some f) :
    (perform c g s step).generator.only f = g.only f := by
  cases step with
  | move _ | now _ | node => rfl
  | generate form f' patience => exact only_generateAs c (fun hf => h (congrArg some hf)) form patience s
  | burst form f' count patience =>
    exact only_continueBurst c (fun hf => h (congrArg some hf)) form patience count _

theorem answer_ne_moved (s : σ) {step : Step σ} (h : step.format? = some f) :
    (perform c g s step).answer ≠ .moved := by
  cases step with
  | move _ | now _ | node => cases h
  | generate form f' patience =>
    unfold perform
    dsimp only
    cases (generateAs c form f' patience g s).outcome <;> exact nofun
  | burst form f' count patience => exact nofun

/-- Steps of another format give out no id of this one. -/
theorem idsOf_perform (s : σ) {step : Step σ} (h : step.format? ≠ some f) :
    (perform c g s step).answer.idsOf f = [] := by
  cases step with
  | move _ | now _ | node => rfl
  | generate form f' patience =>
    unfold perform
    dsimp only
    cases (generateAs c form f' patience g s).outcome with
    | ok issue => exact if_neg fun hf => h (congrArg some hf)
    | error failure => rfl
  | burst form f' count patience => exact if_neg fun hf => h (congrArg some hf)

/-! ## Runs -/

theorem doneFor_cons_of_format {step : Step σ} (h : step.format? = some f) (steps : List (Step σ)) (done : Done σ)
    (dones : List (Done σ)) :
    doneFor f (step :: steps) (done :: dones) = done.only f :: doneFor f steps dones := by
  unfold doneFor
  rw [List.zip_cons_cons, List.filter_cons_of_pos (by simpa using h), List.map_cons]

theorem doneFor_cons_of_ne {step : Step σ} (h : step.format? ≠ some f) (steps : List (Step σ)) (done : Done σ)
    (dones : List (Done σ)) : doneFor f (step :: steps) (done :: dones) = doneFor f steps dones := by
  unfold doneFor
  rw [List.zip_cons_cons, List.filter_cons_of_neg (by simpa using h)]

/-- **Runs.**  The steps of a format in a mixed run go as they do on a generator that remembers no
other format and is asked for no other, each from the clock that it started from in the run. -/
theorem run_only (g : Generator) (s s₀ : σ) (steps : List (Step σ)) :
    let dones := run c g s steps
    let alone := run c (g.only f) s₀ (trimmed (Step.only f) c g s steps)
    alone.filter (·.answer ≠ .moved) = doneFor f steps dones
      ∧ issued f alone = issued f dones ∧ after (g.only f) alone = (after g dones).only f := by
  induction steps generalizing g s s₀ with
  | nil => exact ⟨rfl, rfl, rfl⟩
  | cons step steps ih =>
    intro dones alone
    by_cases h : step.format? = some f
    · have hkept : trimmed (Step.only f) c g s (step :: steps)
          = .move (fun _ => s) :: step :: trimmed (Step.only f) c (perform c g s step).generator
              (perform c g s step).clock steps := trimmed_cons_of_some (if_pos h) steps
      let rest := trimmed (Step.only f) c (perform c g s step).generator (perform c g s step).clock steps
      have halone : alone = { answer := .moved, generator := g.only f, clock := s } :: (perform c g s step).only f
          :: run c ((perform c g s step).generator.only f) (perform c g s step).clock rest :=
        calc alone = run c (g.only f) s₀ (.move (fun _ => s) :: step :: rest) := congrArg _ hkept
          _ = { answer := .moved, generator := g.only f, clock := s } :: perform c (g.only f) s step
                :: run c (perform c (g.only f) s step).generator (perform c (g.only f) s step).clock rest := rfl
          _ = _ := by
            rw [perform_only c s h]
            rfl
      obtain ⟨hdone, hissued, hafter⟩ := ih (perform c g s step).generator (perform c g s step).clock
        (perform c g s step).clock
      have hmoved : ((perform c g s step).only f).answer ≠ .moved := answer_ne_moved c s h
      rw [halone]
      refine ⟨?_, ?_, hafter⟩
      · rw [List.filter_cons_of_neg (by simp), List.filter_cons_of_pos (by simpa using hmoved), hdone]
        exact (doneFor_cons_of_format h steps _ _).symm
      · show [] ++ ((perform c g s step).answer.idsOf f ++ issued f _) = (perform c g s step).answer.idsOf f ++ issued f _
        rw [hissued, List.nil_append]
    · have hkept : trimmed (Step.only f) c g s (step :: steps)
          = trimmed (Step.only f) c (perform c g s step).generator (perform c g s step).clock steps :=
        trimmed_cons_of_none (if_neg h) steps
      obtain ⟨hdone, hissued, hafter⟩ := ih (perform c g s step).generator (perform c g s step).clock s₀
      have halone : alone = run c ((perform c g s step).generator.only f) s₀
          (trimmed (Step.only f) c (perform c g s step).generator (perform c g s step).clock steps) := by
        show run c (g.only f) s₀ (trimmed (Step.only f) c g s (step :: steps)) = _
        rw [hkept, only_perform c s h]
      have hstart : after (g.only f) alone = after ((perform c g s step).generator.only f) alone := by
        rw [only_perform c s h]
      rw [hstart, halone]
      refine ⟨?_, ?_, hafter⟩
      · rw [hdone]
        exact (doneFor_cons_of_ne h steps _ _).symm
      · rw [hissued]
        show _ = (perform c g s step).answer.idsOf f ++ issued f _
        rw [idsOf_perform c s h, List.nil_append]

/-- **Separation.**  In every state that a run can leave, a step that asks for no id of a format leaves
the memory of that format as it was, on any clock.  The calls of a format in a mixed run give the same
answers after the same readings and pauses, and leave the same clock and the same memory of the format,
as they do on a fresh generator that makes these calls only, each from the clock that it started from. -/
theorem formats_do_not_touch {nodeId : Nat} (hg : ofNodeId nodeId = .ok g) (s s₀ : σ) (steps : List (Step σ))
    (f : Format) :
    let dones := run c g s steps
    let alone := run c g s₀ (trimmed (Step.only f) c g s steps)
    (∀ {τ : Type} (c' : Clock τ) (s' : τ) (step : Step τ), step.format? ≠ some f →
        (perform c' (after g dones) s' step).generator.last.get f = (after g dones).last.get f)
      ∧ alone.filter (·.answer ≠ .moved) = doneFor f steps dones
      ∧ issued f alone = issued f dones ∧ after g alone = (after g dones).only f := by
  intro dones alone
  have hrun := run_only c (f := f) g s s₀ steps
  rw [only_of_fresh hg] at hrun
  exact ⟨fun c' s' step h => last_eq_of_only_eq (only_perform c' s' h), hrun⟩

/-- Behind its tick the narrowest format parks the clock, at zero a call of it is cut short and at the
end of time one is refused.  The format beside it goes on counting seconds as it would alone. -/
theorem seconds_beside_tens :
    ∃ g, ofNodeId 5 = .ok g ∧
      let start : ManualClock := .steady (customEpochMillis + 20000)
      let steps : List (Step ManualClock) :=
        [.generate .number .mini 3, .burst .number .tiny 2 0, .move (·.set (customEpochMillis + 19000)),
          .generate .number .tiny 3, .generate (.text .hex) .mini 3, .move (·.set 0), .generate .number .tiny 0,
          .generate .typed .mini 3, .move (·.set wordMax), .generate .number .tiny 3, .generate .number .mini 3]
      let dones := run ManualClock.clock g start steps
      let alone := run ManualClock.clock g (.steady 0) (trimmed (Step.only .mini) ManualClock.clock g start steps)
      let next : Step ManualClock := .generate .number .tiny 3
      issued .tiny dones = [144, 145, 208] ∧ issued .tiny alone = []
        ∧ issued .mini alone = [42240, 62720, 64768] ∧ issued .mini alone = issued .mini dones
        ∧ (doneFor .mini steps dones).map Done.parks = [[], [], [customEpochMillis + 31000], []]
        ∧ alone.filter (·.answer ≠ .moved) = doneFor .mini steps dones
        ∧ after g alone = (after g dones).only .mini ∧ next.format? ≠ some .mini
        ∧ (perform ManualClock.clock (after g dones) start next).generator.last.get .mini
          = (after g dones).last.get .mini := by
  have hg : ofNodeId 5 = .ok { nodeId := 5, nodeId_le := by decide } := rfl
  obtain ⟨hother, halone, hissued, hafter⟩ := formats_do_not_touch ManualClock.clock hg
    (.steady (customEpochMillis + 20000)) (.steady 0)
    [.generate .number .mini 3, .burst .number .tiny 2 0, .move (·.set (customEpochMillis + 19000)),
      .generate .number .tiny 3, .generate (.text .hex) .mini 3, .move (·.set 0), .generate .number .tiny 0,
      .generate .typed .mini 3, .move (·.set wordMax), .generate .number .tiny 3, .generate .number .mini 3] .mini
  have hnext : (Step.generate .number .tiny 3 : Step ManualClock).format? ≠ some .mini := by decide
  exact ⟨_, hg, rfl, rfl, rfl, hissued, rfl, halone, hafter, hnext, hother ManualClock.clock _ _ hnext⟩

end Generator

end Snowflake
