import Mathlib.Data.List.Forall2
import Snowflake.Proofs.Generator.History

/-!
# Twins: the node id never influences timing

Two generators that remember the same are twins, whatever their node ids.  On copies of one
clock twins go on in step.  Each call of theirs takes the same readings, waits for the same
pauses and fails alike or gives out twin ids, with one timestamp, one sequence and each its
own node field; and after it they are twins again:

    Twins a b g g' → (run c g s steps).Forall₂ (Done.Twins a b) (run c g' s steps)      (run_twins)

So where a format cannot tell the two nodes apart their ids are the same, and where it can
no id of the one is an id of the other, on any clocks.
-/

namespace Snowflake

/-! ## Twins -/

/-- What nodes `a` and `b` gave out with one stamp, in one form: ids that agree but for the node. -/
structure Issue.Twins (f : Format) (a b : Nat) (x y : Issue) : Prop where
  fits_left : f.layout.Fits x.raw
  fits_right : f.layout.Fits y.raw
  timestamp_eq : f.layout.timestamp x.raw = f.layout.timestamp y.raw
  sequence_eq : f.layout.sequence x.raw = f.layout.sequence y.raw
  nodeField_left : f.layout.nodeField x.raw = a % capacity f.layout.nodeBits
  nodeField_right : f.layout.nodeField y.raw = b % capacity f.layout.nodeBits
  written : ∃ form : Form, x = form.issue f x.raw ∧ y = form.issue f y.raw

namespace Generator

/-- Both calls gave out an id, or both failed alike. -/
inductive TwinOutcomes (f : Format) (a b : Nat) : Except Failure Issue → Except Failure Issue → Prop
  | issued {x y : Issue} : Issue.Twins f a b x y → TwinOutcomes f a b (.ok x) (.ok y)
  | failed (failure : Failure) : TwinOutcomes f a b (.error failure) (.error failure)

/-- Generators of the nodes `a` and `b` that remember the same. -/
structure Twins (a b : Nat) (g g' : Generator) : Prop where
  nodeId_left : g.nodeId = a
  nodeId_right : g'.nodeId = b
  last_eq : g.last = g'.last

/-- Both answers are the same, but for the node in them. -/
inductive Answer.Twins (a b : Nat) : Answer → Answer → Prop
  | moved : Answer.Twins a b .moved .moved
  | tick (tick : Nat) : Answer.Twins a b (.tick tick) (.tick tick)
  | node : Answer.Twins a b (.node a (Format.all.map fun f => a % capacity f.layout.nodeBits))
      (.node b (Format.all.map fun f => b % capacity f.layout.nodeBits))
  | issued {f : Format} {x y : Issue} : Issue.Twins f a b x y → Answer.Twins a b (.issued f x) (.issued f y)
  | failed (failure : Failure) : Answer.Twins a b (.failed failure) (.failed failure)
  | burst {f : Format} {xs ys : List Issue} (failure : Option Failure) :
      List.Forall₂ (Issue.Twins f a b) xs ys → Answer.Twins a b (.burst f xs failure) (.burst f ys failure)

variable {σ : Type}

/-- Calls of twins that went alike. -/
structure TwinCalls (f : Format) (a b : Nat) (x y : Call σ Issue) : Prop where
  outcome : TwinOutcomes f a b x.outcome y.outcome
  generator : Twins a b x.generator y.generator
  readings_eq : x.readings = y.readings
  waits_eq : x.waits = y.waits
  parks_eq : x.parks = y.parks
  clock_eq : x.clock = y.clock

/-- Bursts of twins that went alike. -/
structure TwinBursts (f : Format) (a b : Nat) (x y : Burst σ) : Prop where
  issues : List.Forall₂ (Issue.Twins f a b) x.issues y.issues
  failure_eq : x.failure = y.failure
  generator : Twins a b x.generator y.generator
  readings_eq : x.readings = y.readings
  parks_eq : x.parks = y.parks
  clock_eq : x.clock = y.clock

/-- Steps of twins that went alike. -/
structure Done.Twins (a b : Nat) (x y : Done σ) : Prop where
  answer : Answer.Twins a b x.answer y.answer
  generator : Generator.Twins a b x.generator y.generator
  readings_eq : x.readings = y.readings
  parks_eq : x.parks = y.parks
  clock_eq : x.clock = y.clock

/-! ## Ids of twins -/

variable {a b : Nat}

/-- The ids of one stamp are twins. -/
theorem twins_idAt (form : Form) (f : Format) (a b : Nat) (stamp : Stamp) :
    Issue.Twins f a b (form.issue f (f.layout.idAt a stamp)) (form.issue f (f.layout.idAt b stamp)) where
  fits_left := f.layout.fits_idAt a stamp
  fits_right := f.layout.fits_idAt b stamp
  timestamp_eq := (f.layout.timestamp_pack ..).trans (f.layout.timestamp_pack ..).symm
  sequence_eq := (f.layout.sequence_pack ..).trans (f.layout.sequence_pack ..).symm
  nodeField_left := f.layout.nodeField_idAt a stamp
  nodeField_right := f.layout.nodeField_idAt b stamp
  written := ⟨form, rfl, rfl⟩

/-- Twin ids are one, as numbers and in writing, where the format cannot tell the nodes apart. -/
theorem eq_of_twins {f : Format} (hnode : a % capacity f.layout.nodeBits = b % capacity f.layout.nodeBits)
    {x y : Issue} (h : Issue.Twins f a b x y) : x = y := by
  have hfield : f.layout.nodeField x.raw = f.layout.nodeField y.raw := by
    rw [h.nodeField_left, h.nodeField_right, hnode]
  have hraw := f.layout.eq_of_fields_eq h.fits_left h.fits_right h.timestamp_eq hfield h.sequence_eq
  obtain ⟨form, hx, hy⟩ := h.written
  calc x = form.issue f x.raw := hx
    _ = form.issue f y.raw := by rw [hraw]
    _ = y := hy.symm

/-! ## Calls -/

variable {g g' : Generator}

theorem Twins.sound (h : Twins a b g g') (hg : g.Sound) : g'.Sound := by
  intro f
  rw [← h.last_eq]
  exact hg f

theorem Twins.remember (h : Twins a b g g') (f : Format) (stamp : Stamp) :
    Twins a b (g.remember f stamp) (g'.remember f stamp) where
  nodeId_left := h.nodeId_left
  nodeId_right := h.nodeId_right
  last_eq := by
    unfold Generator.remember
    rw [h.last_eq]

/-- Twins settle a stamp alike: whether it is in range does not hang on the node. -/
theorem settle_twins (h : Twins a b g g') (form : Form) (f : Format) (stamp : Stamp) :
    TwinOutcomes f a b ((settle f g stamp).1.map (form.issue f)) ((settle f g' stamp).1.map (form.issue f))
      ∧ Twins a b (settle f g stamp).2 (settle f g' stamp).2 := by
  unfold settle
  split
  · refine ⟨.issued ?_, h.remember f stamp⟩
    rw [h.nodeId_left, h.nodeId_right]
    exact twins_idAt form f a b stamp
  · exact ⟨.failed _, h⟩

variable (c : Clock σ)

theorem generateAs_twins (h : Twins a b g g') (hg : g.Sound) (form : Form) (f : Format) (patience : Nat) (s : σ) :
    TwinCalls f a b (generateAs c form f patience g s) (generateAs c form f patience g' s) := by
  have hg' := h.sound hg
  rw [generateAs_eq_map c form f patience hg, generateAs_eq_map c form f patience hg',
    generate_eq_rule c f g (hg f), generate_eq_rule c f g' (hg' f), ← h.last_eq]
  -- the rule looks at the memory and the clock; the node comes in when a stamp is settled
  unfold followRule
  dsimp only
  cases Plan.onTick f.layout.maxSequence (g.last.get f) (tickAt f.layout.tickMillis (c.read s).1) with
  | take stamp =>
    obtain ⟨houtcome, hgenerator⟩ := settle_twins h form f stamp
    exact ⟨houtcome, hgenerator, rfl, rfl, rfl, rfl⟩
  | waitPast tick =>
    dsimp only
    cases c.firstPast? tick f.layout.tickMillis patience (c.read s).2 with
    | none => exact ⟨.failed _, h, rfl, rfl, rfl, rfl⟩
    | some k =>
      obtain ⟨houtcome, hgenerator⟩ := settle_twins h form f
        ⟨tickAt f.layout.tickMillis (c.waitReading tick f.layout.tickMillis (c.read s).2 k), 0⟩
      exact ⟨houtcome, hgenerator, rfl, rfl, rfl, rfl⟩

/-! ## Bursts -/

theorem TwinOutcomes.toList {f : Format} {x y : Except Failure Issue} (h : TwinOutcomes f a b x y) :
    List.Forall₂ (Issue.Twins f a b) x.toOption.toList y.toOption.toList := by
  cases h with
  | issued h => exact .cons h .nil
  | failed failure => exact .nil

theorem failure_add_twins {f : Format} {call call' : Call σ Issue} (h : TwinOutcomes f a b call.outcome call'.outcome)
    (x y : Burst σ) : (x.add call).failure = (y.add call').failure := by
  unfold Burst.failure Burst.add
  dsimp only
  generalize call.outcome = outcome at h
  generalize call'.outcome = outcome' at h
  cases h with
  | issued h => rfl
  | failed failure => rfl

theorem TwinBursts.add {f : Format} {x y : Burst σ} {call call' : Call σ Issue} (h : TwinBursts f a b x y)
    (hcall : TwinCalls f a b call call') : TwinBursts f a b (x.add call) (y.add call') where
  issues := by
    rw [Burst.issues_add, Burst.issues_add]
    exact List.rel_append h.issues hcall.outcome.toList
  failure_eq := failure_add_twins hcall.outcome x y
  generator := hcall.generator
  readings_eq := by rw [readings_add, readings_add, h.readings_eq, hcall.readings_eq]
  parks_eq := by rw [parks_add, parks_add, h.parks_eq, hcall.parks_eq]
  clock_eq := hcall.clock_eq

theorem continueBurst_twins (form : Form) (f : Format) (patience n : Nat) {x y : Burst σ}
    (h : TwinBursts f a b x y) (hx : x.generator.Sound) :
    TwinBursts f a b (continueBurst c form f patience n x) (continueBurst c form f patience n y) := by
  induction n generalizing x y with
  | zero => exact h
  | succ n ih =>
    unfold continueBurst
    rw [← h.failure_eq]
    split
    · exact h
    · have hcall := generateAs_twins c h.generator hx form f patience x.clock
      rw [h.clock_eq] at hcall ⊢
      exact ih (h.add hcall) ((generateAs_progress c form f patience hx y.clock).sound hx)

/-! ## Steps and runs -/

theorem perform_twins (h : Twins a b g g') (hg : g.Sound) (s : σ) (step : Step σ) :
    Done.Twins a b (perform c g s step) (perform c g' s step) := by
  cases step with
  | move f => exact ⟨.moved, h, rfl, rfl, rfl⟩
  | now resolution => exact ⟨.tick _, h, rfl, rfl, rfl⟩
  | node =>
    refine ⟨?_, h, rfl, rfl, rfl⟩
    obtain ⟨rfl, rfl, -⟩ := h
    exact .node
  | generate form f patience =>
    obtain ⟨houtcome, hgenerator, hreadings, -, hparks, hclock⟩ := generateAs_twins c h hg form f patience s
    refine ⟨?_, hgenerator, hreadings, hparks, hclock⟩
    unfold perform
    dsimp only
    generalize (generateAs c form f patience g s).outcome = outcome at houtcome
    generalize (generateAs c form f patience g' s).outcome = outcome' at houtcome
    cases houtcome with
    | issued h => exact .issued h
    | failed failure => exact .failed failure
  | burst form f count patience =>
    have hstart : TwinBursts f a b { generator := g, clock := s } { generator := g', clock := s } :=
      ⟨.nil, rfl, h, rfl, rfl, rfl⟩
    obtain ⟨hissues, hfailure, hgenerator, hreadings, hparks, hclock⟩ :=
      continueBurst_twins c form f patience count hstart hg
    refine ⟨?_, hgenerator, hreadings, hparks, hclock⟩
    unfold perform burst
    dsimp only
    rw [← hfailure]
    exact .burst _ hissues

/-- **In step.**  Twins on copies of one clock go through any run alike. -/
theorem run_twins (h : Twins a b g g') (hg : g.Sound) (s : σ) (steps : List (Step σ)) :
    List.Forall₂ (Done.Twins a b) (run c g s steps) (run c g' s steps) := by
  induction steps generalizing g g' s with
  | nil => exact .nil
  | cons step steps ih =>
    have hstep := perform_twins c h hg s step
    refine .cons hstep ?_
    rw [hstep.clock_eq]
    exact ih hstep.generator ((perform_progress c hg s step).sound hg) _

/-! ## Ids of twin runs -/

/-- Where a format cannot tell the nodes apart, twin answers give out the same ids of it. -/
theorem idsOf_eq_of_twins {f : Format} (hnode : a % capacity f.layout.nodeBits = b % capacity f.layout.nodeBits)
    {x y : Answer} (h : Answer.Twins a b x y) : x.idsOf f = y.idsOf f := by
  cases h with
  | moved | tick _ | node | failed _ => rfl
  | @issued f' x y h =>
    show (if f' = f then [x.raw] else []) = if f' = f then [y.raw] else []
    split
    · next hf =>
      subst hf
      rw [eq_of_twins hnode h]
    · rfl
  | @burst f' xs ys failure h =>
    show (if f' = f then xs.map Issue.raw else []) = if f' = f then ys.map Issue.raw else []
    split
    · next hf =>
      subst hf
      have heq : List.Forall₂ (· = ·) xs ys := h.imp fun _ _ => eq_of_twins hnode
      rw [List.forall₂_eq_eq_eq] at heq
      rw [heq]
    · rfl

theorem issued_eq_of_twins {f : Format} (hnode : a % capacity f.layout.nodeBits = b % capacity f.layout.nodeBits)
    {dones dones' : List (Done σ)} (h : List.Forall₂ (Done.Twins a b) dones dones') :
    issued f dones = issued f dones' := by
  induction h with
  | nil => rfl
  | cons hdone _ ih =>
    unfold issued at ih ⊢
    rw [List.flatMap_cons, List.flatMap_cons, ih, idsOf_eq_of_twins hnode hdone.answer]

/-! ## Timing -/

/-- **Timing.**  Fresh generators of any two nodes, on copies of one clock, go through any steps alike:
step by step both give out ids with one timestamp and one sequence, each with its own node field, or
both fail alike; they park the same and leave the clock the same.  Where a format cannot tell the nodes
apart both give out the same ids; where it can, they never give out a common one, on any clocks. -/
theorem node_never_shifts_timing {gA gB : Generator} (hA : ofNodeId a = .ok gA) (hB : ofNodeId b = .ok gB) (s : σ)
    (steps : List (Step σ)) :
    List.Forall₂ (Done.Twins a b) (run c gA s steps) (run c gB s steps)
      ∧ ∀ f : Format,
        (a % capacity f.layout.nodeBits = b % capacity f.layout.nodeBits →
            issued f (run c gA s steps) = issued f (run c gB s steps))
          ∧ (a % capacity f.layout.nodeBits ≠ b % capacity f.layout.nodeBits →
            ∀ {τ υ : Type} (cA : Clock τ) (sA : τ) (stepsA : List (Step τ)) (cB : Clock υ) (sB : υ)
              (stepsB : List (Step υ)),
              (issued f (run cA gA sA stepsA)).Disjoint (issued f (run cB gB sB stepsB))) := by
  obtain ⟨hidA, hlastA⟩ := ofNodeId_eq_ok hA
  obtain ⟨hidB, hlastB⟩ := ofNodeId_eq_ok hB
  have htwins : Twins a b gA gB := ⟨hidA, hidB, hlastA.trans hlastB.symm⟩
  have hrun := run_twins c htwins (sound_of_fresh hA) s steps
  refine ⟨hrun, fun f => ⟨fun hnode => issued_eq_of_twins hnode hrun, ?_⟩⟩
  intro hnode τ υ cA sA stepsA cB sB stepsB id hidA hidB
  exact hnode ((history hA cA sA stepsA f).nodeField_eq_of_mem (history hB cB sB stepsB f) hidA hidB)

/-- The narrowest format takes node 7 for the greatest node there is; others tell them apart.  Both go
alike through a clock set back to zero, a call that is refused there and one that is cut short. -/
theorem timing_of_aliases :
    ∃ gA gB, ofNodeId 7 = .ok gA ∧ ofNodeId maxNodeId = .ok gB ∧
      7 % capacity Format.tiny.layout.nodeBits = maxNodeId % capacity Format.tiny.layout.nodeBits ∧
      7 % capacity Format.id48.layout.nodeBits ≠ maxNodeId % capacity Format.id48.layout.nodeBits ∧
      let start : ManualClock := .steady (customEpochMillis + 20000)
      let steps : List (Step ManualClock) :=
        [.burst .number .tiny 2 0, .move (·.set 0), .generate .typed .mini 3, .generate .number .tiny 0,
          .generate (.text .ascii) .tiny 3, .generate (.text .hex) .id48 3]
      let dones g := run ManualClock.clock g start steps
      List.Forall₂ (Done.Twins 7 maxNodeId) (dones gA) (dones gB)
        ∧ issued .tiny (dones gA) = [176, 177, 240] ∧ issued .tiny (dones gA) = issued .tiny (dones gB)
        ∧ issued .id48 (dones gA) = [1980416] ∧ issued .id48 (dones gB) = [2029568]
        ∧ (issued .id48 (dones gA)).Disjoint (issued .id48 (dones gB)) := by
  have hA : ofNodeId 7 = .ok { nodeId := 7, nodeId_le := by decide } := rfl
  have hB : ofNodeId maxNodeId = .ok { nodeId := maxNodeId, nodeId_le := Nat.le_refl _ } := rfl
  have hsame : 7 % capacity Format.tiny.layout.nodeBits = maxNodeId % capacity Format.tiny.layout.nodeBits := by decide
  have hother : 7 % capacity Format.id48.layout.nodeBits ≠ maxNodeId % capacity Format.id48.layout.nodeBits := by decide
  obtain ⟨htwins, hids⟩ := node_never_shifts_timing ManualClock.clock hA hB (.steady (customEpochMillis + 20000))
    [.burst .number .tiny 2 0, .move (·.set 0), .generate .typed .mini 3, .generate .number .tiny 0,
      .generate (.text .ascii) .tiny 3, .generate (.text .hex) .id48 3]
  exact ⟨_, _, hA, hB, hsame, hother, htwins, rfl, (hids .tiny).1 hsame, rfl, rfl,
    (hids .id48).2 hother ManualClock.clock _ _ ManualClock.clock _ _⟩

end Generator

end Snowflake
