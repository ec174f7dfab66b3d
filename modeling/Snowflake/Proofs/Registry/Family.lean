import Mathlib.Logic.Function.Basic
import Snowflake.Proofs.Registry.Enrolment
import Snowflake.Proofs.Registry.History

/-!
# A registry is a family of standalone generators

A `Family` holds one generator for each node id in range from the start and shares nothing
between them; it knows no seats and creates nothing.  The family of a registry has the
generators that were made so far, and fresh ones for the other node ids.  A lookup does not
change it, so performing a step and taking the family commute:

    Family.perform c r.defaultNodeId r.family s step
      = ((perform c r s step).outcome, (perform c r s step).registry.family)    (family_perform)

Hence a run of a registry shows what the family would show (`family_run`).  A family does
not notice lookups, nor by which name its generators are asked for; so neither matters to
the ids of a registry.
-/

namespace Snowflake

/-- What a step shows: its answer, the readings and pauses in order, and the clock after it. -/
structure Registry.Outcome (σ : Type) where
  answer : Registry.Answer
  readings : List Nat := []
  parks : List Nat := []
  clock : σ

/-- The generator of each node id, or why it has none. -/
abbrev Family := Nat → Except Error Generator

namespace Family

open Registry

variable {σ : Type}

/-- Whether two node ids have one generator. -/
def compare (fam : Family) (first second : Nat) : Answer :=
  match fam first with
  | .error e => .refused e
  | .ok g =>
    match fam second with
    | .error e => .refused e
    | .ok h => .same (g.nodeId = h.nodeId)

/-- A step on a family, and the family after it; the default names a node id and nothing else. -/
def perform (c : Clock σ) (defaultNodeId : Nat) (fam : Family) (s : σ) : Step σ → Outcome σ × Family
  | .get choice =>
    match fam (choice.nodeId defaultNodeId) with
    | .error e => ({ answer := .refused e, clock := s }, fam)
    | .ok g => ({ answer := .nodeId g.nodeId, clock := s }, fam)
  | .same first second =>
    ({ answer := fam.compare (first.nodeId defaultNodeId) (second.nodeId defaultNodeId), clock := s }, fam)
  | .defaultNodeId => ({ answer := .nodeId defaultNodeId, clock := s }, fam)
  | .defaultCheck =>
    match fam defaultNodeId with
    | .error e => ({ answer := .refused e, clock := s }, fam)
    | .ok g =>
      ({ answer := .defaultCheck (defaultNodeId ≤ maxNodeId) (g.nodeId = defaultNodeId), clock := s }, fam)
  | .size => ({ answer := .size, clock := s }, fam)
  | .move f => ({ answer := .moved, clock := f s }, fam)
  | .on choice step =>
    match fam (choice.nodeId defaultNodeId) with
    | .error e => ({ answer := .refused e, clock := s }, fam)
    | .ok g =>
      let done := Generator.perform c g s step
      ({ answer := .generator g.nodeId done.answer, readings := done.readings, parks := done.parks,
         clock := done.clock },
        Function.update fam (choice.nodeId defaultNodeId) (.ok done.generator))

/-- The steps in order, each with what it shows. -/
def run (c : Clock σ) (defaultNodeId : Nat) (fam : Family) (s : σ) : List (Step σ) → List (Outcome σ)
  | [] => []
  | step :: steps =>
    let (outcome, fam) := perform c defaultNodeId fam s step
    outcome :: run c defaultNodeId fam outcome.clock steps

end Family

namespace Registry

variable {σ : Type}

def Done.outcome (done : Done σ) : Outcome σ :=
  { answer := done.answer, readings := done.readings, parks := done.parks, clock := done.clock }

/-- The family that a registry stands for: a generator that it has not made yet is a fresh one. -/
def family (r : Registry) : Family := fun nodeId =>
  if h : nodeId ≤ maxNodeId then .ok { nodeId, last := r.memory nodeId, nodeId_le := h }
  else .error (.invalidNodeId nodeId)

variable {r : Registry} {choice : Choice} {nodeId : Nat}

/-! ## The family of a registry -/

theorem family_of_fresh {settings : Settings} {drawn : Fin (maxNodeId + 1)}
    (hr : ofSettings settings drawn = .ok r) : r.family = Generator.ofNodeId := by
  funext nodeId
  unfold family Generator.ofNodeId
  rw [memory_of_fresh hr]

theorem family_congr {r' : Registry} (h : ∀ n, r'.memory n = r.memory n) : r'.family = r.family := by
  funext nodeId
  unfold family
  rw [h]

theorem Finds.family_eq {a : Seated} (h : r.Finds nodeId a) : a.registry.family = r.family :=
  family_congr h.memory_eq

/-- A lookup finds the generator that the family has from the start. -/
theorem Finds.family_apply {a : Seated} (h : r.Finds nodeId a) : r.family nodeId = .ok a.generator := by
  obtain rfl := h.nodeId_eq
  unfold family
  rw [dif_pos h.le, ← h.last_eq]

theorem family_of_find_error {e : Error} (h : r.find choice = .error e) :
    r.family (choice.nodeId r.defaultNodeId) = .error e := by
  obtain ⟨hlt, rfl⟩ := of_find_eq_error h
  exact dif_neg (Nat.not_le.2 hlt)

theorem family_put {a : Seated} (ha : a.registry.Sound) {g : Generator} (hid : g.nodeId = a.generator.nodeId) :
    (a.put g).family = Function.update a.registry.family a.generator.nodeId (.ok g) := by
  funext nodeId
  rw [Function.update_apply, ← hid]
  unfold family
  rw [memory_put ha hid]
  by_cases h : nodeId = g.nodeId
  · subst h
    rw [if_pos rfl, if_pos rfl, dif_pos g.nodeId_le]
  · rw [if_neg h, if_neg h]

/-- Two lookups share a seat just if they found one node id. -/
theorem seat_eq_iff {a b : Seated} (hb : a.registry.Finds nodeId b) :
    a.seat.val = b.seat.val ↔ a.generator.nodeId = b.generator.nodeId := by
  obtain ⟨hlt, hid⟩ := List.getElem?_eq_some_iff.1 (nodeIds_seat a)
  have hfirst : b.registry.nodeIds[a.seat.val]? = some a.generator.nodeId :=
    (List.prefix_iff_getElem?.1 hb.nodeIds_prefix _ hlt).trans (congrArg some hid)
  have hsecond := nodeIds_seat b
  constructor
  · intro h
    rw [h] at hfirst
    exact Option.some.inj (hfirst.symm.trans hsecond)
  · intro h
    rw [← h] at hsecond
    exact (List.getElem?_inj (List.getElem?_eq_some_iff.1 hfirst).1 hb.sound.nodup).1 (hfirst.trans hsecond.symm)

/-! ## Steps and runs -/

variable (c : Clock σ)

theorem family_compare (hr : r.Sound) (first second : Choice) :
    r.family.compare (first.nodeId r.defaultNodeId) (second.nodeId r.defaultNodeId) = (r.compare first second).1
      ∧ (r.compare first second).2.family = r.family := by
  unfold Family.compare compare
  cases ha : r.find first with
  | error e =>
    rw [family_of_find_error ha]
    exact ⟨rfl, rfl⟩
  | ok a =>
    have hfirst := finds_of_find hr ha
    rw [hfirst.family_apply, ← hfirst.family_eq, ← hfirst.defaultNodeId_eq]
    dsimp only
    cases hb : a.registry.find second with
    | error e =>
      rw [family_of_find_error hb]
      exact ⟨rfl, rfl⟩
    | ok b =>
      have hsecond := finds_of_find hfirst.sound hb
      rw [hsecond.family_apply]
      exact ⟨congrArg Answer.same (decide_eq_decide.2 (seat_eq_iff hsecond).symm), hsecond.family_eq⟩

/-- **One step.**  What a registry shows is what its family shows, and the two stay in step. -/
theorem family_perform (hr : r.Sound) (s : σ) (step : Step σ) :
    Family.perform c r.defaultNodeId r.family s step
      = ((perform c r s step).outcome, (perform c r s step).registry.family) := by
  cases step with
  | defaultNodeId | size | move _ => rfl
  | defaultCheck =>
    have ha := finds_lookUpDefault hr
    unfold Family.perform perform
    rw [ha.family_apply, ha.family_eq]
    rfl
  | same first second =>
    obtain ⟨hanswer, hfam⟩ := family_compare hr first second
    unfold Family.perform perform
    dsimp only
    rw [hanswer, hfam]
    rfl
  | get choice =>
    unfold Family.perform perform
    dsimp only
    cases ha : r.find choice with
    | error e =>
      rw [family_of_find_error ha]
      rfl
    | ok a =>
      have ha := finds_of_find hr ha
      rw [ha.family_apply, ha.family_eq]
      rfl
  | on choice step =>
    unfold Family.perform perform
    dsimp only
    cases ha : r.find choice with
    | error e =>
      rw [family_of_find_error ha]
      rfl
    | ok a =>
      have ha := finds_of_find hr ha
      have hg := Generator.perform_progress c (ha.sound.sound _ (mem_generator a)) s step
      rw [ha.family_apply, family_put ha.sound hg.nodeId_eq, ha.family_eq, ha.nodeId_eq]
      rfl

theorem family_run (hr : r.Sound) (s : σ) (steps : List (Step σ)) :
    (run c r s steps).map Done.outcome = Family.run c r.defaultNodeId r.family s steps := by
  induction steps generalizing r s with
  | nil => rfl
  | cons step steps ih =>
    have hstep := perform_progress c hr s step
    have hrest := ih hstep.sound (perform c r s step).clock
    rw [hstep.defaultNodeId_eq] at hrest
    rw [Family.run, family_perform c hr]
    exact congrArg ((perform c r s step).outcome :: ·) hrest

/-! ## Names and lookups -/

def Choice.named (defaultNodeId : Nat) (choice : Choice) : Choice := .node (choice.nodeId defaultNodeId)

/-- The step with its generators asked for by node id, the default one too. -/
def Step.named (defaultNodeId : Nat) : Step σ → Step σ
  | .get choice => .get (choice.named defaultNodeId)
  | .same first second => .same (first.named defaultNodeId) (second.named defaultNodeId)
  | .on choice step => .on (choice.named defaultNodeId) step
  | step => step

/-- The step under its generator's node id, if it does more than look up: a step on a
generator that there is, or a move of the clock. -/
def Step.acting? (defaultNodeId : Nat) : Step σ → Option (Step σ)
  | .on choice step =>
    if choice.nodeId defaultNodeId ≤ maxNodeId then some (.on (choice.named defaultNodeId) step) else none
  | .move f => some (.move f)
  | _ => none

theorem Step.acting?_on (defaultNodeId : Nat) (choice : Choice) (step : Generator.Step σ) :
    (Step.on choice step).acting? defaultNodeId
      = if choice.nodeId defaultNodeId ≤ maxNodeId then some (.on (choice.named defaultNodeId) step) else none :=
  rfl

/-- What the acting steps of a run showed. -/
def acted (defaultNodeId : Nat) (steps : List (Step σ)) (dones : List (Done σ)) : List (Outcome σ) :=
  ((steps.zip dones).filter fun (step, _) => (step.acting? defaultNodeId).isSome).map fun (_, done) => done.outcome

variable {defaultNodeId : Nat} {fam : Family} {s : σ} {step act : Step σ}

theorem family_perform_named : Family.perform c defaultNodeId fam s (step.named defaultNodeId)
    = Family.perform c defaultNodeId fam s step := by cases step <;> rfl

theorem family_run_named (steps : List (Step σ)) :
    Family.run c defaultNodeId fam s (steps.map (Step.named defaultNodeId))
      = Family.run c defaultNodeId fam s steps := by
  induction steps generalizing fam s with
  | nil => rfl
  | cons step steps ih =>
    rw [List.map_cons, Family.run, Family.run, family_perform_named]
    exact congrArg _ ih

theorem map_lookups_named (steps : List (Step σ)) :
    (steps.map (Step.named defaultNodeId)).map (Step.lookups defaultNodeId)
      = steps.map (Step.lookups defaultNodeId) := by
  rw [List.map_map]
  refine List.map_congr_left fun step _ => ?_
  cases step <;> rfl

/-- An acting step names its generator, so nothing hangs on the default node id. -/
theorem family_perform_acting (h : step.acting? defaultNodeId = some act) (d : Nat) :
    Family.perform c d fam s act = Family.perform c defaultNodeId fam s step := by
  cases step with
  | move f =>
    cases h
    rfl
  | on choice step =>
    rw [Step.acting?_on] at h
    split at h
    · cases h
      rfl
    · cases h
  | get _ | same _ _ | defaultNodeId | defaultCheck | size => cases h

theorem family_perform_of_not_acting (h : step.acting? defaultNodeId = none) :
    (Family.perform c defaultNodeId r.family s step).2 = r.family
      ∧ (Family.perform c defaultNodeId r.family s step).1.clock = s := by
  unfold Family.perform
  cases step with
  | move f => cases h
  | on choice step =>
    have hlt : ¬choice.nodeId defaultNodeId ≤ maxNodeId := fun hle => by
      rw [Step.acting?_on, if_pos hle] at h
      cases h
    have hfam : r.family (choice.nodeId defaultNodeId) = .error (.invalidNodeId (choice.nodeId defaultNodeId)) :=
      dif_neg hlt
    dsimp only
    rw [hfam]
    exact ⟨rfl, rfl⟩
  | get _ | defaultCheck =>
    dsimp only
    split <;> exact ⟨rfl, rfl⟩
  | same _ _ | defaultNodeId | size => exact ⟨rfl, rfl⟩

/-- The acting steps show what the family would show if there were no other steps. -/
theorem acted_run (hr : r.Sound) (s : σ) (steps : List (Step σ)) (d : Nat) :
    acted r.defaultNodeId steps (run c r s steps)
      = Family.run c d r.family s (steps.filterMap (Step.acting? r.defaultNodeId)) := by
  induction steps generalizing r s with
  | nil => rfl
  | cons step steps ih =>
    have hstep := perform_progress c hr s step
    have hrest := ih hstep.sound (perform c r s step).clock
    rw [hstep.defaultNodeId_eq] at hrest
    have hfam := family_perform c hr s step
    unfold acted at hrest ⊢
    rw [run, List.zip_cons_cons]
    cases hact : step.acting? r.defaultNodeId with
    | none =>
      obtain ⟨hkept, hclock⟩ := family_perform_of_not_acting c (s := s) hact
      rw [hfam] at hkept hclock
      dsimp only [Done.outcome] at hkept hclock
      rw [List.filter_cons_of_neg (by simp [hact]), List.filterMap_cons_none hact, hrest, hkept, hclock]
    | some act =>
      rw [List.filter_cons_of_pos (by simp [hact]), List.filterMap_cons_some hact, List.map_cons, hrest,
        Family.run, family_perform_acting c hact, hfam]
      rfl

/-- **Registries are families.**  A run of a registry shows what standalone generators would
show that were there from the start, one for each node id.  So two registries on one clock,
whatever their defaults, show the same of all that is done with generators and clock, however
they look generators up between and by whichever names.  In one registry nothing at all hangs
on whether the default generator is asked for as the default or by its node id, nor does the
number of generators. -/
theorem indistinguishable_from_family {settings : Settings} {drawn : Fin (maxNodeId + 1)}
    (hr : ofSettings settings drawn = .ok r) (c : Clock σ) (s : σ) (steps : List (Step σ)) :
    let d := r.defaultNodeId
    (run c r s steps).map Done.outcome = Family.run c d Generator.ofNodeId s steps
      ∧ (∀ settings' drawn' r', ofSettings settings' drawn' = .ok r' →
          ∀ steps', steps'.filterMap (Step.acting? r'.defaultNodeId) = steps.filterMap (Step.acting? d) →
            acted r'.defaultNodeId steps' (run c r' s steps') = acted d steps (run c r s steps))
      ∧ ∀ steps', steps'.map (Step.named d) = steps.map (Step.named d) →
          (run c r s steps').map Done.outcome = (run c r s steps).map Done.outcome
          ∧ (run c r s steps').map (fun done => done.registry.size)
            = (run c r s steps).map (fun done => done.registry.size) := by
  intro d
  have hsound := sound_of_fresh hr
  have hrun := fun steps => family_of_fresh hr ▸ family_run c hsound s steps
  refine ⟨hrun steps, ?_, ?_⟩
  · intro settings' drawn' r' hr' steps' hacting
    rw [acted_run c (sound_of_fresh hr') s steps' 0, acted_run c hsound s steps 0, family_of_fresh hr',
      family_of_fresh hr, hacting]
  · intro steps' hnamed
    constructor
    · rw [hrun, hrun, ← family_run_named c steps', hnamed, family_run_named]
    · rw [sizes_run c hsound, sizes_run c hsound, ← map_lookups_named steps', hnamed, map_lookups_named]

/-- Node 6 is the default: its two names, in either order and with a refused lookup between.  A
registry with another default gives out the same, when node 6 is all it is asked for. -/
theorem default_by_either_name :
    ∃ r, ofSettings { defaultNodeId := some 6 } 0 = .ok r ∧
      let next : Generator.Step ManualClock := .generate .number .tiny 3
      let steps : List (Step ManualClock) :=
        [.on (.node 6) next, .get (.node (maxNodeId + 1)), .on .default next, .same .default (.node 6)]
      let others : List (Step ManualClock) :=
        [.on .default next, .get (.node (maxNodeId + 1)), .on (.node 6) next, .same (.node 6) .default]
      let clock : ManualClock := .steady (customEpochMillis + 20000)
      let dones := run ManualClock.clock r clock steps
      given .tiny 6 steps dones = [⟨6, 160⟩, ⟨6, 161⟩]
      ∧ dones.map (fun done => done.registry.size) = [1, 1, 1, 1]
      ∧ dones.map Done.outcome = Family.run ManualClock.clock 6 Generator.ofNodeId clock steps
      ∧ acted 9 [.on (.node 6) next, .on (.node 6) next]
          (run ManualClock.clock (ofDrawn 9) clock [.on (.node 6) next, .on (.node 6) next]) = acted 6 steps dones
      ∧ (run ManualClock.clock r clock others).map Done.outcome = dones.map Done.outcome
      ∧ (run ManualClock.clock r clock others).map (fun done => done.registry.size)
        = dones.map (fun done => done.registry.size) := by
  have hr : ofSettings { defaultNodeId := some 6 } 0 = .ok { defaultNodeId := 6, defaultNodeId_le := by decide } :=
    rfl
  have h := indistinguishable_from_family hr ManualClock.clock
  exact ⟨_, hr, rfl, rfl, (h _ _).1, (h _ _).2.1 {} 9 _ rfl _ rfl, (h _ _).2.2 _ rfl⟩

end Registry

end Snowflake
