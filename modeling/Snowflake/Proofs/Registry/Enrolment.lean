import Snowflake.Proofs.Registry.Progress

/-!
# Enrolment: which node ids have a generator

A lookup gives its node id a generator if it has none yet, at the end of the row, and
nothing else adds one.  So the row of node ids after a step depends on the row before and
on the node ids that the step looked up, whatever the clock does and by whichever way they
were named:

    (perform c r s step).registry.nodeIds
      = (step.lookups r.defaultNodeId).foldl enrolled r.nodeIds        (nodeIds_perform)
-/

namespace Snowflake.Registry

/-- The row of node ids with one more at its end, if it is a new one. -/
def enrolled (ids : List Nat) (nodeId : Nat) : List Nat := if nodeId ∈ ids then ids else ids ++ [nodeId]

/-- The rows after each of several groups of lookups. -/
def enrolments : List Nat → List (List Nat) → List (List Nat)
  | _, [] => []
  | ids, group :: groups => group.foldl enrolled ids :: enrolments (group.foldl enrolled ids) groups

/-- The node id that a lookup finds a generator for, if it is in range. -/
def Choice.lookups (defaultNodeId : Nat) (choice : Choice) : List Nat :=
  if choice.nodeId defaultNodeId ≤ maxNodeId then [choice.nodeId defaultNodeId] else []

/-- The node ids that a step finds generators for, in order. -/
def Step.lookups {σ : Type} (defaultNodeId : Nat) : Step σ → List Nat
  | .get choice => choice.lookups defaultNodeId
  | .same first second =>
    if first.nodeId defaultNodeId ≤ maxNodeId then
      first.nodeId defaultNodeId :: second.lookups defaultNodeId
    else []
  | .defaultCheck => [defaultNodeId]
  | .on choice _ => choice.lookups defaultNodeId
  | .defaultNodeId | .size | .move _ => []

variable {r : Registry} {choice : Choice} {nodeId : Nat}

theorem size_eq_length (r : Registry) : r.size = r.nodeIds.length := (List.length_map _).symm

/-! ## Lookups -/

/-- Only a node id out of range is refused, by its number. -/
theorem of_find_eq_error {e : Error} (h : r.find choice = .error e) :
    maxNodeId < choice.nodeId r.defaultNodeId ∧ e = .invalidNodeId (choice.nodeId r.defaultNodeId) := by
  cases choice with
  | default => cases h
  | node nodeId =>
    simp only [find, lookUp] at h
    split at h
    · cases h
    · next hlt =>
      cases h
      exact ⟨Nat.lt_of_not_le hlt, rfl⟩

theorem lookups_of_find_error {e : Error} (h : r.find choice = .error e) :
    choice.lookups r.defaultNodeId = [] := if_neg (Nat.not_le.2 (of_find_eq_error h).1)

theorem lookups_of_find_ok (hr : r.Sound) {a : Seated} (h : r.find choice = .ok a) :
    choice.lookups r.defaultNodeId = [choice.nodeId r.defaultNodeId] := if_pos (finds_of_find hr h).le

theorem nodeIds_of_seat (r : Registry) (h : nodeId ≤ maxNodeId) :
    (r.seat nodeId h).registry.nodeIds = enrolled r.nodeIds nodeId := by
  unfold enrolled
  split
  · next hmem => rw [registry_seat_of_mem h hmem]
  · next hnew => rw [registry_seat_of_not_mem h hnew, nodeIds_enrol]

theorem nodeIds_of_find (hr : r.Sound) {a : Seated} (h : r.find choice = .ok a) :
    a.registry.nodeIds = enrolled r.nodeIds (choice.nodeId r.defaultNodeId) := by
  cases choice with
  | node nodeId =>
    simp only [find, lookUp] at h
    split at h
    · next hle =>
      cases h
      exact nodeIds_of_seat r hle
    · cases h
  | default =>
    cases h
    unfold lookUpDefault
    split
    · next i hi =>
      exact (if_pos (List.mem_of_getElem? (hr.default_eq i hi))).symm
    · exact nodeIds_of_seat r r.defaultNodeId_le

/-! ## Steps and runs -/

variable {σ : Type} (c : Clock σ)

theorem nodeIds_perform (hr : r.Sound) (s : σ) (step : Step σ) :
    (perform c r s step).registry.nodeIds = (step.lookups r.defaultNodeId).foldl enrolled r.nodeIds := by
  cases step with
  | defaultNodeId | size | move _ => rfl
  | defaultCheck =>
    have ha : r.find .default = .ok r.lookUpDefault := rfl
    exact nodeIds_of_find hr ha
  | get choice =>
    unfold perform Step.lookups
    dsimp only
    cases ha : r.find choice with
    | error e =>
      rw [lookups_of_find_error ha]
      rfl
    | ok a =>
      rw [lookups_of_find_ok hr ha]
      exact nodeIds_of_find hr ha
  | on choice step =>
    unfold perform Step.lookups
    dsimp only
    cases ha : r.find choice with
    | error e =>
      rw [lookups_of_find_error ha]
      rfl
    | ok a =>
      have hsound := (finds_of_find hr ha).sound.sound _ (mem_generator a)
      rw [lookups_of_find_ok hr ha]
      exact (nodeIds_put (Generator.perform_progress c hsound s step).nodeId_eq).trans (nodeIds_of_find hr ha)
  | same first second =>
    unfold perform Step.lookups compare
    dsimp only
    cases ha : r.find first with
    | error e =>
      rw [if_neg (Nat.not_le.2 (of_find_eq_error ha).1)]
      rfl
    | ok a =>
      have hfirst := finds_of_find hr ha
      rw [if_pos hfirst.le, ← hfirst.defaultNodeId_eq, List.foldl_cons, hfirst.defaultNodeId_eq,
        ← nodeIds_of_find hr ha, ← hfirst.defaultNodeId_eq]
      dsimp only
      cases hb : a.registry.find second with
      | error e =>
        rw [lookups_of_find_error hb]
        rfl
      | ok b =>
        rw [lookups_of_find_ok hfirst.sound hb]
        exact nodeIds_of_find hfirst.sound hb

/-- The rows of node ids that a run goes through are those that its lookups make. -/
theorem nodeIds_run (hr : r.Sound) (s : σ) (steps : List (Step σ)) :
    (run c r s steps).map (fun done => done.registry.nodeIds)
      = enrolments r.nodeIds (steps.map (Step.lookups r.defaultNodeId)) := by
  induction steps generalizing r s with
  | nil => rfl
  | cons step steps ih =>
    have hstep := perform_progress c hr s step
    have hrest := ih hstep.sound (perform c r s step).clock
    rw [hstep.defaultNodeId_eq, nodeIds_perform c hr] at hrest
    rw [List.map_cons, enrolments, ← hrest, ← nodeIds_perform c hr s step]
    rfl

theorem sizes_run (hr : r.Sound) (s : σ) (steps : List (Step σ)) :
    (run c r s steps).map (fun done => done.registry.size)
      = (enrolments r.nodeIds (steps.map (Step.lookups r.defaultNodeId))).map List.length := by
  rw [← nodeIds_run c hr, List.map_map]
  exact List.map_congr_left fun done _ => done.registry.size_eq_length

end Snowflake.Registry
