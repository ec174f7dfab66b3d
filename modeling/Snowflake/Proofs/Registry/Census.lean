import Mathlib.Data.Finset.Card
import Snowflake.Clock.Manual
import Snowflake.Proofs.Registry.Enrolment
import Snowflake.Proofs.Registry.History

/-!
# Census: how many generators there are, and whose

Over a whole run of a registry, however its two ways to a generator are mixed:

* the node ids that have a generator are those looked up so far, each once, so their number
  is the number of distinct ones (`size_run`), and it stands still in a step that looks up
  nothing new (`size_perform_eq_iff`);
* `found c r s steps` lists the lookups that found a generator, each with the seat it found.
  A seat belongs to a node id for good, so two lookups found one seat exactly if they named
  one node id (`seat_eq_iff_named_eq`).
-/

namespace Snowflake.Registry

/-- A lookup that found a generator. -/
structure Lookup where
  /-- The node id that was asked for; the default stands for the default node id. -/
  named : Nat
  /-- The seat of the generator that was found. -/
  seat : Nat
  /-- The generator's own node id. -/
  nodeId : Nat
deriving DecidableEq, Repr

/-- The lookup of a choice, if it is not refused. -/
def lookupOf (r : Registry) (choice : Choice) : List Lookup :=
  match r.find choice with
  | .error _ => []
  | .ok a => [{ named := choice.nodeId r.defaultNodeId, seat := a.seat, nodeId := a.generator.nodeId }]

variable {σ : Type}

/-- The lookups of a step that found a generator, in order. -/
def Step.found (r : Registry) : Step σ → List Lookup
  | .get choice => r.lookupOf choice
  | .same first second =>
    match r.find first with
    | .error _ => []
    | .ok a => r.lookupOf first ++ a.registry.lookupOf second
  | .defaultCheck => r.lookupOf .default
  | .on choice _ => r.lookupOf choice
  | .defaultNodeId | .size | .move _ => []

/-- The lookups of a run that found a generator, in order. -/
def found (c : Clock σ) (r : Registry) (s : σ) : List (Step σ) → List Lookup
  | [] => []
  | step :: steps =>
    step.found r ++ found c (perform c r s step).registry (perform c r s step).clock steps

/-! ## Rows of node ids -/

theorem mem_foldl_enrolled {n : Nat} {ids new : List Nat} :
    n ∈ new.foldl enrolled ids ↔ n ∈ ids ∨ n ∈ new := by
  induction new generalizing ids with
  | nil => simp
  | cons m new ih =>
    have hstep : n ∈ enrolled ids m ↔ n ∈ ids ∨ n = m := by
      unfold enrolled
      by_cases hm : m ∈ ids
      · rw [if_pos hm]
        constructor
        · exact Or.inl
        · rintro (h | rfl)
          · exact h
          · exact hm
      · rw [if_neg hm]
        simp
    rw [List.foldl_cons, ih, hstep, List.mem_cons, or_assoc]

theorem prefix_foldl_enrolled (ids new : List Nat) : ids <+: new.foldl enrolled ids := by
  induction new generalizing ids with
  | nil => exact List.prefix_refl ids
  | cons m new ih =>
    have hstep : ids <+: enrolled ids m := by
      unfold enrolled
      split
      · exact List.prefix_refl ids
      · exact List.prefix_append ..
    exact hstep.trans (ih _)

theorem foldl_enrolled_of_subset {ids new : List Nat} (h : ∀ n ∈ new, n ∈ ids) :
    new.foldl enrolled ids = ids := by
  induction new with
  | nil => rfl
  | cons m new ih =>
    have hm : enrolled ids m = ids := if_pos (h m List.mem_cons_self)
    rw [List.foldl_cons, hm]
    exact ih fun n hn => h n (List.mem_cons_of_mem m hn)

/-- A row grows by what is new to it, and only by that. -/
theorem length_foldl_enrolled_eq_iff {ids new : List Nat} :
    (new.foldl enrolled ids).length = ids.length ↔ ∀ n ∈ new, n ∈ ids := by
  constructor
  · intro hlen n hn
    rw [(prefix_foldl_enrolled ids new).eq_of_length hlen.symm]
    exact mem_foldl_enrolled.2 (Or.inr hn)
  · intro h
    rw [foldl_enrolled_of_subset h]

/-! ## Counting generators -/

variable {r : Registry} (c : Clock σ)

/-- The row at the end of a run is made by all its lookups. -/
theorem nodeIds_after (hr : r.Sound) (s : σ) (steps : List (Step σ)) :
    (after r (run c r s steps)).nodeIds
      = (steps.flatMap (Step.lookups r.defaultNodeId)).foldl enrolled r.nodeIds := by
  induction steps generalizing r s with
  | nil => rfl
  | cons step steps ih =>
    have hstep := perform_progress c hr s step
    have hrest := ih hstep.sound (perform c r s step).clock
    rw [hstep.defaultNodeId_eq, nodeIds_perform c hr] at hrest
    rw [List.flatMap_cons, List.foldl_append]
    exact hrest

theorem isEmpty_iff (r : Registry) : r.isEmpty = true ↔ r.size = 0 := by
  unfold isEmpty size
  rw [List.isEmpty_iff, List.length_eq_zero_iff]

theorem mem_nodeIds_after (hr : r.Sound) (s : σ) (steps : List (Step σ)) {n : Nat} :
    n ∈ (after r (run c r s steps)).nodeIds
      ↔ n ∈ r.nodeIds ∨ n ∈ steps.flatMap (Step.lookups r.defaultNodeId) := by
  rw [nodeIds_after c hr, mem_foldl_enrolled]

/-- A registry that starts empty has as many generators as different node ids were looked up. -/
theorem size_run (hr : r.Sound) (hempty : r.nodeIds = []) (s : σ) (steps : List (Step σ)) :
    (after r (run c r s steps)).size = (steps.flatMap (Step.lookups r.defaultNodeId)).toFinset.card := by
  have hnodup := (run_progress c hr s steps).sound.nodup
  have hset : (after r (run c r s steps)).nodeIds.toFinset
      = (steps.flatMap (Step.lookups r.defaultNodeId)).toFinset := by
    ext n
    rw [List.mem_toFinset, List.mem_toFinset, mem_nodeIds_after c hr, hempty]
    simp
  rw [size_eq_length, ← hset, List.toFinset_card_of_nodup hnodup]

theorem size_le_perform (hr : r.Sound) (s : σ) (step : Step σ) :
    r.size ≤ (perform c r s step).registry.size := by
  have hstep := perform_progress c hr s step
  rw [size_eq_length, size_eq_length]
  exact hstep.nodeIds_prefix.length_le

/-- A step leaves the number of generators alone if all that it looks up has one, and only then. -/
theorem size_perform_eq_iff (hr : r.Sound) (s : σ) (step : Step σ) :
    (perform c r s step).registry.size = r.size ↔ ∀ n ∈ step.lookups r.defaultNodeId, n ∈ r.nodeIds := by
  rw [size_eq_length, size_eq_length, nodeIds_perform c hr]
  exact length_foldl_enrolled_eq_iff

/-! ## Lookups and their seats -/

theorem lookupOf_of_error {choice : Choice} {e : Error} (h : r.find choice = .error e) :
    r.lookupOf choice = [] := by
  unfold lookupOf
  rw [h]

theorem lookupOf_of_ok {choice : Choice} {a : Seated} (h : r.find choice = .ok a) :
    r.lookupOf choice
      = [{ named := choice.nodeId r.defaultNodeId, seat := a.seat, nodeId := a.generator.nodeId }] := by
  unfold lookupOf
  rw [h]

theorem exists_find_of_mem_lookupOf {choice : Choice} {x : Lookup} (hx : x ∈ r.lookupOf choice) :
    ∃ a, r.find choice = .ok a := by
  cases h : r.find choice with
  | error e =>
    rw [lookupOf_of_error h] at hx
    cases hx
  | ok a => exact ⟨a, rfl⟩

theorem named_lookupOf (hr : r.Sound) (choice : Choice) :
    (r.lookupOf choice).map Lookup.named = choice.lookups r.defaultNodeId := by
  cases h : r.find choice with
  | error e =>
    rw [lookupOf_of_error h, lookups_of_find_error h]
    rfl
  | ok a =>
    rw [lookupOf_of_ok h, lookups_of_find_ok hr h]
    rfl

/-- A step finds a generator for every node id that it looks up and that is in range. -/
theorem named_found_step (hr : r.Sound) (step : Step σ) :
    (step.found r).map Lookup.named = step.lookups r.defaultNodeId := by
  cases step with
  | defaultNodeId | size | move _ => rfl
  | get choice => exact named_lookupOf hr choice
  | on choice _ => exact named_lookupOf hr choice
  | defaultCheck => rfl
  | same first second =>
    unfold Step.found Step.lookups
    dsimp only
    cases ha : r.find first with
    | error e =>
      rw [if_neg (Nat.not_le.2 (of_find_eq_error ha).1)]
      rfl
    | ok a =>
      have hfirst := finds_of_find hr ha
      have hsecond := named_lookupOf hfirst.sound second
      rw [hfirst.defaultNodeId_eq] at hsecond
      rw [if_pos hfirst.le]
      dsimp only
      rw [List.map_append, hsecond, lookupOf_of_ok ha]
      rfl

theorem named_found (hr : r.Sound) (s : σ) (steps : List (Step σ)) :
    (found c r s steps).map Lookup.named = steps.flatMap (Step.lookups r.defaultNodeId) := by
  induction steps generalizing r s with
  | nil => rfl
  | cons step steps ih =>
    have hstep := perform_progress c hr s step
    have hrest := ih hstep.sound (perform c r s step).clock
    rw [hstep.defaultNodeId_eq] at hrest
    unfold found
    rw [List.map_append, named_found_step hr, hrest, List.flatMap_cons]

/-- The generator that was found has the node id that was named, and that node id has the seat. -/
def Lookup.Holds (r : Registry) (x : Lookup) : Prop := x.nodeId = x.named ∧ r.nodeIds[x.seat]? = some x.named

/-- Seats are kept: a registry that has more generators agrees. -/
theorem Lookup.Holds.mono {x : Lookup} {r r' : Registry} (h : x.Holds r) (hpre : r.nodeIds <+: r'.nodeIds) :
    x.Holds r' := by
  obtain ⟨hlt, hid⟩ := List.getElem?_eq_some_iff.1 h.2
  exact ⟨h.1, (List.prefix_iff_getElem?.1 hpre _ hlt).trans (congrArg some hid)⟩

theorem holds_of_find (hr : r.Sound) {choice : Choice} {a : Seated} (h : r.find choice = .ok a) :
    ∀ x ∈ r.lookupOf choice, x.Holds a.registry := by
  intro x hx
  rw [lookupOf_of_ok h] at hx
  obtain rfl := List.mem_singleton.1 hx
  have hid := (finds_of_find hr h).nodeId_eq
  exact ⟨hid, (nodeIds_seat a).trans (congrArg some hid)⟩

/-- What a step found holds after the step. -/
theorem holds_found_step (hr : r.Sound) (s : σ) (step : Step σ) :
    ∀ x ∈ step.found r, x.Holds (perform c r s step).registry := by
  cases step with
  | defaultNodeId | size | move _ =>
    intro x hx
    cases hx
  | defaultCheck =>
    have ha : r.find .default = .ok r.lookUpDefault := rfl
    exact holds_of_find hr ha
  | get choice =>
    intro x hx
    obtain ⟨a, ha⟩ := exists_find_of_mem_lookupOf hx
    unfold perform
    dsimp only
    rw [ha]
    exact holds_of_find hr ha x hx
  | on choice step =>
    intro x hx
    obtain ⟨a, ha⟩ := exists_find_of_mem_lookupOf hx
    have hsound := (finds_of_find hr ha).sound.sound _ (mem_generator a)
    have hput := nodeIds_put (Generator.perform_progress c hsound s step).nodeId_eq
    unfold perform
    dsimp only
    rw [ha]
    refine (holds_of_find hr ha x hx).mono ?_
    rw [hput]
  | same first second =>
    intro x hx
    unfold perform compare
    unfold Step.found at hx
    dsimp only at hx ⊢
    cases ha : r.find first with
    | error e =>
      rw [ha] at hx
      cases hx
    | ok a =>
      rw [ha] at hx
      dsimp only at hx ⊢
      have hfirst := finds_of_find hr ha
      rcases List.mem_append.1 hx with hx | hx
      · have hholds := holds_of_find hr ha x hx
        cases hb : a.registry.find second with
        | error e => exact hholds
        | ok b =>
          have hsecond := finds_of_find hfirst.sound hb
          exact hholds.mono hsecond.nodeIds_prefix
      · obtain ⟨b, hb⟩ := exists_find_of_mem_lookupOf hx
        rw [hb]
        exact holds_of_find hfirst.sound hb x hx

theorem holds_found (hr : r.Sound) (s : σ) (steps : List (Step σ)) :
    ∀ x ∈ found c r s steps, x.Holds (after r (run c r s steps)) := by
  induction steps generalizing r s with
  | nil =>
    intro x hx
    cases hx
  | cons step steps ih =>
    have hstep := perform_progress c hr s step
    have hrest := run_progress c hstep.sound (perform c r s step).clock steps
    intro x hx
    rcases List.mem_append.1 hx with hx | hx
    · exact (holds_found_step c hr s step x hx).mono hrest.nodeIds_prefix
    · exact ih hstep.sound _ x hx

/-- Two lookups found one seat exactly if they named one node id. -/
theorem seat_eq_iff_named_eq (hr : r.Sound) {x y : Lookup} (hx : x.Holds r) (hy : y.Holds r) :
    x.seat = y.seat ↔ x.named = y.named := by
  constructor
  · intro h
    have hseat := hx.2
    rw [h, hy.2] at hseat
    exact (Option.some.inj hseat).symm
  · intro h
    have hlt := (List.getElem?_eq_some_iff.1 hx.2).1
    exact (List.getElem?_inj hlt hr.nodup).1 (hx.2.trans (h ▸ hy.2.symm))

/-! ## Refusals -/

theorem lookUp_of_lt {nodeId : Nat} (h : maxNodeId < nodeId) (r : Registry) :
    r.lookUp nodeId = .error (.invalidNodeId nodeId) := dif_neg (Nat.not_le.2 h)

/-- A node id out of range is refused by its number, at once and without a trace. -/
theorem perform_of_lt {nodeId : Nat} (h : maxNodeId < nodeId) (r : Registry) (s : σ) :
    let refusal : Done σ := { answer := .refused (.invalidNodeId nodeId), registry := r, clock := s }
    perform c r s (.get (.node nodeId)) = refusal
      ∧ (∀ step, perform c r s (.on (.node nodeId) step) = refusal)
      ∧ ∀ second, perform c r s (.same (.node nodeId) second) = refusal := by
  have hfind : r.find (.node nodeId) = .error (.invalidNodeId nodeId) := lookUp_of_lt h r
  refine ⟨?_, fun step => ?_, fun second => ?_⟩
  · unfold perform
    dsimp only
    rw [hfind]
  · unfold perform
    dsimp only
    rw [hfind]
  · unfold perform compare
    dsimp only
    rw [hfind]

/-- After the lookup of another generator, such a node id leaves what that lookup left. -/
theorem perform_same_of_lt {nodeId : Nat} (h : maxNodeId < nodeId) (r : Registry) (s : σ) (first : Choice) :
    (perform c r s (.same first (.node nodeId))).registry = (perform c r s (.get first)).registry := by
  unfold perform compare
  dsimp only
  cases ha : r.find first with
  | error e => rfl
  | ok a =>
    have hfind : a.registry.find (.node nodeId) = .error (.invalidNodeId nodeId) := lookUp_of_lt h _
    dsimp only
    rw [hfind]

/-! ## Whole runs -/

variable {settings : Settings} {drawn : Fin (maxNodeId + 1)}

/-- A registry's default node id is the one that was set, or the one that was drawn. -/
theorem defaultNodeId_of_fresh (hr : ofSettings settings drawn = .ok r) :
    r.defaultNodeId = drawn ∨ settings.defaultNodeId = some r.defaultNodeId := by
  unfold ofSettings at hr
  cases hdefault : settings.defaultNodeId with
  | none =>
    rw [hdefault] at hr
    cases hr
    exact Or.inl rfl
  | some nodeId =>
    rw [hdefault] at hr
    dsimp only at hr
    split at hr
    · cases hr
      exact Or.inr rfl
    · cases hr

/-- **Census.**  Of every registry, with a default node id that was set or drawn, and after every run:
the default node id is what it was and in range; there are as many generators as different node ids
were looked up, the default one among them if the default was; a step adds one only for a node id
that is looked up for the first time, and takes none away.  Two lookups of a run found the same
generator exactly if they named the same node id, which is the generator's own.  A node id out of
range is refused by its number and changes nothing. -/
theorem generators_match_lookups (hr : r = ofDrawn drawn ∨ ofSettings settings drawn = .ok r) (s : σ)
    (steps : List (Step σ)) :
    let d := r.defaultNodeId
    let r' := after r (run c r s steps)
    let ids := steps.flatMap (Step.lookups d)
    ((d = drawn ∨ settings.defaultNodeId = some d) ∧ d ≤ maxNodeId ∧ r'.defaultNodeId = d)
      ∧ (r'.size = ids.toFinset.card ∧ (r'.isEmpty = true ↔ ids.toFinset.card = 0))
      ∧ (∀ s' step, r'.size ≤ (perform c r' s' step).registry.size
          ∧ ((perform c r' s' step).registry.size = r'.size ↔ ∀ n ∈ step.lookups d, n ∈ ids))
      ∧ ((found c r s steps).map Lookup.named = ids
          ∧ ∀ x ∈ found c r s steps, x.nodeId = x.named
            ∧ ∀ y ∈ found c r s steps, (x.seat = y.seat ↔ x.named = y.named))
      ∧ ∀ nodeId s', maxNodeId < nodeId →
          let refusal : Done σ := { answer := .refused (.invalidNodeId nodeId), registry := r', clock := s' }
          r'.lookUp nodeId = .error (.invalidNodeId nodeId)
            ∧ perform c r' s' (.get (.node nodeId)) = refusal
            ∧ (∀ step, perform c r' s' (.on (.node nodeId) step) = refusal)
            ∧ (∀ second, perform c r' s' (.same (.node nodeId) second) = refusal)
            ∧ ∀ first, (perform c r' s' (.same first (.node nodeId))).registry
                = (perform c r' s' (.get first)).registry := by
  intro d r' ids
  -- a drawn default is what settings without one give
  have hfresh : ∃ settings', ofSettings settings' drawn = .ok r := by
    rcases hr with rfl | hr
    · exact ⟨{}, rfl⟩
    · exact ⟨settings, hr⟩
  obtain ⟨settings', hfresh⟩ := hfresh
  have hsound := sound_of_fresh hfresh
  have hempty : r.nodeIds = [] := by
    unfold nodeIds
    rw [(ofSettings_eq_ok hfresh).1]
    rfl
  have hrun := run_progress c hsound s steps
  have hsize := size_run c hsound hempty s steps
  have hmem : ∀ n, n ∈ r'.nodeIds ↔ n ∈ ids := by
    intro n
    rw [mem_nodeIds_after c hsound, hempty]
    simp [ids, d]
  refine ⟨⟨?_, r.defaultNodeId_le, hrun.defaultNodeId_eq⟩, ⟨hsize, ?_⟩, ?_, ?_, ?_⟩
  · rcases hr with rfl | hr
    · exact Or.inl rfl
    · exact defaultNodeId_of_fresh hr
  · rw [isEmpty_iff, ← hsize]
  · intro s' step
    refine ⟨size_le_perform c hrun.sound s' step, ?_⟩
    rw [size_perform_eq_iff c hrun.sound, hrun.defaultNodeId_eq]
    exact forall₂_congr fun n _ => hmem n
  · refine ⟨named_found c hsound s steps, fun x hx => ?_⟩
    have hholds := holds_found c hsound s steps
    exact ⟨(hholds x hx).1, fun y hy => seat_eq_iff_named_eq hrun.sound (hholds x hx) (hholds y hy)⟩
  · intro nodeId s' hlt
    obtain ⟨hget, hon, hsame⟩ := perform_of_lt c hlt r' s'
    exact ⟨lookUp_of_lt hlt r', hget, hon, hsame, perform_same_of_lt c hlt r' s'⟩

/-- The default, drawn as 6, is asked for by both names, and after a refusal between two other nodes. -/
theorem census_of_drawn_default :
    ∃ r, r = ofDrawn 6 ∧
      let steps : List (Step ManualClock) :=
        [.get (.node 2), .on .default (.generate .number .tiny 3), .same (.node 6) (.node (maxNodeId + 1)),
          .on (.node maxNodeId) .node, .size, .same (.node 2) .default]
      let clock : ManualClock := .steady (customEpochMillis + 20000)
      let r' := after r (run ManualClock.clock r clock steps)
      let founds := found ManualClock.clock r clock steps
      founds.map Lookup.named = [2, 6, 6, maxNodeId, 2, 6] ∧ founds.map Lookup.seat = [0, 1, 1, 2, 0, 1]
        ∧ r'.size = 3 ∧ r'.size = (steps.flatMap (Step.lookups 6)).toFinset.card ∧ r'.defaultNodeId = 6
        ∧ (∀ x ∈ founds, x.nodeId = x.named ∧ ∀ y ∈ founds, (x.seat = y.seat ↔ x.named = y.named))
        ∧ r'.lookUp (maxNodeId + 1) = .error (.invalidNodeId (maxNodeId + 1)) := by
  have hr : ofDrawn 6 = ofDrawn 6 ∨ ofSettings {} 6 = .ok (ofDrawn 6) := Or.inl rfl
  have h := generators_match_lookups ManualClock.clock hr (.steady (customEpochMillis + 20000))
    [.get (.node 2), .on .default (.generate .number .tiny 3), .same (.node 6) (.node (maxNodeId + 1)),
      .on (.node maxNodeId) .node, .size, .same (.node 2) .default]
  obtain ⟨⟨-, -, hdefault⟩, ⟨hsize, -⟩, -, ⟨-, hfound⟩, hrefused⟩ := h
  exact ⟨_, rfl, rfl, rfl, rfl, hsize, hdefault, hfound,
    (hrefused _ (.steady 0) (Nat.lt_succ_self _)).1⟩

end Snowflake.Registry
