import Snowflake.Proofs.Generator.Progress
import Snowflake.Proofs.Registry.Seats

/-!
# Progress of a registry: a run, told apart by node ids

Each id that a registry gives out was asked for under a node id, the one that the lookup
named.  `idsUnder n gs` are those that were asked for under `n`.  `Progress r r' gs` says
that a registry went from `r` to `r'` and gave out `gs f` of each format `f` on the way:
for every node id an `Issuance` of its own, from what was remembered for it before to what
is remembered after.

Whatever the clock does and whichever lookups are refused, a step makes progress and so
does a run (`run_progress`).  A generator that was looked up once stays the one that any
later lookup of its node id finds (`run_keeps`).
-/

namespace Snowflake.Registry

/-- An id, with the node id that it was asked for under. -/
structure Given where
  nodeId : Nat
  id : Nat
deriving DecidableEq, Repr

/-- The ids that were asked for under a node id, in order. -/
def idsUnder (nodeId : Nat) (gs : List Given) : List Nat := (gs.filter (·.nodeId = nodeId)).map Given.id

/-! ## Ids under a node id -/

theorem idsUnder_append (nodeId : Nat) (gs gs' : List Given) :
    idsUnder nodeId (gs ++ gs') = idsUnder nodeId gs ++ idsUnder nodeId gs' := by
  unfold idsUnder
  rw [List.filter_append, List.map_append]

theorem idsUnder_map_self (nodeId : Nat) (ids : List Nat) : idsUnder nodeId (ids.map (Given.mk nodeId)) = ids := by
  unfold idsUnder
  rw [List.filter_eq_self.2 (by simp), List.map_map]
  exact List.map_id ids

theorem idsUnder_map_of_ne {nodeId other : Nat} (h : other ≠ nodeId) (ids : List Nat) :
    idsUnder nodeId (ids.map (Given.mk other)) = [] := by
  unfold idsUnder
  rw [List.filter_eq_nil_iff.2 (by simpa using fun _ _ => h)]
  rfl

theorem mem_idsUnder {gs : List Given} {x : Given} (hx : x ∈ gs) : x.id ∈ idsUnder x.nodeId gs :=
  List.mem_map_of_mem (List.mem_filter.2 ⟨hx, by simp⟩)

/-- Where no node id repeats an id, equal ids were asked for under different node ids. -/
theorem pairwise_of_nodup {gs : List Given} (h : ∀ nodeId, (idsUnder nodeId gs).Nodup) :
    gs.Pairwise fun x y => x.id = y.id → x.nodeId ≠ y.nodeId := by
  induction gs with
  | nil => exact .nil
  | cons x gs ih =>
    rw [List.pairwise_cons]
    constructor
    · intro y hy hid hnode
      have hx := h x.nodeId
      unfold idsUnder at hx
      rw [List.filter_cons_of_pos (by simp), List.map_cons, List.nodup_cons] at hx
      have hmem := mem_idsUnder hy
      rw [← hid, ← hnode] at hmem
      exact hx.1 hmem
    · refine ih fun nodeId => (h nodeId).sublist ?_
      exact ((List.sublist_cons_self x gs).filter _).map _

/-! ## Progress -/

/-- The registry went on to `r'` and gave out `gs f` of each format `f`. -/
structure Progress (r r' : Registry) (gs : Format → List Given) : Prop where
  sound : r'.Sound
  defaultNodeId_eq : r'.defaultNodeId = r.defaultNodeId
  nodeIds_prefix : r.nodeIds <+: r'.nodeIds
  le : ∀ f, ∀ x ∈ gs f, x.nodeId ≤ maxNodeId
  issuance : ∀ f nodeId, Issuance f.layout nodeId ((r.memory nodeId).get f) (idsUnder nodeId (gs f))
    ((r'.memory nodeId).get f)

namespace Progress

variable {r r' r'' : Registry} {gs gs' : Format → List Given}

theorem refl (hr : r.Sound) : Progress r r fun _ => [] :=
  ⟨hr, rfl, List.prefix_refl _, fun _ _ hx => (nomatch hx), fun _ _ => .nil _⟩

theorem trans (h : Progress r r' gs) (h' : Progress r' r'' gs') : Progress r r'' fun f => gs f ++ gs' f := by
  refine ⟨h'.sound, h'.defaultNodeId_eq.trans h.defaultNodeId_eq, h.nodeIds_prefix.trans h'.nodeIds_prefix, ?_, ?_⟩
  · intro f x hx
    rcases List.mem_append.1 hx with hx | hx
    · exact h.le f x hx
    · exact h'.le f x hx
  · intro f nodeId
    rw [idsUnder_append]
    exact (h.issuance f nodeId).append (h'.issuance f nodeId)

/-- A lookup gives out nothing. -/
theorem of_finds {nodeId : Nat} {a : Seated} (h : r.Finds nodeId a) : Progress r a.registry fun _ => [] := by
  refine ⟨h.sound, h.defaultNodeId_eq, h.nodeIds_prefix, fun _ _ hx => (nomatch hx), fun f n => ?_⟩
  rw [h.memory_eq]
  exact .nil _

/-- What the generator gives out counts for the node id that it was looked up by. -/
theorem of_put {nodeId : Nat} {a : Seated} (h : r.Finds nodeId a) {g : Generator} {readings : List Nat}
    {ids : Format → List Nat} (hg : Generator.Progress a.generator g readings ids) :
    Progress r (a.put g) fun f => (ids f).map (Given.mk nodeId) := by
  have hid := h.nodeId_eq
  refine ⟨?_, h.defaultNodeId_eq, ?_, ?_, ?_⟩
  · exact sound_put h.sound (hg.sound (h.sound.sound _ (mem_generator a))) hg.nodeId_eq
  · rw [nodeIds_put hg.nodeId_eq]
    exact h.nodeIds_prefix
  · intro f x hx
    obtain ⟨id, -, rfl⟩ := List.mem_map.1 hx
    exact h.le
  · intro f n
    have hput := memory_put h.sound hg.nodeId_eq n
    rw [hg.nodeId_eq, hid] at hput
    rw [hput]
    by_cases hn : n = nodeId
    · subst hn
      have hissue := hg.issuance f
      rw [hid, h.last_eq] at hissue
      rw [if_pos rfl, idsUnder_map_self]
      exact hissue
    · rw [if_neg hn, h.memory_eq, idsUnder_map_of_ne (Ne.symm hn)]
      exact .nil _

end Progress

/-! ## Steps and runs -/

variable {σ : Type} (c : Clock σ)

/-- What a step gives out of a format, in order; `defaultNodeId` is what the default stands for. -/
def Step.given (f : Format) (defaultNodeId : Nat) : Step σ → Answer → List Given
  | .on choice _, .generator _ answer => (answer.idsOf f).map (Given.mk (choice.nodeId defaultNodeId))
  | _, _ => []

/-- What the steps of a run give out of a format, in order. -/
def given (f : Format) (defaultNodeId : Nat) (steps : List (Step σ)) (dones : List (Done σ)) : List Given :=
  (List.zipWith (fun step done => step.given f defaultNodeId done.answer) steps dones).flatten

/-- The registry after a run. -/
def after (r : Registry) : List (Done σ) → Registry
  | [] => r
  | done :: dones => after done.registry dones

theorem compare_progress {r : Registry} (hr : r.Sound) (first second : Choice) :
    Progress r (r.compare first second).2 fun _ => [] := by
  unfold compare
  cases ha : r.find first with
  | error e => exact .refl hr
  | ok a =>
    have hfirst := finds_of_find hr ha
    dsimp only
    cases hb : a.registry.find second with
    | error e => exact .of_finds hfirst
    | ok b => exact (Progress.of_finds hfirst).trans (.of_finds (finds_of_find hfirst.sound hb))

theorem perform_progress {r : Registry} (hr : r.Sound) (s : σ) (step : Step σ) :
    Progress r (perform c r s step).registry fun f => step.given f r.defaultNodeId (perform c r s step).answer := by
  cases step with
  | defaultNodeId | size | move _ => exact .refl hr
  | defaultCheck => exact .of_finds (finds_lookUpDefault hr)
  | same first second => exact compare_progress hr first second
  | get choice =>
    unfold perform
    dsimp only
    cases ha : r.find choice with
    | error e => exact .refl hr
    | ok a => exact .of_finds (finds_of_find hr ha)
  | on choice step =>
    unfold perform
    dsimp only
    cases ha : r.find choice with
    | error e => exact .refl hr
    | ok a =>
      have hfinds := finds_of_find hr ha
      have hsound := hfinds.sound.sound _ (mem_generator a)
      exact .of_put hfinds (Generator.perform_progress c hsound s step)

/-- **Runs.**  A run makes progress from its first registry to its last. -/
theorem run_progress {r : Registry} (hr : r.Sound) (s : σ) (steps : List (Step σ)) :
    Progress r (after r (run c r s steps)) fun f => given f r.defaultNodeId steps (run c r s steps) := by
  induction steps generalizing r s with
  | nil => exact .refl hr
  | cons step steps ih =>
    have hstep := perform_progress c hr s step
    have hrest := ih hstep.sound (perform c r s step).clock
    rw [hstep.defaultNodeId_eq] at hrest
    exact hstep.trans hrest

/-- **Kept generators.**  A generator that was on a seat during a run is, at the end of the run, what
looking up its node id finds, on the same seat and without a change. -/
theorem run_keeps {r : Registry} (hr : r.Sound) (s : σ) {steps before : List (Step σ)}
    (hbefore : before <+: steps) {seat nodeId : Nat}
    (h : (after r (run c r s before)).nodeIds[seat]? = some nodeId) :
    ∃ a, (after r (run c r s steps)).lookUp nodeId = .ok a
      ∧ a.registry = after r (run c r s steps) ∧ a.seat.val = seat := by
  induction before generalizing r s steps with
  | nil =>
    have hrun := run_progress c hr s steps
    obtain ⟨hlt, hid⟩ := List.getElem?_eq_some_iff.1 h
    have hkept := List.prefix_iff_getElem?.1 hrun.nodeIds_prefix seat hlt
    exact lookUp_of_seat hrun.sound (hkept.trans (congrArg some hid))
  | cons step before ih =>
    obtain ⟨rest, rfl⟩ := hbefore
    exact ih (perform_progress c hr s step).sound _ (List.prefix_append before rest) h

end Snowflake.Registry
