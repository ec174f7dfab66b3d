import Snowflake.Proofs.Generator.Rule
import Snowflake.Registry.Step

/-!
# Seats: one generator for each node id

`r.memory n` is what the registry remembers for the node id `n`: the memory of the
generator of that node id, or nothing if there is none yet.  In a sound registry each node
id has one seat at most, and the seat kept for the default is the default node id's.  Then

* a lookup finds a generator of the node id that was asked for, and changes no memory
  (`finds_of_find`);
* a generator that is kept is what looking up its node id finds, without a change
  (`lookUp_of_seat`);
* putting a generator back changes the memory of its own node id alone (`memory_put`).
-/

namespace Snowflake

theorem find?_of_nodup {l : List Generator} (hl : (l.map Generator.nodeId).Nodup) {g : Generator}
    (hg : g ∈ l) : l.find? (·.nodeId = g.nodeId) = some g := by
  induction l with
  | nil => cases hg
  | cons first l ih =>
    rw [List.map_cons, List.nodup_cons] at hl
    rcases List.mem_cons.1 hg with rfl | hg
    · exact List.find?_cons_of_pos (decide_eq_true rfl)
    · have hne : first.nodeId ≠ g.nodeId := fun h => hl.1 (h ▸ List.mem_map_of_mem hg)
      rw [List.find?_cons_of_neg (by simpa using hne)]
      exact ih hl.2 hg

/-- A generator put in the place of one with the same node id is found where that one was. -/
theorem find?_set {l : List Generator} (hl : (l.map Generator.nodeId).Nodup) {i : Nat} (hi : i < l.length)
    {g : Generator} (hid : l[i].nodeId = g.nodeId) (nodeId : Nat) :
    (l.set i g).find? (·.nodeId = nodeId)
      = if nodeId = g.nodeId then some g else l.find? (·.nodeId = nodeId) := by
  induction l generalizing i with
  | nil => cases hi
  | cons first l ih =>
    rw [List.map_cons, List.nodup_cons] at hl
    cases i with
    | zero =>
      have hid : first.nodeId = g.nodeId := hid
      rw [List.set_cons_zero, List.find?_cons, List.find?_cons, hid]
      by_cases h : g.nodeId = nodeId
      · rw [if_pos h.symm, decide_eq_true h]
      · rw [if_neg (Ne.symm h), decide_eq_false h]
    | succ i =>
      have hi : i < l.length := Nat.lt_of_succ_lt_succ hi
      have hid : l[i].nodeId = g.nodeId := hid
      have hmem : l[i].nodeId ∈ l.map Generator.nodeId := List.mem_map_of_mem (List.getElem_mem hi)
      rw [List.set_cons_succ, List.find?_cons, List.find?_cons, ih hl.2 hi hid]
      by_cases h : first.nodeId = nodeId
      · have hne : nodeId ≠ g.nodeId := by
          intro he
          exact hl.1 (by rw [h, he, ← hid]; exact hmem)
        rw [if_neg hne, if_neg hne, decide_eq_true h]
      · rw [decide_eq_false h]

namespace Registry

/-- The node id that a choice stands for. -/
def Choice.nodeId (defaultNodeId : Nat) : Choice → Nat
  | node nodeId => nodeId
  | default => defaultNodeId

/-- The node ids of the generators, in order of creation. -/
def nodeIds (r : Registry) : List Nat := r.generators.map Generator.nodeId

/-- What the registry remembers for a node id: what its generator does, if there is one. -/
def memory (r : Registry) (nodeId : Nat) : PerFormat (Option Stamp) :=
  ((r.generators.find? (·.nodeId = nodeId)).map Generator.last).getD (.const none)

/-- Each node id has at most one seat, the default seat is the default node id's, and all
generators are sound. -/
structure Sound (r : Registry) : Prop where
  nodup : r.nodeIds.Nodup
  default_eq : ∀ seat ∈ r.defaultSeat, r.nodeIds[seat]? = some r.defaultNodeId
  sound : ∀ g ∈ r.generators, g.Sound

/-- A lookup for this node id found `a`: a generator of the node id, and no memory has changed. -/
structure Finds (r : Registry) (nodeId : Nat) (a : Seated) : Prop where
  le : nodeId ≤ maxNodeId
  sound : a.registry.Sound
  nodeId_eq : a.generator.nodeId = nodeId
  nodeIds_prefix : r.nodeIds <+: a.registry.nodeIds
  memory_eq : ∀ n, a.registry.memory n = r.memory n
  defaultNodeId_eq : a.registry.defaultNodeId = r.defaultNodeId

variable {r : Registry} {nodeId : Nat}

/-! ## Memory -/

theorem memory_of_mem (hr : r.Sound) {g : Generator} (hg : g ∈ r.generators) : r.memory g.nodeId = g.last := by
  unfold memory
  rw [find?_of_nodup hr.nodup hg]
  rfl

theorem mem_generator (a : Seated) : a.generator ∈ a.registry.generators := List.getElem_mem _

theorem nodeIds_seat (a : Seated) : a.registry.nodeIds[a.seat.val]? = some a.generator.nodeId := by
  unfold nodeIds
  rw [List.getElem?_map, List.getElem?_eq_getElem a.seat.isLt]
  rfl

theorem Finds.last_eq {a : Seated} (h : r.Finds nodeId a) : a.generator.last = r.memory nodeId := by
  rw [← h.memory_eq, ← h.nodeId_eq]
  exact (memory_of_mem h.sound (mem_generator a)).symm

/-- A fresh generator remembers nothing more. -/
theorem memory_enrol (r : Registry) (h : nodeId ≤ maxNodeId) (n : Nat) :
    (r.enrol nodeId h).memory n = r.memory n := by
  unfold memory enrol
  rw [List.find?_append]
  cases r.generators.find? (·.nodeId = n) with
  | some g => rfl
  | none =>
    rw [List.find?_singleton]
    by_cases hn : nodeId = n
    · rw [if_pos (by simpa using hn)]
      rfl
    · rw [if_neg (by simpa using hn)]
      rfl

theorem nodeIds_enrol (r : Registry) (h : nodeId ≤ maxNodeId) :
    (r.enrol nodeId h).nodeIds = r.nodeIds ++ [nodeId] := List.map_append

theorem sound_enrol (hr : r.Sound) (h : nodeId ≤ maxNodeId) (hnew : nodeId ∉ r.nodeIds) :
    (r.enrol nodeId h).Sound := by
  refine ⟨?_, ?_, ?_⟩
  · rw [nodeIds_enrol, List.nodup_append]
    refine ⟨hr.nodup, List.pairwise_singleton .., ?_⟩
    rintro a ha b hb rfl
    obtain rfl := List.mem_singleton.1 hb
    exact hnew ha
  · intro seat hseat
    have hlt : seat < r.nodeIds.length := by
      unfold nodeIds
      rw [List.length_map]
      exact r.defaultSeat_lt seat hseat
    rw [nodeIds_enrol, List.getElem?_append_left hlt]
    exact hr.default_eq seat hseat
  · intro g hg
    rcases List.mem_append.1 hg with hg | hg
    · exact hr.sound g hg
    · obtain rfl := List.mem_singleton.1 hg
      intro f stamp hstamp
      rw [PerFormat.get_const] at hstamp
      cases hstamp

/-! ## Lookups -/

/-- A node id that has no seat gets a new one. -/
theorem registry_seat_of_not_mem (h : nodeId ≤ maxNodeId) (hnew : nodeId ∉ r.nodeIds) :
    (r.seat nodeId h).registry = r.enrol nodeId h := by
  unfold seat
  split
  · next i hi =>
    have hi := of_decide_eq_true (List.findFinIdx?_eq_some_iff.1 hi).1
    exact absurd (hi ▸ List.mem_map_of_mem (List.getElem_mem i.isLt)) hnew
  · rfl

theorem finds_seat (hr : r.Sound) (h : nodeId ≤ maxNodeId) : r.Finds nodeId (r.seat nodeId h) := by
  have hid := r.nodeId_seat nodeId h
  have hpre := (r.generators_seat nodeId h).map Generator.nodeId
  by_cases hmem : nodeId ∈ r.nodeIds
  · have hreg := registry_seat_of_mem h hmem
    exact ⟨h, by rw [hreg]; exact hr, hid, hpre, fun n => by rw [hreg], by rw [hreg]⟩
  · have hreg := registry_seat_of_not_mem h hmem
    refine ⟨h, ?_, hid, hpre, fun n => ?_, ?_⟩
    · rw [hreg]
      exact sound_enrol hr h hmem
    · rw [hreg, memory_enrol]
    · rw [hreg]
      rfl

theorem finds_lookUpDefault (hr : r.Sound) : r.Finds r.defaultNodeId r.lookUpDefault := by
  unfold lookUpDefault
  split
  · next i hi =>
    have hid := hr.default_eq i hi
    rw [nodeIds_seat { registry := r, seat := ⟨i, r.defaultSeat_lt i hi⟩ }] at hid
    exact ⟨r.defaultNodeId_le, hr, Option.some.inj hid, List.prefix_refl _, fun _ => rfl, rfl⟩
  · have h := finds_seat hr r.defaultNodeId_le
    refine ⟨h.le, ⟨h.sound.nodup, ?_, h.sound.sound⟩, h.nodeId_eq, h.nodeIds_prefix, h.memory_eq,
      h.defaultNodeId_eq⟩
    intro seat hseat
    cases hseat
    have hid := h.nodeId_eq.trans h.defaultNodeId_eq.symm
    exact (nodeIds_seat (r.seat r.defaultNodeId r.defaultNodeId_le)).trans (congrArg some hid)

/-- **Lookup.**  Whatever a lookup finds is the generator of the node id that was asked for. -/
theorem finds_of_find (hr : r.Sound) {choice : Choice} {a : Seated} (h : r.find choice = .ok a) :
    r.Finds (choice.nodeId r.defaultNodeId) a := by
  cases choice with
  | default =>
    cases h
    exact finds_lookUpDefault hr
  | node nodeId =>
    simp only [find, lookUp] at h
    split at h
    · next hle =>
      cases h
      exact finds_seat hr hle
    · cases h

/-- A generator on a seat is what looking up its node id finds, and the lookup changes nothing. -/
theorem lookUp_of_seat (hr : r.Sound) {seat : Nat} (h : r.nodeIds[seat]? = some nodeId) :
    ∃ a, r.lookUp nodeId = .ok a ∧ a.registry = r ∧ a.seat.val = seat := by
  have hmem : nodeId ∈ r.nodeIds := List.mem_of_getElem? h
  obtain ⟨g, -, hid⟩ := List.mem_map.1 hmem
  have hle : nodeId ≤ maxNodeId := hid ▸ g.nodeId_le
  have hreg := registry_seat_of_mem hle hmem
  have hseat := nodeIds_seat (r.seat nodeId hle)
  rw [congrArg nodeIds hreg, nodeId_seat] at hseat
  refine ⟨r.seat nodeId hle, dif_pos hle, hreg, ?_⟩
  exact (List.getElem?_inj (List.getElem?_eq_some_iff.1 hseat).1 hr.nodup).1 (hseat.trans h.symm)

/-! ## Putting a generator back -/

/-- Putting a generator back changes the memory of its own node id alone. -/
theorem memory_put {a : Seated} (ha : a.registry.Sound) {g : Generator}
    (hid : g.nodeId = a.generator.nodeId) (n : Nat) :
    (a.put g).memory n = if n = g.nodeId then g.last else a.registry.memory n := by
  unfold memory Seated.put
  rw [find?_set ha.nodup a.seat.isLt hid.symm]
  split <;> rfl

theorem nodeIds_put {a : Seated} {g : Generator} (hid : g.nodeId = a.generator.nodeId) :
    (a.put g).nodeIds = a.registry.nodeIds := by
  unfold nodeIds Seated.put
  rw [List.map_set, hid]
  apply List.ext_getElem?
  intro i
  rw [List.getElem?_set]
  split
  · next h =>
    subst h
    rw [List.length_map, if_pos a.seat.isLt]
    exact (nodeIds_seat a).symm
  · rfl

theorem sound_put {a : Seated} (ha : a.registry.Sound) {g : Generator} (hg : g.Sound)
    (hid : g.nodeId = a.generator.nodeId) : (a.put g).Sound := by
  refine ⟨?_, ?_, ?_⟩
  · rw [nodeIds_put hid]
    exact ha.nodup
  · intro seat hseat
    rw [nodeIds_put hid]
    exact ha.default_eq seat hseat
  · intro g' hg'
    rcases List.mem_or_eq_of_mem_set hg' with hg' | rfl
    · exact ha.sound g' hg'
    · exact hg

end Registry

end Snowflake
