import Snowflake.Generator.Basic
import Snowflake.Settings

/-!
# Registries: one shared generator for each node id

A registry keeps its generators in order of creation; a generator's place is its seat,
and generators never leave theirs. `lookUp` finds the seat of a node id, with a fresh
generator on a new seat the first time; `lookUpDefault` does so for the default node id
and keeps the seat for later. Two lookups share a generator when their seats are equal.
-/

namespace Snowflake

structure Registry where
  defaultNodeId : Nat
  /-- The generators made so far, in order of creation. -/
  generators : List Generator := []
  /-- The seat of the default generator, once it was asked for. -/
  defaultSeat : Option Nat := none
  defaultNodeId_le : defaultNodeId ≤ maxNodeId
  defaultSeat_lt : ∀ seat ∈ defaultSeat, seat < generators.length := by simp

/-- A registry and the seat that a lookup in it found. -/
structure Seated where
  registry : Registry
  seat : Fin registry.generators.length

namespace Registry

/-! ## Creation -/

/-- An empty registry for a default node id that was drawn. -/
def ofDrawn (drawn : Fin (maxNodeId + 1)) : Registry :=
  { defaultNodeId := drawn, defaultNodeId_le := Nat.le_of_lt_succ drawn.isLt }

/-- An empty registry; the drawn node id is used if the settings have none. -/
def ofSettings (settings : Settings) (drawn : Fin (maxNodeId + 1)) : Except Error Registry :=
  match settings.defaultNodeId with
  | none => .ok (ofDrawn drawn)
  | some nodeId =>
    if h : nodeId ≤ maxNodeId then .ok { defaultNodeId := nodeId, defaultNodeId_le := h }
    else .error (.invalidNodeId nodeId)

/-! ## Lookup -/

/-- The number of generators made so far. -/
def size (r : Registry) : Nat := r.generators.length

def isEmpty (r : Registry) : Bool := r.generators.isEmpty

/-- A seat is still one when there are more of them. -/
theorem lt_length_append (r : Registry) (gs : List Generator) :
    ∀ seat ∈ r.defaultSeat, seat < (r.generators ++ gs).length := fun seat hs => by
  have := r.defaultSeat_lt seat hs
  rw [List.length_append]
  omega

/-- The registry with a fresh generator on a new seat. -/
def enrol (r : Registry) (nodeId : Nat) (h : nodeId ≤ maxNodeId) : Registry :=
  { r with
    generators := r.generators ++ [{ nodeId, nodeId_le := h }]
    defaultSeat_lt := r.lt_length_append _ }

/-- The seat of a node id in range, made if there is none yet. -/
def seat (r : Registry) (nodeId : Nat) (h : nodeId ≤ maxNodeId) : Seated :=
  match r.generators.findFinIdx? (·.nodeId = nodeId) with
  | some i => { registry := r, seat := i }
  | none => { registry := r.enrol nodeId h, seat := ⟨r.generators.length, by simp [enrol]⟩ }

def lookUp (r : Registry) (nodeId : Nat) : Except Error Seated :=
  if h : nodeId ≤ maxNodeId then .ok (r.seat nodeId h) else .error (.invalidNodeId nodeId)

def lookUpDefault (r : Registry) : Seated :=
  match h : r.defaultSeat with
  | some i => { registry := r, seat := ⟨i, r.defaultSeat_lt i h⟩ }
  | none =>
    let found := r.seat r.defaultNodeId r.defaultNodeId_le
    { registry := { found.registry with
        defaultSeat := some found.seat
        defaultSeat_lt := fun _ hs => by
          cases hs
          exact found.seat.isLt }
      seat := found.seat }

/-- Which generator is asked for. -/
inductive Choice where
  | node (nodeId : Nat)
  | default
deriving DecidableEq, Repr

def find (r : Registry) : Choice → Except Error Seated
  | .node nodeId => r.lookUp nodeId
  | .default => .ok r.lookUpDefault

end Registry

namespace Seated

/-- The generator on the seat. -/
def generator (s : Seated) : Generator := s.registry.generators[s.seat]

/-- The registry after the generator on the seat went on to another state. -/
def put (s : Seated) (g : Generator) : Registry :=
  { s.registry with
    generators := s.registry.generators.set s.seat g
    defaultSeat_lt := fun seat hs => by
      rw [List.length_set]
      exact s.registry.defaultSeat_lt seat hs }

end Seated

/-! ## Lemmas -/

namespace Registry

/-- The generator on a node id's seat has that node id. -/
theorem nodeId_seat (r : Registry) (nodeId : Nat) (h : nodeId ≤ maxNodeId) :
    (r.seat nodeId h).generator.nodeId = nodeId := by
  unfold seat Seated.generator
  split
  · next i hi => exact of_decide_eq_true (List.findFinIdx?_eq_some_iff.1 hi).1
  · simp [enrol]

/-- A lookup keeps the generators on their seats. -/
theorem generators_seat (r : Registry) (nodeId : Nat) (h : nodeId ≤ maxNodeId) :
    r.generators <+: (r.seat nodeId h).registry.generators := by
  unfold seat
  split
  · exact List.prefix_refl _
  · exact List.prefix_append ..

/-- A node id that has a seat gets no other. -/
theorem registry_seat_of_mem {r : Registry} {nodeId : Nat} (h : nodeId ≤ maxNodeId)
    (hmem : nodeId ∈ r.generators.map Generator.nodeId) : (r.seat nodeId h).registry = r := by
  unfold seat
  split
  · rfl
  · next hnone =>
    obtain ⟨g, hg, hid⟩ := List.mem_map.1 hmem
    exact absurd (decide_eq_true hid) (List.findFinIdx?_eq_none_iff.1 hnone g hg)

end Registry

end Snowflake
