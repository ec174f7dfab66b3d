import Snowflake.Clock.Wait
import Snowflake.Error
import Snowflake.PerFormat
import Snowflake.Sequence

/-!
# Generators: one node's memory of what it issued

A generator belongs to one node id and remembers, for each format apart, the stamp of
the last id. A call on it can fail in two ways: it is refused with an error, or its wait
is cut short. `Call` records how a call went.
-/

namespace Snowflake

structure Generator where
  nodeId : Nat
  /-- The stamp of each format's last id. -/
  last : PerFormat (Option Stamp) := .const none
  nodeId_le : nodeId ≤ maxNodeId

/-- Why a call gave no id. -/
inductive Failure where
  | refused (error : Error)
  /-- The wait was cut short, before a pause of this many milliseconds. -/
  | interrupted (pause : Nat)
deriving DecidableEq, Repr

/-- A call on a generator, as it went. -/
structure Call (σ α : Type) where
  outcome : Except Failure α
  /-- The generator after the call. -/
  generator : Generator
  /-- The readings taken, in order. -/
  readings : List Nat
  /-- How often the call waited. -/
  waits : Nat := 0
  /-- The pauses asked for, in order. -/
  parks : List Nat := []
  clock : σ

namespace Generator

/-- A fresh generator, if the node id is in range. -/
def ofNodeId (nodeId : Nat) : Except Error Generator :=
  if h : nodeId ≤ maxNodeId then .ok { nodeId, nodeId_le := h } else .error (.invalidNodeId nodeId)

/-- What the generator's ids carry in the node field. -/
def nodeField (g : Generator) (f : Format) : Nat := g.nodeId % capacity f.layout.nodeBits

/-- The generator after issuing an id with this stamp. -/
def remember (g : Generator) (f : Format) (stamp : Stamp) : Generator :=
  { g with last := g.last.set f (some stamp) }

/-! ## Lemmas -/

@[simp] theorem nodeId_remember (g : Generator) (f : Format) (stamp : Stamp) :
    (g.remember f stamp).nodeId = g.nodeId := rfl

@[simp] theorem last_remember_self (g : Generator) (f : Format) (stamp : Stamp) :
    (g.remember f stamp).last.get f = some stamp := PerFormat.get_set_self ..

theorem last_remember_of_ne (g : Generator) {f f' : Format} (stamp : Stamp) (h : f' ≠ f) :
    (g.remember f stamp).last.get f' = g.last.get f' := PerFormat.get_set_of_ne _ _ h

theorem ofNodeId_eq_ok {nodeId : Nat} {g : Generator} (h : ofNodeId nodeId = .ok g) :
    g.nodeId = nodeId ∧ g.last = .const none := by
  unfold ofNodeId at h
  split at h
  · cases h
    exact ⟨rfl, rfl⟩
  · cases h

end Generator

namespace Call

variable {σ α β : Type}

/-- The call with its value put through a function that can refuse it. -/
def andThen (call : Call σ α) (f : α → Except Error β) : Call σ β :=
  { call with outcome := call.outcome.bind fun a => (f a).mapError .refused }

/-- The call with its value put through a function. -/
def map (call : Call σ α) (f : α → β) : Call σ β := { call with outcome := call.outcome.map f }

/-- The call with a reading and a wait in front, whose last reading the call goes on from. -/
def afterWait (call : Call σ α) (reading : Nat) (wait : Wait σ) : Call σ α :=
  { call with
    readings := reading :: (wait.earlier ++ call.readings), waits := call.waits + 1,
    parks := wait.parks ++ call.parks }

end Call

end Snowflake
