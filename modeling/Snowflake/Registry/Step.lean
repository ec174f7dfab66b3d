import Snowflake.Generator.Step
import Snowflake.Registry.Basic

/-!
# Runs of a registry

A run is a list of steps on one registry and one clock that all its generators share. A
lookup that is refused leaves the registry as it was and does not end the run.
-/

namespace Snowflake.Registry

/-- A step on a registry whose clock has the states `σ`. -/
inductive Step (σ : Type) where
  | get (choice : Choice)
  /-- Whether two lookups, made in this order, share a generator. -/
  | same (first second : Choice)
  | defaultNodeId
  /-- Whether the default node id is in range, and the default generator's own. -/
  | defaultCheck
  | size
  /-- The clock is moved from outside. -/
  | move (f : σ → σ)
  /-- A step on a generator, after looking it up. -/
  | on (choice : Choice) (step : Generator.Step σ)

inductive Answer where
  | nodeId (nodeId : Nat)
  | same (same : Bool)
  | defaultCheck (inRange same : Bool)
  | size
  | moved
  /-- What the generator of a node id answered. -/
  | generator (nodeId : Nat) (answer : Generator.Answer)
  | refused (error : Error)
deriving DecidableEq, Repr

/-- A step as it went: its answer, and what it left behind. -/
structure Done (σ : Type) where
  answer : Answer
  registry : Registry
  /-- The readings taken, in order. -/
  readings : List Nat := []
  /-- The pauses asked for, in order. -/
  parks : List Nat := []
  clock : σ

variable {σ : Type}

/-- Both lookups, one after the other: whether they found one seat, and the registry after them. -/
def compare (r : Registry) (first second : Choice) : Answer × Registry :=
  match r.find first with
  | .error e => (.refused e, r)
  | .ok a =>
    match a.registry.find second with
    | .error e => (.refused e, a.registry)
    | .ok b => (.same (a.seat.val = b.seat.val), b.registry)

def perform (c : Clock σ) (r : Registry) (s : σ) : Step σ → Done σ
  | .get choice =>
    match r.find choice with
    | .error e => { answer := .refused e, registry := r, clock := s }
    | .ok a => { answer := .nodeId a.generator.nodeId, registry := a.registry, clock := s }
  | .same first second =>
    { answer := (r.compare first second).1, registry := (r.compare first second).2, clock := s }
  | .defaultNodeId => { answer := .nodeId r.defaultNodeId, registry := r, clock := s }
  | .defaultCheck =>
    let a := r.lookUpDefault
    { answer := .defaultCheck (r.defaultNodeId ≤ maxNodeId) (a.generator.nodeId = r.defaultNodeId)
      registry := a.registry, clock := s }
  | .size => { answer := .size, registry := r, clock := s }
  | .move f => { answer := .moved, registry := r, clock := f s }
  | .on choice step =>
    match r.find choice with
    | .error e => { answer := .refused e, registry := r, clock := s }
    | .ok a =>
      let done := Generator.perform c a.generator s step
      { answer := .generator a.generator.nodeId done.answer, registry := a.put done.generator,
        readings := done.readings, parks := done.parks, clock := done.clock }

/-- The steps in order, each with what it left behind. -/
def run (c : Clock σ) (r : Registry) (s : σ) : List (Step σ) → List (Done σ)
  | [] => []
  | step :: steps =>
    let done := perform c r s step
    done :: run c done.registry done.clock steps

end Snowflake.Registry
