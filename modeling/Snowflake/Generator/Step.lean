import Snowflake.Generator.Burst

/-!
# Runs of a generator

A run is a list of steps on one generator and one clock: calls, questions, and moves of
the clock from outside, forward or back. Steps that fail do not end the run.
-/

namespace Snowflake.Generator

/-- A step on a generator whose clock has the states `σ`. -/
inductive Step (σ : Type) where
  /-- The clock is moved from outside. -/
  | move (f : σ → σ)
  | now (resolution : Nat)
  /-- The node id, and the node field of every format. -/
  | node
  | generate (form : Form) (f : Format) (patience : Nat)
  | burst (form : Form) (f : Format) (count patience : Nat)

inductive Answer where
  | moved
  | tick (tick : Nat)
  | node (nodeId : Nat) (fields : List Nat)
  | issued (f : Format) (issue : Issue)
  | failed (failure : Failure)
  | burst (f : Format) (issues : List Issue) (failure : Option Failure)
deriving DecidableEq, Repr

/-- The ids of a format that an answer gives out, in order. -/
def Answer.idsOf (f : Format) : Answer → List Nat
  | .issued f' issue => if f' = f then [issue.raw] else []
  | .burst f' issues _ => if f' = f then issues.map Issue.raw else []
  | _ => []

/-- A step as it went: its answer, and what it left behind. -/
structure Done (σ : Type) where
  answer : Answer
  generator : Generator
  /-- The readings taken, in order. -/
  readings : List Nat := []
  /-- The pauses asked for, in order. -/
  parks : List Nat := []
  clock : σ

variable {σ : Type}

def perform (c : Clock σ) (g : Generator) (s : σ) : Step σ → Done σ
  | .move f => { answer := .moved, generator := g, clock := f s }
  | .now resolution =>
    { answer := .tick (c.now resolution s).1, generator := g, readings := [(c.read s).1],
      clock := (c.now resolution s).2 }
  | .node => { answer := .node g.nodeId (Format.all.map g.nodeField), generator := g, clock := s }
  | .generate form f patience =>
    let call := generateAs c form f patience g s
    { answer := match call.outcome with
        | .ok issue => .issued f issue
        | .error failure => .failed failure
      generator := call.generator, readings := call.readings, parks := call.parks, clock := call.clock }
  | .burst form f count patience =>
    let b := burst c form f count patience g s
    { answer := .burst f b.issues b.failure, generator := b.generator, readings := b.readings,
      parks := b.parks, clock := b.clock }

/-- The steps in order, each with what it left behind. -/
def run (c : Clock σ) (g : Generator) (s : σ) : List (Step σ) → List (Done σ)
  | [] => []
  | step :: steps =>
    let done := perform c g s step
    done :: run c done.generator done.clock steps

end Snowflake.Generator
