import Snowflake.Clock.Wait

/-!
# Runs of a clock

A run is a list of steps on one clock: readings, waits, and moves from outside. A wait
that was cut short does not end the run.
-/

namespace Snowflake.Clock

/-- A step on a clock with the states `σ`; a wait says how many parks it has the patience for. -/
inductive Step (σ : Type) where
  /-- The clock is moved from outside. -/
  | move (f : σ → σ)
  | now (resolution : Nat)
  | wait (tick resolution patience : Nat)
  | waitMilli (millis patience : Nat)
  | waitSecond (second patience : Nat)

inductive Answer where
  | moved
  | tick (tick : Nat)
  /-- A wait was cut short, before a pause of this many milliseconds. -/
  | cutShort (pause : Nat)
deriving DecidableEq, Repr

/-- A step as it went: its answer, and what it left behind. -/
structure Done (σ : Type) where
  answer : Answer
  /-- The readings taken, in order. -/
  readings : List Nat := []
  /-- The pauses asked for, in order. -/
  parks : List Nat := []
  clock : σ

variable {σ : Type}

/-- A wait as a step that is done. -/
def Done.ofWait (wait : Wait σ) : Done σ :=
  { answer := match wait.ending with
      | .reached tick => .tick tick
      | .cutShort pause => .cutShort pause
    readings := wait.readings, parks := wait.parks, clock := wait.clock }

def perform (c : Clock σ) (s : σ) : Step σ → Done σ
  | .move f => { answer := .moved, clock := f s }
  | .now resolution =>
    { answer := .tick (c.now resolution s).1, readings := [(c.read s).1], clock := (c.now resolution s).2 }
  | .wait tick resolution patience => .ofWait (c.waitPast tick resolution patience s)
  | .waitMilli millis patience => .ofWait (c.waitPastMilli millis patience s)
  | .waitSecond second patience => .ofWait (c.waitPastSecond second patience s)

/-- The steps in order, each with what it left behind. -/
def run (c : Clock σ) (s : σ) : List (Step σ) → List (Done σ)
  | [] => []
  | step :: steps =>
    let done := c.perform s step
    done :: c.run done.clock steps

end Snowflake.Clock
