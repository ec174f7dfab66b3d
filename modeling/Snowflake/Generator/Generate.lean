import Snowflake.Generator.Basic
import Snowflake.Generator.Verdict

/-!
# Generating ids

`generate` reads the clock and goes by the verdict on the reading's tick; when it has to
wait, it goes by the verdict on the tick that the wait ended with. The memory changes
only when an id is issued:

    (generate c f patience g s).generator = g              on every failure
    (generate c f patience g s).generator = g.remember f _  otherwise

A wait ends past the last stamp, so the second verdict asks for no further wait: a call that
went by verdicts without a bound on their number would take no third (`laps_generate`).
-/

namespace Snowflake.Generator

variable {σ : Type}

/-- What is left of a call after a reading; the first number counts the verdicts it may take. -/
def rounds (c : Clock σ) (f : Format) (g : Generator) : Nat → Nat → Nat → σ → Call σ Nat
  | 0, _, reading, s =>
    { outcome := .error (.interrupted 1), generator := g, readings := [reading], clock := s }
  | n + 1, patience, reading, s =>
    let tick := tickAt f.layout.tickMillis reading
    match Verdict.onTick f.layout (g.last.get f) tick with
    | .issue timestamp stamp =>
      { outcome := .ok (f.layout.pack timestamp g.nodeId stamp.sequence)
        generator := g.remember f stamp, readings := [reading], clock := s }
    | .refuse =>
      { outcome := .error (.refused (.clockRangeExceeded f tick)), generator := g,
        readings := [reading], clock := s }
    | .wait past =>
      let wait := c.waitPast past f.layout.tickMillis patience s
      match wait.ending with
      | .cutShort pause =>
        { outcome := .error (.interrupted pause), generator := g,
          readings := reading :: wait.readings, waits := 1, parks := wait.parks, clock := wait.clock }
      | .reached _ =>
        (rounds c f g n (patience - wait.parks.length) wait.reading wait.clock).afterWait reading wait

/-- The next id of a format, with patience for this many parks. -/
def generate (c : Clock σ) (f : Format) (patience : Nat) (g : Generator) (s : σ) : Call σ Nat :=
  rounds c f g 2 patience (c.read s).1 (c.read s).2

end Snowflake.Generator
