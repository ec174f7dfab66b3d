import Snowflake.CommandLine.Report
import Snowflake.CommandLine.Job
import Snowflake.Generator.Burst
import Snowflake.Registry.Basic

/-!
# Printing fresh ids

The ids of a job are one burst of one generator of a registry, the one of the job's
node id or the default one. Each id gets a line.
-/

namespace Snowflake.CommandLine

/-- What was printed, and what it left behind. -/
structure Printed (σ : Type) where
  report : Report Failure
  registry : Registry
  clock : σ

namespace GenerateJob

variable {σ : Type}

/-- The generator that the ids come from. -/
def choice (job : GenerateJob) : Registry.Choice :=
  match job.nodeId with
  | some nodeId => .node nodeId
  | none => .default

/-- Prints the ids, with patience for so many parks for each of them. -/
def print (c : Clock σ) (patience : Nat) (job : GenerateJob) (r : Registry) (s : σ) : Printed σ :=
  match r.find job.choice with
  | .error e => { report := { failure := some (.refused e) }, registry := r, clock := s }
  | .ok seated =>
    let b := Generator.burst c (.text job.encoding) job.format job.count patience seated.generator s
    { report := { lines := b.issues.map Issue.text, failure := b.failure }
      registry := seated.put b.generator, clock := b.clock }

end GenerateJob

end Snowflake.CommandLine
