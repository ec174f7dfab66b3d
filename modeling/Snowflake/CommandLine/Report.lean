/-!
# Reports: what a command printed

A command prints lines until it is through or fails; a failure leaves the lines before
it printed.
-/

namespace Snowflake.CommandLine

/-- The lines that were printed, and what ended the command early. -/
structure Report (ε : Type) where
  lines : List String := []
  failure : Option ε := none
deriving DecidableEq, Repr

namespace Report

variable {ε : Type}

/-- The report with one more line in front. -/
def cons (line : String) (report : Report ε) : Report ε :=
  { report with lines := line :: report.lines }

/-- The printed text: every line with its end. -/
def text (report : Report ε) : String := String.join (report.lines.map (· ++ "\n"))

end Report

end Snowflake.CommandLine
