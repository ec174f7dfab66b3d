import Snowflake.Calendar.Instant
import Snowflake.CommandLine.Report
import Snowflake.CommandLine.Job
import Snowflake.Parts

/-!
# Taking ids apart

Each id gets one line of five fields with tabs between them: the id as it was given, its
time in milliseconds and as an instant, its node field and its sequence. The first id
that cannot be decoded ends the report. What an instant looks like is up to the calendar
that the report is made with.
-/

namespace Snowflake.CommandLine

/-- An id could not be decoded. -/
structure InspectError where
  id : String
  format : Format
  cause : IdError
deriving DecidableEq, Repr

namespace InspectError

def message (e : InspectError) : String := s!"cannot decode `{e.id}` as a {e.format.name} id"

/-- What lies behind the error, outermost first. -/
def causes (e : InspectError) : List String := e.cause.message :: e.cause.causes

end InspectError

namespace InspectJob

variable (calendar : Calendar)

/-- What is written for an instant. The calendar is asked for numbers of 63 bits only. -/
def instantText (millis : Nat) : String :=
  if millis < capacity 63 then (calendar millis).getD "out-of-range" else "out-of-range"

/-- The fields of an id's line. -/
def fields (id : String) (parts : Parts) : List String :=
  [id, Text.Decimal.write parts.timestampMillis, instantText calendar parts.timestampMillis,
    s!"node={Text.Decimal.write parts.nodeId}", s!"sequence={Text.Decimal.write parts.sequence}"]

def line (id : String) (parts : Parts) : String := "\t".intercalate (fields calendar id parts)

def reportOn (f : Format) (encoding : Encoding) : List String → Report InspectError
  | [] => {}
  | id :: ids =>
    match encoding.decode f id with
    | .ok raw => (reportOn f encoding ids).cons (line calendar id (f.layout.parts raw))
    | .error cause => { failure := some { id, format := f, cause } }

/-- The report with instants as a calendar writes them. -/
def reportBy (job : InspectJob) : Report InspectError := reportOn calendar job.format job.encoding job.ids

def report (job : InspectJob) : Report InspectError := job.reportBy .gregorian

end InspectJob

end Snowflake.CommandLine
