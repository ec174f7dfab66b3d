import Snowflake.CommandLine.Report
import Snowflake.Encoding
import Snowflake.Text.Bytes

/-!
# Summaries of printed ids

A summary says of a list of lines what holds whenever the ids were printed: how long the
lines are, which node fields the ids have, and whether each id is above the one before.
-/

namespace Snowflake.CommandLine

structure Summary where
  lines : Nat
  /-- The different lengths of the lines, in bytes, ascending. -/
  lengths : List Nat
  /-- The different node fields of the ids, ascending. -/
  nodes : List Nat
  increasing : Bool
deriving DecidableEq, Repr

namespace Summary

/-- The numbers of a list, each once, ascending. -/
def distinct (ns : List Nat) : List Nat := ns.mergeSort.eraseDups

/-- Every number is below the next one. -/
def isIncreasing : List Nat → Bool
  | a :: b :: rest => a < b && isIncreasing (b :: rest)
  | _ => true

/-- The summary of the lines that decode. Decimal lines have no length to speak of. -/
def ofLines (f : Format) (encoding : Encoding) (lines : List String) : Summary :=
  let ids := lines.filterMap fun line => (encoding.decode f line).toOption
  { lines := lines.length
    lengths := match encoding with
      | .raw => []
      | _ => distinct (lines.map fun line => (Text.bytes line).length)
    nodes := distinct (ids.map f.layout.nodeField)
    increasing := isIncreasing ids }

end Summary

end Snowflake.CommandLine
