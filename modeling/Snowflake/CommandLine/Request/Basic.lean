import Snowflake.Encoding

/-!
# Requests: what the arguments of a command ask for

A request holds the values of a command's options, those that were not given filled in.
The format is still a name and may be none that exists; numbers may still be out of range.
-/

namespace Snowflake.CommandLine

structure GenerateRequest where
  format : String
  encoding : Encoding
  count : Nat
  nodeId : Option Nat
deriving DecidableEq, Repr

structure InspectRequest where
  format : String
  encoding : Encoding
  ids : List String
deriving DecidableEq, Repr

inductive Request where
  | generate (request : GenerateRequest)
  | inspect (request : InspectRequest)
deriving DecidableEq, Repr

end Snowflake.CommandLine
