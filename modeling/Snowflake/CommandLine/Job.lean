import Snowflake.CommandLine.Request.Arguments

/-!
# Jobs: requests that can be carried out

A request becomes a job when its numbers are in range and its format is known. For ids
to be generated, the count is looked at first, then the node id, then the format.
-/

namespace Snowflake.CommandLine

structure GenerateJob where
  format : Format
  encoding : Encoding
  count : Nat
  nodeId : Option Nat
  count_pos : 0 < count
  nodeId_le : ∀ n ∈ nodeId, n ≤ maxNodeId

structure InspectJob where
  format : Format
  encoding : Encoding
  ids : List String
deriving DecidableEq, Repr

inductive Job where
  | generate (job : GenerateJob)
  | inspect (job : InspectJob)

inductive JobError where
  | countZero
  | nodeIdTooLarge (nodeId : Nat)
  | unknownFormat (name : String)
deriving DecidableEq, Repr

def JobError.message : JobError → String
  | countZero => "--count must be greater than 0"
  | nodeIdTooLarge nodeId => s!"node id ({nodeId}) exceeds the node id space (max = {maxNodeId})"
  | unknownFormat name =>
    s!"unknown id format `{name}` (expected one of: tiny, mini, 48, 64, 128)"

namespace Job

def formatNamed (name : String) : Except JobError Format :=
  match Format.ofName? name with
  | some format => .ok format
  | none => .error (.unknownFormat name)

/-- A node id that may be used, if one is given. -/
def nodeIdInRange : (nodeId : Option Nat) → Except JobError { o : Option Nat // ∀ n ∈ o, n ≤ maxNodeId }
  | none => .ok ⟨none, by simp⟩
  | some nodeId =>
    if h : nodeId ≤ maxNodeId then .ok ⟨some nodeId, by simpa using h⟩
    else .error (.nodeIdTooLarge nodeId)

def ofGenerateRequest (request : GenerateRequest) : Except JobError GenerateJob :=
  if h : 0 < request.count then do
    let nodeId ← nodeIdInRange request.nodeId
    let format ← formatNamed request.format
    return { format, encoding := request.encoding, count := request.count, nodeId := nodeId.val,
             count_pos := h, nodeId_le := nodeId.property }
  else .error .countZero

def ofInspectRequest (request : InspectRequest) : Except JobError InspectJob := do
  let format ← formatNamed request.format
  return { format, encoding := request.encoding, ids := request.ids }

def ofRequest : Request → Except JobError Job
  | .generate request => (ofGenerateRequest request).map generate
  | .inspect request => (ofInspectRequest request).map inspect

end Job

end Snowflake.CommandLine
