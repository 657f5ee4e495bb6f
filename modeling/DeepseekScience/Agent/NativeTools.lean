import DeepseekScience.Dsml.Parser
import DeepseekScience.Llm.Stream

/-! Native tool calls: streamed deltas are collected by index, within the boundaries of one
turn, and finalized in the order of their indexes. -/
namespace DeepseekScience.Agent

inductive NativeToolProtocolError where
  | boundaryExceeded | idMutation | nameMutation | incomplete | duplicateId
  deriving DecidableEq, Repr

def NativeToolProtocolError.toText : NativeToolProtocolError → Text
  | .boundaryExceeded => "native tool-call stream exceeds its configured boundary".toList
  | .idMutation => "native tool-call id changed within one index".toList
  | .nameMutation => "native tool-call name changed within one index".toList
  | .incomplete => "native tool-call stream ended with an incomplete call".toList
  | .duplicateId => "native tool-call stream reused an id across indexes".toList

def maxToolCallIdBytes : ℕ := 256

def maxNativeToolNoProgressDeltasPerTurn : ℕ := 4096

structure AccToolCall where
  id : Option Text := none
  name : Option Text := none
  arguments : Text := []
  deriving DecidableEq

/-- The calls by index, in increasing order. -/
structure ToolCallAccumulator where
  calls : List (ℕ × AccToolCall) := []
  totalArgumentBytes : ℕ := 0
  noProgressDeltaCount : ℕ := 0
  deriving DecidableEq

/-- `BTreeMap::insert` on the calls by index. -/
def insertCall (index : ℕ) (call : AccToolCall) : List (ℕ × AccToolCall) → List (ℕ × AccToolCall)
  | [] => [(index, call)]
  | (i, c) :: rest =>
    if index < i then (index, call) :: (i, c) :: rest
    else if index = i then (index, call) :: rest
    else (i, c) :: insertCall index call rest

/-- One write-once field of a call: the new value, and whether it made progress. -/
def fixField (maxBytes : ℕ) (mutation : NativeToolProtocolError) (current next : Option Text) :
    Except NativeToolProtocolError (Option Text × Bool) :=
  match next with
  | none => .ok (current, false)
  | some value =>
    if value.isEmpty || decide (maxBytes < byteLen value) then .error .boundaryExceeded
    else
      match current with
      | none => .ok (some value, true)
      | some existing => if existing = value then .ok (some existing, false) else .error mutation

namespace ToolCallAccumulator

def isEmpty (acc : ToolCallAccumulator) : Bool := acc.calls.isEmpty

/-- The argument fragment of a delta: the longer arguments, the new total and whether it made
progress. -/
def appendArguments (acc : ToolCallAccumulator) (current : Text) :
    Option Text → Except NativeToolProtocolError (Text × ℕ × Bool)
  | none => .ok (current, acc.totalArgumentBytes, false)
  | some arguments =>
    if Dsml.maxToolArgumentBytesPerCall < byteLen current + byteLen arguments then
      .error .boundaryExceeded
    else if Dsml.maxToolArgumentBytesTotal < acc.totalArgumentBytes + byteLen arguments then
      .error .boundaryExceeded
    else .ok (current ++ arguments, acc.totalArgumentBytes + byteLen arguments, !arguments.isEmpty)

/-- Collect one delta. The turn ends with the first error. -/
def push (acc : ToolCallAccumulator) (delta : ToolCallDelta) :
    Except NativeToolProtocolError ToolCallAccumulator :=
  if (acc.calls.lookup delta.index).isNone &&
      decide (Dsml.maxToolCallsPerTurn ≤ acc.calls.length) then .error .boundaryExceeded
  else do
    let slot := (acc.calls.lookup delta.index).getD {}
    let (id, newId) ← fixField maxToolCallIdBytes .idMutation slot.id delta.id
    let (name, newName) ← fixField Dsml.maxToolNameBytes .nameMutation slot.name delta.name
    let (arguments, total, newArguments) ← acc.appendArguments slot.arguments delta.arguments
    let noProgress :=
      if newId || newName || newArguments then acc.noProgressDeltaCount
      else acc.noProgressDeltaCount + 1
    if maxNativeToolNoProgressDeltasPerTurn < noProgress then .error .boundaryExceeded
    else .ok ⟨insertCall delta.index ⟨id, name, arguments⟩ acc.calls, total, noProgress⟩

/-- The loop of `finalize`, with the ids that were seen. -/
def finalizeFrom : List Text → List (ℕ × AccToolCall) →
    Except NativeToolProtocolError (List ToolCall)
  | _, [] => .ok []
  | ids, (_, call) :: rest =>
    match call.id, call.name with
    | some id, some name =>
      if id ∈ ids then .error .duplicateId
      else (finalizeFrom (id :: ids) rest).map (ToolCall.ofFunction id name call.arguments :: ·)
    | _, _ => .error .incomplete

def finalize (acc : ToolCallAccumulator) : Except NativeToolProtocolError (List ToolCall) :=
  finalizeFrom [] acc.calls

end ToolCallAccumulator
end DeepseekScience.Agent
