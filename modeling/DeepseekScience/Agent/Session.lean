import DeepseekScience.Tools.Router
import DeepseekScience.Compact.State

/-! The session that a run works on, the events it emits, and the published turn: evidence of
the current iteration that has crossed the delivery boundary but is not in the history yet. -/
namespace DeepseekScience.Agent

open Tools

inductive FrameStatus where
  | processing | completed | failed | success | replaced | cancelled
  | awaitingPlanApproval | awaitingPlanExecution | awaitingUserResponse
  deriving DecidableEq, Repr

def FrameStatus.isTerminal : FrameStatus → Bool
  | .completed | .failed | .success | .replaced | .cancelled => true
  | .processing | .awaitingPlanApproval | .awaitingPlanExecution | .awaitingUserResponse => false

structure Frame where
  id : Text
  parentFrameId : Option Text := none
  rootFrameId : Option Text
  agentName : Text := "MAIN".toList
  status : FrameStatus := .processing
  taskSummary : Text := []
  deriving DecidableEq

/-- A terminal status is sticky. -/
def Frame.setStatus (f : Frame) (status : FrameStatus) : Frame :=
  if f.status.isTerminal then f else { f with status := status }

/-- Begin a new user turn: unless the frame is processing already, it becomes the parent of a
fresh one. -/
def Frame.beginRun (f : Frame) (freshId taskSummary : Text) : Frame :=
  if f.status = .processing then { f with taskSummary := taskSummary }
  else
    { f with
      taskSummary := taskSummary
      id := freshId
      parentFrameId := some f.id
      status := .processing }

/-- Counters of the decision gates. -/
structure GateState where
  emptyRetryCount : ℕ := 0
  retrievalStreak : ℕ := 0
  lengthFinishCount : ℕ := 0
  planDenialCount : ℕ := 0
  vetoCount : ℕ := 0
  deriving DecidableEq

structure Session where
  id : Text
  frame : Frame
  messages : List ChatMessage := []
  compaction : Compact.CompactionState := {}
  gateState : GateState := {}
  plan : Option PlanState := none
  deriving DecidableEq

inductive CompleteKind where
  | natural | awaiting | maxIters | error | cancelled
  deriving DecidableEq, Repr

structure ToolCallView where
  id : Text
  name : Text
  input : Json

inductive AgentEvent where
  | start (frameId taskSummary : Text)
  | iteration (n : ℕ)
  | thinking (text : Text)
  | text (text : Text)
  /-- The streamed text since the previous reset is an internal draft. -/
  | draftReset (reason : Text)
  | toolCalls (calls : List ToolCallView)
  | toolResults (results : List ToolResult)
  | planUpdate (plan : PlanState)
  | complete (kind : CompleteKind) (finalText : Text) (awaiting error : Option Text)
      (usage : Usage) (iterations : ℕ) (frameStatus : FrameStatus)
      (pendingAsk : Option PendingAsk) (plan : Option PlanState)
  | error (message : Text)

/-- What a run reports to its caller; the events are already sent. -/
structure RunOutcome where
  kind : CompleteKind
  finalText : Text
  awaiting : Option Text := none
  pendingAsk : Option PendingAsk := none
  error : Option Text := none
  usage : Usage
  iterations : ℕ
  deriving DecidableEq

def u32Max : ℕ := 2 ^ 32 - 1

def saturatingAddU32 (a b : ℕ) : ℕ := min (a + b) u32Max

/-- A harness notice: an internal system message that the model sees and the user does not. -/
def harnessNotice (text : Text) : ChatMessage :=
  { ChatMessage.ofSystem text with harnessNotice := true }

def nonempty (value : Text) : Option Text := if value.isEmpty then none else some value

structure PublishedTurn where
  thinking : Text := []
  text : Text := []
  toolCalls : Option (List ToolCall) := none
  deriving DecidableEq

namespace PublishedTurn

def isEmpty (p : PublishedTurn) : Bool :=
  p.thinking.isEmpty && p.text.isEmpty && (p.toolCalls.getD []).isEmpty

def intoMessage (p : PublishedTurn) (usage : Usage) : Option ChatMessage :=
  if p.isEmpty then none
  else
    let message :=
      match p.toolCalls with
      | some toolCalls =>
        { ChatMessage.ofAssistantToolCalls toolCalls with content := nonempty p.text }
      | none => ChatMessage.ofAssistant p.text
    some
      { message with
        reasoningContent := nonempty p.thinking
        usage := if usage.inputTokens ≠ 0 ∨ usage.outputTokens ≠ 0 then some usage else none }

end PublishedTurn

/-- Per-run progress. `usage` includes the latest snapshot of the current iteration. -/
structure RunProgress where
  iterations : ℕ := 0
  usage : Usage := {}
  iterationUsage : Usage := {}
  published : PublishedTurn := {}
  deriving DecidableEq

namespace RunProgress

def beginIteration (p : RunProgress) : RunProgress :=
  { p with iterations := p.iterations + 1, iterationUsage := {} }

/-- Replace the contribution of the current iteration to one counter. -/
def replaceUsage (total current next : ℕ) : ℕ := saturatingAddU32 (total - current) next

def recordUsage (p : RunProgress) (next : Usage) : RunProgress :=
  { p with
    usage :=
      { inputTokens :=
          replaceUsage p.usage.inputTokens p.iterationUsage.inputTokens next.inputTokens
        outputTokens :=
          replaceUsage p.usage.outputTokens p.iterationUsage.outputTokens next.outputTokens
        cacheHitTokens :=
          replaceUsage p.usage.cacheHitTokens p.iterationUsage.cacheHitTokens next.cacheHitTokens
        cacheMissTokens :=
          replaceUsage p.usage.cacheMissTokens p.iterationUsage.cacheMissTokens
            next.cacheMissTokens }
    iterationUsage := next }

def publishedMessage (p : RunProgress) : Option ChatMessage :=
  p.published.intoMessage p.iterationUsage

end RunProgress

def cancelledToolResult : Text :=
  "工具调用已发布，但在结果返回界面前本轮被取消；没有持久化未发布的工具结果。".toList

/-- The synthetic result of a published call whose real result did not reach the client. -/
def cancelledResult (call : ToolCall) : ChatMessage :=
  { ChatMessage.ofTool call.id cancelledToolResult (some call.function.name) with
    isError := some true }

end DeepseekScience.Agent
