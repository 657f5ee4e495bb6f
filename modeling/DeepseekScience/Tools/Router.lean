import DeepseekScience.Llm.Stream

/-! Tools, the state that they share with the Runner, and the ordered execution of a batch:
every call of the batch is answered by exactly one result, whatever its task does. -/
namespace DeepseekScience.Tools

structure PlanStep where
  title : Text
  status : Text
  deriving DecidableEq

structure PlanState where
  steps : List PlanStep
  approved : Bool
  researchQuestion : Option Text := none
  deriving DecidableEq

structure PendingAskOption where
  label : Text
  description : Option Text := none
  deriving DecidableEq

structure PendingAsk where
  question : Text
  options : List PendingAskOption := []
  header : Option Text := none
  deriving DecidableEq

/-- The part of the shared tool state that the Runner reads. -/
structure ToolContext where
  plan : Option PlanState := none
  pendingAsk : Option PendingAsk := none
  deriving DecidableEq

/-- What a checkpoint stores next to the messages. -/
structure HistoryCheckpointState where
  frameId : Text
  parentFrameId : Option Text
  rootFrameId : Option Text
  agentName : Text
  taskSummary : Text
  plan : Option PlanState
  pendingAsk : Option PendingAsk
  status : Text
  awaiting : Option Text
  deriving DecidableEq

inductive ToolBatchPolicy where
  | ordered | exclusive
  deriving DecidableEq

structure Tool where
  definition : ToolDef
  batchPolicy : ToolBatchPolicy := .ordered
  /-- Seconds that one invocation may take. -/
  timeout : Json → ℕ := fun _ => 30

def Tool.name (t : Tool) : Text := t.definition.name

/-- The registered tools by name, each name once. -/
structure ToolRegistry where
  tools : List Tool
  sorted : tools.Pairwise fun t u => t.name < u.name

namespace ToolRegistry

def get (r : ToolRegistry) (name : Text) : Option Tool := r.tools.find? fun t => t.name == name

def batchPolicy (r : ToolRegistry) (name : Text) : Option ToolBatchPolicy :=
  (r.get name).map Tool.batchPolicy

def definitions (r : ToolRegistry) : List ToolDef := r.tools.map Tool.definition

end ToolRegistry

inductive ToolError where
  | invalidArgs (message : Text)
  | pathEscape (message : Text)
  | notFound (name : Text)
  | io (message : Text)
  | timeout (seconds : ℕ)
  | other (message : Text)
  deriving DecidableEq

def ToolError.toText : ToolError → Text
  | .invalidArgs message => "invalid arguments: ".toList ++ message
  | .pathEscape message => "path escapes workspace: ".toList ++ message
  | .notFound name => "not found: ".toList ++ name
  | .io message => "io error: ".toList ++ message
  | .timeout seconds => "timed out after ".toList ++ natText seconds ++ "s".toList
  | .other message => message

structure ToolOutput where
  content : Text
  isError : Bool
  deriving DecidableEq

structure PendingToolCall where
  id : Text
  name : Text
  input : Json

structure ToolResult where
  toolUseId : Text
  content : Text
  isError : Bool
  deriving DecidableEq

/-- How the task of one tool invocation ends. -/
inductive TaskEnd where
  | finished (result : Except ToolError ToolOutput)
  | timedOut
  | crashed (error : Text)
  | withoutResult

/-- One invocation of a registered tool: its end, and the shared state that it leaves. -/
structure ToolTask where
  ended : TaskEnd
  ctx : ToolContext

def toResult (toolUseId : Text) (res : Except ToolError ToolOutput) (name : Text) : ToolResult :=
  match res with
  | .ok out => ⟨toolUseId, out.content, out.isError⟩
  | .error e => ⟨toolUseId, "tool `".toList ++ name ++ "` failed: ".toList ++ e.toText, true⟩

/-- One call of a batch, run by its own task. -/
def executeToolCall (registry : ToolRegistry) (task : ToolTask) (ctx : ToolContext)
    (call : PendingToolCall) : ToolResult × ToolContext :=
  match registry.get call.name with
  | none => (toResult call.id (.error (.notFound call.name)) call.name, ctx)
  | some tool =>
    match task.ended with
    | .finished res => (toResult call.id res call.name, task.ctx)
    | .timedOut =>
      (toResult call.id (.error (.timeout (tool.timeout call.input))) call.name, task.ctx)
    | .crashed error =>
      (⟨call.id, "tool `".toList ++ call.name ++ "` task crashed: ".toList ++ error, true⟩,
        task.ctx)
    | .withoutResult =>
      (⟨call.id, "tool `".toList ++ call.name ++ "` task ended without a result".toList, true⟩,
        task.ctx)

/-- The task of each call of a batch: what a tool does may depend on the shared state that it
finds and on the call. -/
abbrev BatchTasks := ℕ → ToolContext → PendingToolCall → ToolTask

/-- Execute one batch sequentially; the tasks are those of the calls from `position` on. -/
def executeToolCalls (registry : ToolRegistry) (tasks : BatchTasks) :
    ℕ → ToolContext → List PendingToolCall → List ToolResult × ToolContext
  | _, ctx, [] => ([], ctx)
  | position, ctx, call :: calls =>
    let (result, ctx) := executeToolCall registry (tasks position ctx call) ctx call
    let (results, ctx) := executeToolCalls registry tasks (position + 1) ctx calls
    (result :: results, ctx)

@[simp] theorem toResult_toolUseId (id : Text) (res : Except ToolError ToolOutput) (name : Text) :
    (toResult id res name).toolUseId = id := by
  cases res <;> rfl

theorem executeToolCall_toolUseId (registry : ToolRegistry) (task : ToolTask) (ctx : ToolContext)
    (call : PendingToolCall) : (executeToolCall registry task ctx call).1.toolUseId = call.id := by
  unfold executeToolCall
  split
  · simp only [toResult_toolUseId]
  · split <;> simp only [toResult_toolUseId]

/-- Results match the input order, one for each call. -/
theorem executeToolCalls_toolUseIds (registry : ToolRegistry) (tasks : BatchTasks)
    (calls : List PendingToolCall) (position : ℕ) (ctx : ToolContext) :
    (executeToolCalls registry tasks position ctx calls).1.map ToolResult.toolUseId =
      calls.map PendingToolCall.id := by
  induction calls generalizing position ctx with
  | nil => rfl
  | cons call calls ih =>
    simp only [executeToolCalls, List.map_cons, executeToolCall_toolUseId, ih]

/-- Arguments that are not JSON reach the tool under the key `_raw`. -/
def parseArguments (json : SerdeJson) (raw : Text) : Json :=
  if raw.isEmpty then .object []
  else (json.fromStr raw).getD (.object [("_raw".toList, .string raw)])

end DeepseekScience.Tools
