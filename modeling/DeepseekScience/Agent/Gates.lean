import DeepseekScience.Agent.Session

/-! The decision gates of the Runner as functions of the data that they read: which tools are
available, how a rejected batch is answered, when a plan counts as finished, and how far a
requested artifact repair has come. -/
namespace DeepseekScience.Agent

open Tools

def emptyRetryCap : ℕ := 3
def retrievalCircuitBreaker : ℕ := 6
def lengthFinishHardCap : ℕ := 5
def lengthFinishTrimAt : ℕ := 3
def planDenialCap : ℕ := 3
def planCompletionRetryCap : ℕ := 3
def vetoCap : ℕ := 1
def artifactRepairReminderCap : ℕ := 1

def isPreapprovalPlanTool (name : Text) : Bool :=
  name == "generate_plan".toList || name == "ask_user".toList

def hasUpdatableApprovedPlan (plan : Option PlanState) : Bool :=
  plan.any fun plan => plan.approved && plan.steps.any fun step => step.status != "done".toList

def isToolAvailable (name : Text) (planMode planStepUpdatesAllowed : Bool) : Bool :=
  if planMode then isPreapprovalPlanTool name
  else name != "update_step_status".toList || planStepUpdatesAllowed

def toLlmToolDefs (reg : ToolRegistry) (planMode planStepUpdatesAllowed : Bool) : List ToolDef :=
  reg.definitions.filter fun td => isToolAvailable td.name planMode planStepUpdatesAllowed

/-- One error result for every declared call. -/
def rejectedResults (message : Text → Text) (calls : List ToolCall) : List ToolResult :=
  calls.map fun call => ⟨call.id, message call.function.name, true⟩

def rejectedPreapprovalResults : List ToolCall → List ToolResult :=
  rejectedResults fun name =>
    "tool `".toList ++ name ++ "` was not executed: Plan approval is required before execution; only `generate_plan` and `ask_user` are available before approval".toList

def rejectedInactivePlanUpdateResults : List ToolCall → List ToolResult :=
  rejectedResults fun name =>
    if name = "update_step_status".toList then
      "tool `update_step_status` was not executed: it is available only while an approved plan has unfinished steps".toList
    else
      "tool `".toList ++ name ++ "` was not executed: its batch included `update_step_status`, which is available only while an approved plan has unfinished steps".toList

def rejectedExclusiveToolBatchResults : List ToolCall → List ToolResult :=
  rejectedResults fun name =>
    "tool `".toList ++ name ++ "` was not executed: an exclusive remote tool must be the only tool call in its model turn. On the next turn, call exactly one exclusive tool by itself; retry any other tools in separate later turns".toList

/-- The rejection of a whole batch at the execution boundary, if one applies. -/
def rejectedBatch (tools : ToolRegistry) (planMode planStepUpdatesAllowed : Bool)
    (calls : List ToolCall) : Option (List ToolResult) :=
  if planMode && calls.any fun call => !isPreapprovalPlanTool call.function.name then
    some (rejectedPreapprovalResults calls)
  else if !planMode && calls.any fun call =>
      !isToolAvailable call.function.name planMode planStepUpdatesAllowed then
    some (rejectedInactivePlanUpdateResults calls)
  else if decide (1 < calls.length) && calls.any fun call =>
      tools.batchPolicy call.function.name == some .exclusive then
    some (rejectedExclusiveToolBatchResults calls)
  else none

theorem rejectedBatch_toolUseIds {tools : ToolRegistry} {planMode updates : Bool}
    {calls : List ToolCall} {results : List ToolResult}
    (h : rejectedBatch tools planMode updates calls = some results) :
    results.map ToolResult.toolUseId = calls.map ToolCall.id := by
  have hids : ∀ message, (rejectedResults message calls).map ToolResult.toolUseId =
      calls.map ToolCall.id := by
    intro message
    simp only [rejectedResults, List.map_map]
    rfl
  rw [rejectedBatch] at h
  split_ifs at h <;> simp only [Option.some.injEq] at h <;> subst h <;>
    exact hids _

def isRetrievalTool (name : Text) : Bool :=
  ["web_search", "fetch_url", "search_papers", "fetch_paper", "search_memory", "read_memory",
    "search_skills", "list_skills", "list_files", "read_file", "mcp_list_resources",
    "mcp_read_resource"].any fun tool => name == tool.toList

def isPlanMutationTool (name : Text) : Bool :=
  name == "generate_plan".toList || name == "update_step_status".toList

/-- Whether a call of the named tool has a successful result. -/
def succeededInBatch (isTool : Text → Bool) (calls : List ToolCall) (results : List ToolResult) :
    Bool :=
  calls.any fun call => isTool call.function.name &&
    results.any fun result => result.toolUseId == call.id && !result.isError

def askSupersededByPlanResult : Text :=
  "[ask superseded] The generated plan is authoritative; no separate user response is pending. This run is awaiting plan approval.".toList

/-- Rewrite the successful results of `ask_user` calls. -/
def supersedeAskResults (calls : List ToolCall) (results : List ToolResult) : List ToolResult :=
  results.map fun result =>
    let isAskResult := calls.any fun call =>
      call.id == result.toolUseId && call.function.name == "ask_user".toList
    if isAskResult && !result.isError then { result with content := askSupersededByPlanResult }
    else result

theorem supersedeAskResults_toolUseIds (calls : List ToolCall) (results : List ToolResult) :
    (supersedeAskResults calls results).map ToolResult.toolUseId =
      results.map ToolResult.toolUseId := by
  rw [supersedeAskResults, List.map_map]
  refine List.map_congr_left fun result _ => ?_
  simp only [Function.comp_apply]
  split_ifs <;> rfl

/-- The history message of a tool result. -/
def resultMessage (calls : List ToolCall) (r : ToolResult) : ChatMessage :=
  { ChatMessage.ofTool r.toolUseId r.content
      ((calls.find? fun call => call.id == r.toolUseId).map fun call => call.function.name) with
    isError := some r.isError }

def approvedPlanIsComplete (plan : Option PlanState) : Bool :=
  plan.any fun plan => plan.approved && !plan.steps.isEmpty &&
    plan.steps.all fun step => eqIgnoreAsciiCase step.status "done".toList

def renderPlanStatus : Option PlanState → Text
  | none => "- 已批准计划快照缺失；请恢复原计划，不要直接结束。".toList
  | some plan =>
    joinText "\n".toList (plan.steps.zipIdx.map fun (step, index) =>
      "- ".toList ++ natText (index + 1) ++ ". ".toList ++ step.title ++ " [".toList ++
        step.status ++ "]".toList)

inductive ArtifactRepairProgress where
  | missingMutation | missingVerification | complete
  deriving DecidableEq, Repr

def isArtifactMutationTool (name : Text) : Bool :=
  name == "write_file".toList || name == "edit_file".toList

def isArtifactVerificationTool (name : Text) : Bool :=
  name == "read_file".toList || name == "python".toList || name == "bash".toList

/-- Name and message index of every declared call; a later entry for an id hides earlier ones. -/
def callSites (messages : List ChatMessage) : List (Text × Text × ℕ) :=
  (messages.zipIdx.flatMap fun (m, index) =>
    (m.toolCalls.getD []).map fun call => (call.id, call.function.name, index)).reverse

/-- The latest turns with a successful mutation and a successful verification. -/
structure RepairTurns where
  mutation : Option ℕ := none
  verification : Option ℕ := none
  deriving DecidableEq

def RepairTurns.observe (sites : List (Text × Text × ℕ)) (t : RepairTurns) (m : ChatMessage) :
    RepairTurns :=
  if m.role ≠ .tool ∨ m.isError ≠ some false then t
  else
    match m.toolCallId.bind fun id => sites.lookup id with
    | none => t
    | some (fallbackName, callTurn) =>
      let name := m.name.getD fallbackName
      if isArtifactMutationTool name then { t with mutation := some callTurn }
      else if isArtifactVerificationTool name then { t with verification := some callTurn }
      else t

def artifactRepairProgress (messages : List ChatMessage) : ArtifactRepairProgress :=
  let turns := messages.foldl (RepairTurns.observe (callSites messages)) {}
  match turns.mutation with
  | none => .missingMutation
  | some mutationTurn =>
    if turns.verification.any fun turn => decide (mutationTurn < turn) then .complete
    else .missingVerification

def artifactRepairGuidance : ArtifactRepairProgress → Text
  | .missingMutation => "修订边界之后没有成功的 write_file/edit_file 结果".toList
  | .missingVerification =>
    "已有成功写入/编辑，但没有在其后的独立工具轮成功 read_file/python/bash 核验".toList
  | .complete => "产物修复与后续核验均已完成".toList

/-- The verdict of the terminal reviewer. -/
structure Verdict where
  pass : Bool
  findings : List Text
  requiresToolAction : Bool

/-- The findings of a verdict, with a stand-in when it has none. -/
def Verdict.effectiveFindings (v : Verdict) : List Text :=
  if v.findings.isEmpty then
    ["reviewer 判定结果未通过，但未返回具体 finding；请重新核对证据、约束和结论。".toList]
  else v.findings

/-- A limit of the user can only lower the configured one; the flag says whether it binds. -/
def effectiveIterationLimit (explicit : Option ℕ) (configured : ℕ) : ℕ × Bool :=
  (explicit.elim configured fun limit => min limit configured,
    explicit.any fun limit => decide (limit ≤ configured))

def truncateChars (s : Text) (max : ℕ) : Text :=
  s.take max ++ if max < s.length then ['…'] else []

/-! The notices that the gates inject, and the texts of their failures. -/

@[irreducible] def scienceExecutionPolicy : Text :=
  "[Deepseek Science execution policy]\n".toList ++
  "Work as an evidence-first scientific research agent.\n".toList ++
  "- Read the task constraints and the relevant local inputs before making quantitative claims. Preserve raw inputs and work only inside the authorized workspace.\n".toList ++
  "- For confirmatory analyses, state hypotheses, metrics, decision rules, and multiplicity handling before inspecting outcomes. If a rule changes after results are visible, label it post-hoc/exploratory rather than preregistered.\n".toList ++
  "- Start with the smallest cheap validation or a reduced test case before expensive computation. Estimate complexity, avoid brute force when an exact/analytic/vectorized alternative exists, and do not repeat a failed command without changing the diagnosis or method.\n".toList ++
  "- Respect explicit user limits on network access, dependencies, time, samples, and agent iterations. Finish as soon as the requested evidence and artifacts are verified; do not add tools or scope merely because budget remains.\n".toList ++
  "- After writing code or an artifact, run the smallest relevant check, then read back the decisive result. Keep inputs unchanged unless the user explicitly asks to edit them.\n".toList ++
  "- Separate observation, association, and causation; quantify uncertainty and limitations. With finite resampling/permutation/Monte Carlo, zero exceedances is not a true p/FAP of zero: report the finite resolution and an appropriate corrected estimate or bound.\n".toList ++
  "- Never claim to have read, run, validated, or temporally ordered a step unless the actual tool trace supports it.\n".toList

def toolErrorRecoveryNotice : Text :=
  "本轮已经出现多次工具失败。先停止扩大脚本或重复同一命令：用最小复现定位根因，检查参数/数据形状/复杂度，再选择更小的验证或替代方法。保留已经验证的结果，并优先完成用户要求的最小可交付物。".toList

def cancelledRequestBoundary : Text :=
  "上一条用户请求已由用户取消。不要继续该请求，除非最新用户消息明确要求恢复；下一轮只处理最新的用户请求。".toList

def planDenialNotice : Text :=
  "你处于 plan 模式但还没生成计划。请调用 generate_plan 工具给出步骤计划，再继续；如确实缺少必要信息，可调用 ask_user。".toList

def userFinalIterationNotice (iterations : ℕ) : Text :=
  "这是用户明确限制的最后一轮（".toList ++ natText iterations ++
    " 轮）。工具已关闭；不要再扩展范围，只能在本轮收束为最终回复。若无法完成，请明确报告阻塞与已验证证据。".toList

def lengthFinishNotice (n : ℕ) : Text :=
  if lengthFinishTrimAt ≤ n then
    "你的上一条回复因 max_tokens 被截断。请用**显著更短**的篇幅继续并完成，避免再次被截断。".toList
  else "你的上一条回复因 max_tokens 被截断。请从中断处继续，完成剩余内容。".toList

def emptyResponseNotice : Text :=
  "你的上一条回复为空。请基于上下文给出实际回复；若任务已完成请明确说明。".toList

def retrievalStreakNotice : Text :=
  "你已经连续多轮只做检索/阅读，没有产出实际内容。请停止搜索，基于已获取的信息开始写作/回答。".toList

def planIncompleteNotice (plan : Option PlanState) : Text :=
  "已批准计划尚未完成，不能结束本轮。请继续实际执行未完成步骤，并用 update_step_status 更新状态；只有全部步骤均为 done 才能给出最终回复。\n".toList ++
    renderPlanStatus plan

def planPausedNotice : Text :=
  "计划完成状态连续校验失败，本轮已暂停。保留已批准的未完成计划，等待用户点击“执行计划/重试”。".toList

def artifactRepairNotice (guidance : Text) : Text :=
  "reviewer 要求修复 workspace 产物，但修订轨迹尚未满足可复审条件：".toList ++ guidance ++
    "\n必须先实际调用 write_file 或 edit_file 并成功，再在后续独立工具轮调用 read_file、python 或 bash 成功核验；不要只重复最终回复或声称文件已经修改。完成后再给最终回复。".toList

def vetoNotice (findings : List Text) (requiresToolAction : Bool) : Text :=
  "reviewer 发现以下问题，请修复后重新给出最终回复：\n".toList ++
    joinText "\n".toList (findings.map fun f => "- ".toList ++ f) ++
    if requiresToolAction then
      "\n\n本次裁决的 repair_scope=artifact。下一次最终回复前，必须实际调用 write_file 或 edit_file 修正产物，并在后续独立工具轮用 read_file、python 或 bash 成功核验；工具仍然可用。不要只改最终回复措辞、重复旧答案，或把既有多次调用伪称为一次。".toList
    else []

/-- The failures of the user's iteration budget begin alike. -/
def userBudgetExhausted (limit : ℕ) (rest : Text) : Text :=
  "user-specified agent iteration budget exhausted (".toList ++ natText limit ++ ")".toList ++ rest

end DeepseekScience.Agent
