import DeepseekScience.Lib.Exits
import DeepseekScience.Dsml.Guard
import DeepseekScience.Compact.Rolling
import DeepseekScience.Agent.Gates
import DeepseekScience.Agent.NativeTools

/-! The Runner: one request of the user as a loop of model iterations. A run leaves early
through its terminal outcomes; the receiver of its events may close between any two points at
which the run sends or waits. -/
namespace DeepseekScience.Agent

open Tools Dsml Exits

structure Delivery where
  event : AgentEvent
  accepted : Bool

/-- The event channel of a run. -/
structure Channel where
  /-- Points that the receiver outlives; `none` is a receiver that never closes. -/
  openFor : Option ℕ := none
  sent : List Delivery := []

/-- Whether the receiver is closed at this point. -/
def Channel.poll (tx : Channel) : Bool × Channel :=
  match tx.openFor with
  | none => (false, tx)
  | some 0 => (true, tx)
  | some (n + 1) => (false, { tx with openFor := some n })

/-- Offer an event; a closed receiver refuses it. -/
def Channel.offer (tx : Channel) (event : AgentEvent) : Bool × Channel :=
  let (closed, tx) := tx.poll
  (!closed, { tx with sent := tx.sent ++ [⟨event, !closed⟩] })

/-- What the world outside decides in one iteration. -/
structure ProviderTurn where
  /-- Replies to the summarizer calls. -/
  summaries : List (Option Text) := []
  /-- The replies that arrive before a closure that interrupts the compaction. -/
  summariesAtClose : ℕ := 0
  stream : Except Text (List (Except Text StreamEvent))
  /-- The fresh ids of textual calls. -/
  callIds : ℕ → Text
  tasks : BatchTasks
  /-- The shared tool state when a closure interrupts the batch. -/
  ctxAtClose : ToolContext := {}
  verdict : Option Verdict := none

/-- A request to run, with the packages and services that it is given. -/
structure RunRequest (σ : Type) where
  model : Text
  prompt : Text
  tools : ToolRegistry
  maxIterations : ℕ
  contextWindow : ℕ
  runContext : List ChatMessage
  planMode : Bool
  /-- The rendered block of recalled memories. -/
  memoryBlock : Option Text
  /-- The durable store of checkpoints, if the context has one. -/
  historyCheckpoint :
    Option (σ → List ChatMessage → HistoryCheckpointState → Except Text Unit × σ)
  freshFrameId : Text
  parseExplicitIterationLimit : Text → Option ℕ
  microcompact : List ChatMessage → List ChatMessage
  json : SerdeJson
  ratios : Compact.TokenRatios
  turns : ℕ → ProviderTurn

/-- The mutable state of a run: the session, the shared tool state, the channel, the requests
made, the batches handed to the router, the checkpoint store and the local variables of the
loop. -/
structure RunState (σ : Type) where
  session : Session
  ctx : ToolContext
  tx : Channel
  store : σ
  requests : List ChatRequest := []
  routed : List (List PendingToolCall) := []
  progress : RunProgress := {}
  finalText : Text := []
  historyCheckpointCursor : ℕ := 0
  planCompletionRetryCount : ℕ := 0
  toolErrorCount : ℕ := 0
  lastVetoFindings : List Text := []
  artifactRepairTraceStart : Option ℕ := none
  artifactRepairReminders : ℕ := 0

/-- What a run fixes before its first iteration. -/
structure RunSetup where
  runContext : List ChatMessage
  runTraceStart : ℕ
  initialApprovedPlan : Option PlanState
  iterationLimit : ℕ
  userIterationCapActive : Bool

/-- What an iteration fixes at its start. -/
structure IterationSetup where
  n : ℕ
  isUserFinal : Bool
  planStepUpdatesAllowed : Bool

abbrev Run (σ : Type) (α : Type) := Prog (RunState σ) RunOutcome α

section
variable {σ : Type} {α : Type}

namespace RunState

def push (s : RunState σ) (m : ChatMessage) : RunState σ :=
  { s with session := { s.session with messages := s.session.messages ++ [m] } }

def setPublished (s : RunState σ) (p : PublishedTurn) : RunState σ :=
  { s with progress := { s.progress with published := p } }

def setStatus (s : RunState σ) (status : FrameStatus) : RunState σ :=
  { s with session := { s.session with frame := s.session.frame.setStatus status } }

def setPlan (s : RunState σ) (plan : Option PlanState) : RunState σ :=
  { s with session := { s.session with plan := plan } }

def updateGates (s : RunState σ) (f : GateState → GateState) : RunState σ :=
  { s with session := { s.session with gateState := f s.session.gateState } }

/-- Take the published turn and record it as it is, or hidden as a harness notice. -/
def recordPublished (s : RunState σ) (hidden : Bool) : RunState σ :=
  let taken := s.setPublished {}
  match s.progress.publishedMessage with
  | none => taken
  | some message => taken.push { message with harnessNotice := hidden }

def commitPublished (s : RunState σ) : RunState σ := s.recordPublished false

def hidePublished (s : RunState σ) : RunState σ := s.recordPublished true

/-- Keep a published batch, with a synthetic error result for every call. -/
def commitCancelled (s : RunState σ) : RunState σ :=
  ((s.progress.published.toolCalls.getD []).map cancelledResult).foldl push s.commitPublished

def isMarkedCancelled (s : RunState σ) : Bool :=
  s.session.messages.getLast?.any fun m => m.role == .system && m.harnessNotice &&
    m.content == some cancelledRequestBoundary

/-- The state that a cancelled run leaves behind. -/
def cancelled (s : RunState σ) : RunState σ :=
  let s := s.commitCancelled
  let s := if s.isMarkedCancelled then s else s.push (harnessNotice cancelledRequestBoundary)
  s.setStatus .cancelled

end RunState

def send (event : AgentEvent) : Run σ Bool :=
  modifyGet fun s => ((s.tx.offer event).1, { s with tx := (s.tx.offer event).2 })

def isClosed : Run σ Bool :=
  modifyGet fun s => (s.tx.poll.1, { s with tx := s.tx.poll.2 })

def pushNotice (text : Text) : Run σ Unit := modify fun s => s.push (harnessNotice text)

/-- The client is gone after the prompt has entered the history. -/
def cancel : Run σ α := do
  let s ← get
  modify RunState.cancelled
  throw
    { kind := .cancelled
      finalText := s.progress.published.text
      usage := s.progress.usage
      iterations := s.progress.iterations }

def sendOrCancel (event : AgentEvent) : Run σ Unit := do
  if ← send event then pure () else cancel

def closedOrCancel : Run σ Unit := do
  onlyIf (← isClosed) (cancel)

/-- Wait for an operation; a closure in the meantime leaves the state of `interrupted`. -/
def selectOrCancel (interrupted : RunState σ → RunState σ) : Run σ Unit := do
  if ← isClosed then do
    modify interrupted
    cancel
  else pure ()

/-- The terminal event that announces an outcome. -/
def RunOutcome.event (o : RunOutcome) (frameStatus : FrameStatus) (plan : Option PlanState) :
    AgentEvent :=
  .complete o.kind o.finalText o.awaiting o.error o.usage o.iterations frameStatus o.pendingAsk
    plan

/-- Deliver the terminal event, and only then commit what `settle` records. -/
def completeWith (outcome : RunOutcome) (frameStatus : FrameStatus) (plan : Option PlanState)
    (settle : RunState σ → RunState σ) : Run σ α := do
  sendOrCancel (outcome.event frameStatus plan)
  modify fun s => (settle s).setStatus frameStatus
  throw outcome

/-- The failure path: a terminal event of kind `error`, then the published turn is committed. -/
def fail (message : Text) : Run σ α := do
  let s ← get
  let published := s.progress.published.text
  completeWith
    { kind := .error
      finalText := if published.isEmpty then s.finalText else published
      error := some message
      usage := s.progress.usage
      iterations := s.progress.iterations }
    .failed s.session.plan RunState.commitPublished

/-- Hide a rejected draft before the live draft is reset. -/
def hideDraft (reason : Text) : Run σ Unit := do
  modify RunState.hidePublished
  sendOrCancel (.draftReset reason)

/-- A protocol or capability decision invalidates the candidate that was shown provisionally. -/
def failInvalidatedCandidate (resetReason message : Text) : Run σ α := do
  let s ← get
  onlyIf (!s.progress.published.thinking.isEmpty || !s.progress.published.text.isEmpty)
    (hideDraft resetReason)
  fail message

def assistantProtocolInvalid : Text := "assistant_protocol_invalid".toList

def assistantCapabilityViolation : Text := "assistant_capability_violation".toList

def failProtocol (message : Text) : Run σ α :=
  failInvalidatedCandidate assistantProtocolInvalid message

/-! The stream of one iteration. -/

def publishThinking (released : Option Text) : Run σ Unit :=
  match released with
  | none => pure ()
  | some text => do
    sendOrCancel (.thinking text)
    modify fun s => s.setPublished
      { s.progress.published with thinking := s.progress.published.thinking ++ text }

def publishText (released : Option Text) : Run σ Unit :=
  match released with
  | none => pure ()
  | some text => do
    sendOrCancel (.text text)
    modify fun s => s.setPublished
      { s.progress.published with text := s.progress.published.text ++ text }

/-- The local variables of the stream loop. -/
structure StreamState where
  toolAcc : ToolCallAccumulator := {}
  finishReason : Option Text := none
  sawFinish : Bool := false
  textGuard : IncrementalAssistantTextGuard := {}
  thinkingGuard : IncrementalAssistantTextGuard := {}
  thinkingLenAtTextFirstLt : Option ℕ := none

namespace StreamState

def bufferedLen (l : StreamState) : ℕ := l.thinkingGuard.bufferedLen + l.textGuard.bufferedLen

/-- A frozen guard freezes its sibling. -/
def syncFrozen (l : StreamState) : StreamState :=
  if l.thinkingGuard.publicationFrozen || l.textGuard.publicationFrozen then
    { l with
      thinkingGuard := l.thinkingGuard.freezePublication
      textGuard := l.textGuard.freezePublication }
  else l

/-- A reasoning delta; a frozen reasoning channel freezes the answer. -/
def pushThinking (l : StreamState) (t : Text) : Except DsmlError (Option Text × StreamState) :=
  (l.thinkingGuard.push t).map fun (released, guard) =>
    (released,
      { l with
        thinkingGuard := guard
        textGuard :=
          if guard.publicationFrozen then l.textGuard.freezePublication else l.textGuard })

/-- An answer delta. At the first `<` of the answer, the reasoning buffered so far is the
reasoning in front of the possible control plane. -/
def pushText (l : StreamState) (t : Text) : Except DsmlError (Option Text × StreamState) :=
  (l.textGuard.push t).map fun (released, guard) =>
    (released,
      { l with
        textGuard := guard
        thinkingLenAtTextFirstLt :=
          if !l.textGuard.observedRawLt && guard.observedRawLt then
            some l.thinkingGuard.bufferedLen
          else l.thinkingLenAtTextFirstLt
        thinkingGuard :=
          if guard.publicationFrozen then l.thinkingGuard.freezePublication
          else l.thinkingGuard })

/-- Both fields of one provider delta: a `<` in either freezes both before either is released. -/
def pushDelta (l : StreamState) (thinking text : Text) :
    Except DsmlError (Option Text × Option Text × StreamState) :=
  let frozen := decide ('<' ∈ thinking) || decide ('<' ∈ text)
  let freeze := fun guard : IncrementalAssistantTextGuard =>
    if frozen then guard.freezePublication else guard
  match (freeze l.thinkingGuard).push thinking with
  | .error e => .error e
  | .ok (releasedThinking, thinkingGuard) =>
    match (freeze l.textGuard).push text with
    | .error e => .error e
    | .ok (releasedText, textGuard) =>
      .ok (releasedThinking, releasedText,
        { l with
          textGuard := textGuard
          thinkingGuard := thinkingGuard
          thinkingLenAtTextFirstLt :=
            if !l.textGuard.observedRawLt && textGuard.observedRawLt then
              some l.thinkingGuard.bufferedLen
            else l.thinkingLenAtTextFirstLt }.syncFrozen)

end StreamState

/-- A delta after the `Finish` event, or one that exceeds the turn, ends the run. -/
def admitDelta (l : StreamState) (added : ℕ) (afterFinish : Text) : Run σ Unit :=
  if l.sawFinish then failProtocol afterFinish
  else if maxAssistantTextBytes < l.bufferedLen + added then failProtocol DsmlError.tooLarge.toText
  else pure ()

def onThinking (l : StreamState) (t : Text) : Run σ StreamState := do
  admitDelta l (byteLen t) "provider emitted reasoning after the Finish event".toList
  match l.pushThinking t with
  | .error e => failProtocol e.toText
  | .ok (released, l) => do
    publishThinking released
    pure l

def onText (l : StreamState) (t : Text) : Run σ StreamState := do
  admitDelta l (byteLen t) "provider emitted assistant text after the Finish event".toList
  match l.pushText t with
  | .error e => failProtocol e.toText
  | .ok (released, l) => do
    publishText released
    pure l

def onAssistantDelta (l : StreamState) (thinking text : Text) : Run σ StreamState := do
  admitDelta l (byteLen thinking + byteLen text)
    "provider emitted an assistant delta after the Finish event".toList
  match l.pushDelta thinking text with
  | .error e => failProtocol e.toText
  | .ok (releasedThinking, releasedText, l) => do
    publishThinking releasedThinking
    publishText releasedText
    pure l

def invalidNativeProtocol (e : NativeToolProtocolError) : Text :=
  "provider emitted invalid native tool protocol: ".toList ++ e.toText

def onToolCallDelta (l : StreamState) (d : ToolCallDelta) : Run σ StreamState :=
  if l.sawFinish then
    failProtocol "provider emitted a tool-call delta after the Finish event".toList
  else
    match l.toolAcc.push d with
    | .error e => failProtocol (invalidNativeProtocol e)
    | .ok acc => pure { l with toolAcc := acc }

def onFinish (l : StreamState) (reason : Option Text) : Run σ StreamState :=
  if l.sawFinish then failProtocol "provider emitted more than one Finish event".toList
  else pure { l with sawFinish := true, finishReason := reason }

def onStreamEvent (l : StreamState) : StreamEvent → Run σ StreamState
  | .thinking t => onThinking l t
  | .text t => onText l t
  | .assistantDelta thinking text => onAssistantDelta l thinking text
  | .toolCallDelta d => onToolCallDelta l d
  | .usage u => do
    modify fun s => { s with progress := s.progress.recordUsage u }
    pure l
  | .finish reason => onFinish l reason

/-- The stream loop; receiver closure wins over the next event. -/
def consumeStream (l : StreamState) : List (Except Text StreamEvent) → Run σ StreamState
  | [] => do
    closedOrCancel
    pure l
  | .error e :: _ => do
    closedOrCancel
    fail e
  | .ok event :: events => do
    closedOrCancel
    let l ← onStreamEvent l event
    consumeStream l events

/-- The provider's answer after the canonical parse of both channels. -/
structure ParsedTurn where
  finalized : List ToolCall
  thinkingRemainder : Text
  textRemainder : Text
  bothChannelsPlain : Bool

/-- The reasoning bytes of the remainder that predate the first `<` of the answer. -/
def safeThinkingRemainder (l : StreamState) (remainder : Text) : Text :=
  match l.thinkingLenAtTextFirstLt with
  | none => []
  | some cutoff =>
    if l.thinkingGuard.releasedCursor ≤ cutoff then
      let length := cutoff - l.thinkingGuard.releasedCursor
      if decide (length ≤ byteLen remainder) && isCharBoundary length remainder then
        takeBytes length remainder
      else []
    else []

/-- Parse both complete channels and finalize the native calls. -/
def parseTurn (json : SerdeJson) (callIds : ℕ → Text) (l : StreamState) :
    Except Text ParsedTurn :=
  match l.thinkingGuard.finish json with
  | .error e => .error ("provider emitted invalid reasoning protocol: ".toList ++ e.toText)
  | .ok (.toolCalls _ _) =>
    .error "provider emitted textual DSML protocol in the reasoning channel".toList
  | .ok (.plain thinkingRemainder) =>
    match l.textGuard.finish json with
    | .error e => .error ("provider emitted invalid textual DSML protocol: ".toList ++ e.toText)
    | .ok (.plain textRemainder) =>
      match l.toolAcc.finalize with
      | .error e => .error (invalidNativeProtocol e)
      | .ok finalized => .ok ⟨finalized, thinkingRemainder, textRemainder, true⟩
    | .ok (.toolCalls visibleText calls) =>
      if !l.toolAcc.isEmpty then
        .error
          "provider emitted both native and textual DSML tool protocols in one turn".toList
      else
        match l.toolAcc.finalize with
        | .error e => .error (invalidNativeProtocol e)
        | .ok _ =>
          .ok
            { finalized := calls.zipIdx.map fun (call, i) =>
                ToolCall.ofFunction ("dsml-".toList ++ callIds i) call.name call.arguments
              thinkingRemainder := safeThinkingRemainder l thinkingRemainder
              textRemainder := visibleText
              bothChannelsPlain := false }

/-- Publish what the parse allows. -/
def flushTurn (turn : ParsedTurn) : Run σ Unit := do
  publishThinking (nonempty turn.thinkingRemainder)
  publishText (if turn.bothChannelsPlain then nonempty turn.textRemainder else none)

end

section
variable {σ : Type} (req : RunRequest σ) (setup : RunSetup) (iter : IterationSetup)

/-- From the end of the stream to the published turn. -/
def settleStream (l : StreamState) : Run σ ParsedTurn := do
  onlyIf (!l.sawFinish) (fail "provider stream ended before a Finish event".toList)
  closedOrCancel
  match parseTurn req.json (req.turns iter.n).callIds l with
  | .error message => failProtocol message
  | .ok turn => do
    onlyIf (iter.isUserFinal && !turn.finalized.isEmpty)
      (failInvalidatedCandidate assistantCapabilityViolation
        (userBudgetExhausted setup.iterationLimit
          (": final iteration attempted tool call(s) after tools were disabled: ".toList ++
            joinText ", ".toList (turn.finalized.map fun call => call.function.name))))
    closedOrCancel
    flushTurn turn
    pure turn

/-! The request of one iteration. -/

def toolDefs : List ToolDef := toLlmToolDefs req.tools req.planMode iter.planStepUpdatesAllowed

def toolSchemaTokens : ℕ :=
  (req.json.toText (.array ((toolDefs req iter).map ToolDef.toJson))).length / Compact.charsPerToken

/-- The view of the model: the run context, the projected history and the recalled memories. -/
def buildView (session : Session) : List ChatMessage :=
  req.microcompact (setup.runContext ++ Compact.projection session.messages session.compaction ++
    (req.memoryBlock.map harnessNotice).toList)

def viewTokens (session : Session) : ℕ :=
  Compact.saturatingAdd (Compact.estimateMessagesTokens (buildView req setup session))
    (toolSchemaTokens req iter)

def reservedRequestTokens : ℕ :=
  let reserved := Compact.saturatingAdd (Compact.estimateMessagesTokens setup.runContext)
    (toolSchemaTokens req iter)
  req.memoryBlock.elim reserved fun block =>
    Compact.saturatingAdd reserved (Compact.estimateMessageTokens (harnessNotice block))

/-- The session after the fold loop has used the given summarizer replies. -/
def compacted (summaries : List (Option Text)) (session : Session) : Session :=
  { session with
    compaction := (Compact.maybeCompactWithReservedTokens req.ratios session.messages
      req.contextWindow (reservedRequestTokens req setup iter) session.compaction summaries).2 }

/-- Fold history only when the free view is over its trigger. -/
def compactHistory : Run σ Unit := do
  let s ← get
  if Compact.isOverTrigger req.ratios (viewTokens req setup iter s.session) req.contextWindow then
    let turn := req.turns iter.n
    selectOrCancel fun s =>
      { s with
        session := compacted req setup iter (turn.summaries.take turn.summariesAtClose) s.session }
    modify fun s => { s with session := compacted req setup iter turn.summaries s.session }
  else pure ()

/-- Ask the provider, unless the view exceeds the hard wall. -/
def openStream : Run σ (List (Except Text StreamEvent)) := do
  let s ← get
  let tokens := viewTokens req setup iter s.session
  let wall := Compact.hardWallTokens req.ratios req.contextWindow
  onlyIf (wall < tokens)
    (fail ("上下文压缩后仍为 ".toList ++ natText tokens ++ " tokens，超过 ".toList ++
      natText wall ++ " tokens 硬墙；请缩短本轮输入或新建会话".toList))
  closedOrCancel
  let defs := toolDefs req iter
  let offered := !defs.isEmpty && !iter.isUserFinal
  let request : ChatRequest :=
    { model := req.model
      messages := buildView req setup s.session
      tools := if offered then some defs else none
      toolChoice := if offered then some "auto".toList else none }
  modify fun s => { s with requests := s.requests ++ [request] }
  match (req.turns iter.n).stream with
  | .error e => fail e
  | .ok events => pure events

/-! The gate of truncated answers. -/

def lengthFinish : Run σ Unit := do
  onlyIf iter.isUserFinal
    (fail (userBudgetExhausted setup.iterationLimit
      ": final response was truncated and cannot consume another agent iteration".toList))
  modify fun s => s.updateGates fun g => { g with lengthFinishCount := g.lengthFinishCount + 1 }
  let s ← get
  let n := s.session.gateState.lengthFinishCount
  if lengthFinishHardCap ≤ n then do
    modify fun s => { s with finalText := s.progress.published.text }
    completeWith
      { kind := .maxIters
        finalText := s.progress.published.text
        error := some "reached max_tokens continuation cap (5)".toList
        usage := s.progress.usage
        iterations := iter.n }
      .failed s.session.plan RunState.commitPublished
  else do
    modify RunState.commitPublished
    pushNotice (lengthFinishNotice n)

/-! The tool path. -/

/-- Count an unsuccessful planning iteration, and fail when the budget is used up. -/
def recordPlanDenial : Run σ Unit := do
  modify fun s => s.updateGates fun g => { g with planDenialCount := g.planDenialCount + 1 }
  let s ← get
  if planDenialCap < s.session.gateState.planDenialCount then
    fail "plan mode requires a plan (denial cap exceeded)".toList
  else if setup.iterationLimit ≤ iter.n then
    fail ("plan mode requires a plan before the iteration budget is exhausted (".toList ++
      natText setup.iterationLimit ++ ")".toList)
  else pure ()

def callView (call : ToolCall) : ToolCallView :=
  ⟨call.id, call.function.name, parseArguments req.json call.function.arguments⟩

def pendingCall (call : ToolCall) : PendingToolCall :=
  ⟨call.id, call.function.name, parseArguments req.json call.function.arguments⟩

/-- The results of a published batch: a rejection, or those of the router. -/
def batchResults (calls : List ToolCall) : Run σ (List ToolResult) :=
  match rejectedBatch req.tools req.planMode iter.planStepUpdatesAllowed calls with
  | some results => pure results
  | none => do
    let turn := req.turns iter.n
    let pending := calls.map (pendingCall req)
    modify fun s => { s with routed := s.routed ++ [pending] }
    selectOrCancel fun s => { s with ctx := turn.ctxAtClose }
    modifyGet fun s =>
      let (results, ctx) := executeToolCalls req.tools turn.tasks 0 s.ctx pending
      (results, { s with ctx := ctx })

/-- A generated plan supersedes a question of the same batch. -/
def supersedeAsk (calls : List ToolCall) (results : List ToolResult) : Run σ (List ToolResult) := do
  let s ← get
  let generatedPlan := succeededInBatch (· == "generate_plan".toList) calls results
  let askedUser := succeededInBatch (· == "ask_user".toList) calls results
  if req.planMode && generatedPlan && askedUser && s.ctx.plan.any (fun plan => !plan.approved) &&
      s.ctx.pendingAsk.isSome then do
    modify fun s => { s with ctx := { s.ctx with pendingAsk := none } }
    pure (supersedeAskResults calls results)
  else pure results

/-- Enter a batch and its results into the history, after the results were accepted. -/
def RunState.commitResults (calls : List ToolCall) (results : List ToolResult) (s : RunState σ) :
    RunState σ :=
  (results.map (resultMessage calls)).foldl RunState.push s.commitPublished

def checkpointState (s : RunState σ) : HistoryCheckpointState :=
  let awaitsApproval := req.planMode && s.session.plan.any fun plan => !plan.approved
  { frameId := s.session.frame.id
    parentFrameId := s.session.frame.parentFrameId
    rootFrameId := s.session.frame.rootFrameId
    agentName := s.session.frame.agentName
    taskSummary := s.session.frame.taskSummary
    plan := s.session.plan
    pendingAsk := s.ctx.pendingAsk
    status :=
      if awaitsApproval then "awaiting_plan_approval".toList
      else if s.ctx.pendingAsk.isSome then "awaiting_user_response".toList
      else "processing".toList
    awaiting :=
      if awaitsApproval then some "plan_approval".toList
      else if s.ctx.pendingAsk.isSome then some "user_response".toList
      else none }

/-- Hand the new messages to the checkpoint store, if there is one. -/
def checkpointHistory : Run σ (Except Text Unit) :=
  modifyGet fun s =>
    let messages := s.session.messages.drop s.historyCheckpointCursor
    match req.historyCheckpoint with
    | none => (.ok (), s)
    | some service =>
      if messages.isEmpty then (.ok (), s)
      else
        let (result, store) := service s.store messages (checkpointState req s)
        (result, { s with store := store })

/-- Make the committed batch durable. -/
def checkpointBatch : Run σ Unit := do
  match ← checkpointHistory req with
  | .error error => fail ("保存工具轨迹检查点失败：".toList ++ error)
  | .ok () =>
    modify fun s => { s with historyCheckpointCursor := s.session.messages.length }

def noteToolErrors (results : List ToolResult) : Run σ Unit := do
  let errors := (results.filter ToolResult.isError).length
  let s ← get
  let count := saturatingAddU32 s.toolErrorCount errors
  if 0 < errors then do
    modify fun s => { s with toolErrorCount := count }
    onlyIf (2 ≤ count) (pushNotice toolErrorRecoveryNotice)
  else pure ()

/-- Publish the plan that the batch changed; whether there was one to publish. -/
def publishPlanChange (planChanged : Bool) : Run σ Bool := do
  let s ← get
  match planChanged, s.session.plan with
  | true, some plan => do
    sendOrCancel (.planUpdate plan)
    pure true
  | _, _ => pure false

/-- An unapproved plan in plan mode ends the run awaiting its approval. -/
def awaitPlanApproval (planUpdatePublished : Bool) : Run σ Unit := do
  let s ← get
  match s.ctx.plan with
  | none => pure ()
  | some plan =>
    if req.planMode && !plan.approved then do
      modify fun s => { s with ctx := { s.ctx with pendingAsk := none } }
      onlyIf (!planUpdatePublished) (sendOrCancel (.planUpdate plan))
      completeWith
        { kind := .awaiting
          finalText := s.finalText
          awaiting := some "plan_approval".toList
          usage := s.progress.usage
          iterations := iter.n }
        .awaitingPlanApproval (some plan) id
    else pure ()

/-- A pending question ends the run awaiting its answer. -/
def awaitUserResponse : Run σ Unit := do
  let s ← get
  match s.ctx.pendingAsk with
  | none => pure ()
  | some ask => do
    modify fun s => { s with ctx := { s.ctx with pendingAsk := none } }
    completeWith
      { kind := .awaiting
        finalText := s.finalText
        awaiting := some "user_response".toList
        pendingAsk := some ask
        usage := s.progress.usage
        iterations := iter.n }
      .awaitingUserResponse s.session.plan id

def retrievalBreaker (calls : List ToolCall) : Run σ Unit := do
  let allRetrieval := calls.all fun call => isRetrievalTool call.function.name
  modify fun s => s.updateGates fun g =>
    { g with retrievalStreak := if allRetrieval then g.retrievalStreak + 1 else 0 }
  let s ← get
  if retrievalCircuitBreaker ≤ s.session.gateState.retrievalStreak then do
    pushNotice retrievalStreakNotice
    modify fun s => s.updateGates fun g => { g with retrievalStreak := 0 }
  else pure ()

/-- Only the complete batch crosses the delivery boundary, never a streamed fragment. -/
def publishCalls (calls : List ToolCall) : Run σ Unit := do
  sendOrCancel (.toolCalls (calls.map (callView req)))
  modify fun s => s.setPublished { s.progress.published with toolCalls := some calls }

/-- Publish the batch, obtain its results, publish them, and commit both. -/
def runBatch (calls : List ToolCall) : Run σ (List ToolResult) := do
  publishCalls req calls
  let results ← batchResults req iter calls
  let results ← supersedeAsk req calls results
  sendOrCancel (.toolResults results)
  modify (RunState.commitResults calls results)
  pure results

def toolPath (calls : List ToolCall) : Run σ Unit := do
  let s ← get
  let iterationText := s.progress.published.text
  let results ← runBatch req iter calls
  let planChanged := succeededInBatch isPlanMutationTool calls results
  modify fun s => if planChanged then s.setPlan s.ctx.plan else s
  checkpointBatch req
  noteToolErrors results
  let planUpdatePublished ← publishPlanChange planChanged
  modify fun s => if iterationText.isEmpty then s else { s with finalText := iterationText }
  awaitPlanApproval req iter planUpdatePublished
  awaitUserResponse iter
  let s ← get
  if req.planMode && s.ctx.plan.isNone then do
    recordPlanDenial setup iter
    pushNotice planDenialNotice
  else retrievalBreaker calls

/-! The natural completion. -/

/-- Publish a plan snapshot, if there is one. -/
def publishPlan (plan : Option PlanState) : Run σ Unit :=
  match plan with
  | none => pure ()
  | some plan => sendOrCancel (.planUpdate plan)

def emptyResponse : Run σ Unit := do
  modify fun s => s.updateGates fun g => { g with emptyRetryCount := g.emptyRetryCount + 1 }
  let s ← get
  let missingPlan := req.planMode && s.ctx.plan.isNone
  onlyIf (missingPlan) (recordPlanDenial setup iter)
  onlyIf (emptyRetryCap < s.session.gateState.emptyRetryCount)
    (fail "empty response retry cap exceeded (3)".toList)
  onlyIf iter.isUserFinal
    (fail (userBudgetExhausted setup.iterationLimit
      ": final iteration returned no answer".toList))
  modify RunState.commitPublished
  pushNotice (if missingPlan then planDenialNotice else emptyResponseNotice)

def denyMissingPlan : Run σ Unit := do
  recordPlanDenial setup iter
  modify RunState.commitPublished
  pushNotice planDenialNotice

/-- The approved plan was not finished: retry, or pause the run for an explicit retry. -/
def planIncomplete (currentPlan : Option PlanState) : Run σ Unit := do
  modify fun s => { s with planCompletionRetryCount := s.planCompletionRetryCount + 1 }
  onlyIf iter.isUserFinal
    (fail (userBudgetExhausted setup.iterationLimit
      (" with approved plan still incomplete:\n".toList ++ renderPlanStatus currentPlan)))
  hideDraft "plan_incomplete".toList
  let retryablePlan := (currentPlan.filter PlanState.approved).or setup.initialApprovedPlan
  let s ← get
  if s.planCompletionRetryCount ≤ planCompletionRetryCap then
    pushNotice (planIncompleteNotice retryablePlan)
  else do
    pushNotice planPausedNotice
    publishPlan retryablePlan
    completeWith
      { kind := .awaiting
        finalText := []
        awaiting := some "plan_execution".toList
        usage := s.progress.usage
        iterations := iter.n }
      .awaitingPlanExecution retryablePlan fun s => s.setPlan retryablePlan

/-- The requested artifact repair was not completed: remind once, then fail. -/
def repairIncomplete (guidance : Text) : Run σ Unit := do
  onlyIf iter.isUserFinal
    (fail (userBudgetExhausted setup.iterationLimit
      (" before reviewer-required artifact repair completed: ".toList ++ guidance)))
  let s ← get
  if s.artifactRepairReminders < artifactRepairReminderCap then do
    modify fun s => { s with artifactRepairReminders := s.artifactRepairReminders + 1 }
    hideDraft "reviewer_artifact_repair_required".toList
    pushNotice (artifactRepairNotice guidance)
  else
    fail ("reviewer-required artifact repair was not completed after the corrective reminder: ".toList
      ++ guidance)

/-- A veto of the reviewer: one corrective iteration, then the run fails. -/
def veto (verdict : Verdict) : Run σ Unit := do
  let findings := verdict.effectiveFindings
  let s ← get
  if s.session.gateState.vetoCount < vetoCap then do
    modify fun s => s.updateGates fun g => { g with vetoCount := g.vetoCount + 1 }
    onlyIf iter.isUserFinal
      (fail (userBudgetExhausted setup.iterationLimit
        (" before reviewer findings could be corrected: ".toList ++
          joinText "; ".toList findings)))
    modify fun s => { s with lastVetoFindings := findings }
    hideDraft "reviewer_veto".toList
    modify fun s =>
      if verdict.requiresToolAction then
        { s with
          artifactRepairTraceStart := some s.session.messages.length
          artifactRepairReminders := 0 }
      else s
    pushNotice (vetoNotice findings verdict.requiresToolAction)
  else
    fail ("reviewer verification still failed after ".toList ++ natText vetoCap ++
      " corrective attempt(s): ".toList ++ joinText "; ".toList findings)

/-- Deliver the natural completion; its acceptance is the commit point. -/
def completeNaturally : Run σ Unit := do
  closedOrCancel
  let s ← get
  publishPlan s.ctx.plan
  completeWith
    { kind := .natural
      finalText := s.finalText
      usage := s.progress.usage
      iterations := iter.n }
    .completed s.ctx.plan fun state => state.commitPublished.setPlan s.ctx.plan

/-- The terminal barrier: the verdict of the reviewer, and what follows from it. -/
def terminalBarrier : Run σ Unit := do
  closedOrCancel
  let s ← get
  match (req.turns iter.n).verdict with
  | some verdict =>
    if verdict.pass then completeNaturally iter else veto setup iter verdict
  | none =>
    if 0 < s.session.gateState.vetoCount then
      fail ("reviewer verification was unavailable after a prior veto; failing closed with unresolved findings: ".toList ++
        if s.lastVetoFindings.isEmpty then "the prior reviewer veto remains unresolved".toList
        else joinText "; ".toList s.lastVetoFindings)
    else completeNaturally iter

/-- The gates behind the plan: the answer becomes the final text, a requested repair has to be
complete, and the reviewer has to agree. -/
def reviewAnswer : Run σ Unit := do
  modify fun s => { s with finalText := s.progress.published.text }
  let s ← get
  match s.artifactRepairTraceStart with
  | none => terminalBarrier req setup iter
  | some traceStart =>
    let repair := artifactRepairProgress (s.session.messages.drop traceStart)
    if repair = .complete then terminalBarrier req setup iter
    else repairIncomplete setup iter (artifactRepairGuidance repair)

/-- An approved plan has to be finished before the answer is reviewed. -/
def finishPlan : Run σ Unit := do
  if setup.initialApprovedPlan.isSome then do
    closedOrCancel
    let s ← get
    if approvedPlanIsComplete s.ctx.plan then reviewAnswer req setup iter
    else planIncomplete setup iter s.ctx.plan
  else reviewAnswer req setup iter

def naturalPath : Run σ Unit := do
  let s ← get
  if (trim s.progress.published.text).isEmpty then emptyResponse req setup iter
  else do
    modify fun s => s.updateGates fun g => { g with emptyRetryCount := 0 }
    if req.planMode && s.ctx.plan.isNone then denyMissingPlan setup iter
    else finishPlan req setup iter

/-! The loop. -/

/-- What follows the stream of an iteration. -/
def decideTurn (l : StreamState) (turn : ParsedTurn) : Run σ Unit :=
  if l.finishReason = some "length".toList then lengthFinish setup iter
  else do
    modify fun s => s.updateGates fun g => { g with lengthFinishCount := 0 }
    if turn.finalized.isEmpty then naturalPath req setup iter
    else toolPath req setup iter turn.finalized

/-- Prepare the request of the iteration, and open the stream of its answer. -/
def askProvider : Run σ (List (Except Text StreamEvent)) := do
  onlyIf iter.isUserFinal (pushNotice (userFinalIterationNotice iter.n))
  compactHistory req setup iter
  openStream req setup iter

/-- Ask the provider, and consume its stream. -/
def streamTurn : Run σ StreamState := do
  let events ← askProvider req setup iter
  consumeStream {} events

end

section
variable {σ : Type} (req : RunRequest σ) (setup : RunSetup)

/-- Announce the next iteration. -/
def beginIteration : Run σ IterationSetup := do
  modify fun s => { s with progress := s.progress.beginIteration }
  let s ← get
  let n := s.progress.iterations
  sendOrCancel (.iteration n)
  let s ← get
  pure
    { n := n
      isUserFinal := setup.userIterationCapActive && n == setup.iterationLimit
      planStepUpdatesAllowed := hasUpdatableApprovedPlan s.ctx.plan }

/-- One iteration: it ends the run, or lets the loop go on. -/
def iteration : Run σ Unit := do
  let iter ← beginIteration setup
  let l ← streamTurn req setup iter
  let turn ← settleStream req setup iter l
  decideTurn req setup iter l turn

def iterationsExhausted : Run σ RunOutcome := do
  let s ← get
  completeWith
    { kind := .maxIters
      finalText := s.finalText
      error := some (if setup.userIterationCapActive then
          "reached user-specified agent iteration budget (".toList ++
            natText setup.iterationLimit ++ ")".toList
        else "reached max iterations (".toList ++ natText req.maxIterations ++ ")".toList)
      usage := s.progress.usage
      iterations := s.progress.iterations }
    .failed s.session.plan id

/-- The loop, with the iterations that are left of the limit. -/
def agentLoop : ℕ → Run σ RunOutcome
  | 0 => iterationsExhausted req setup
  | remaining + 1 => do
    iteration req setup
    agentLoop remaining

end

section
variable {σ : Type} (req : RunRequest σ)

/-- A fresh set of gate counters, and a frame for the new request. -/
def beginRun (session : Session) : Session :=
  { session with
    gateState := {}
    frame := session.frame.beginRun req.freshFrameId (truncateChars req.prompt 80) }

def runSetup (session : Session) (ctx : ToolContext) : RunSetup :=
  let runContext := harnessNotice scienceExecutionPolicy :: req.runContext
  let explicit := ((req.prompt :: runContext.filterMap ChatMessage.content).filterMap
    req.parseExplicitIterationLimit).min?
  let limit := effectiveIterationLimit explicit req.maxIterations
  { runContext := runContext
    runTraceStart := session.messages.length
    initialApprovedPlan := ctx.plan.filter PlanState.approved
    iterationLimit := limit.1
    userIterationCapActive := limit.2 }

/-- Announce the run. Unless the event is refused, the prompt enters the history. -/
def startRun (session : Session) (ctx : ToolContext) (tx : Channel) (store : σ) :
    Bool × RunState σ :=
  let session := beginRun req session
  let (accepted, tx) := tx.offer (.start session.frame.id session.frame.taskSummary)
  if accepted then
    (true,
      { session := { session with messages := session.messages ++ [ChatMessage.ofUser req.prompt] }
        ctx := ctx
        tx := tx
        store := store
        historyCheckpointCursor := session.messages.length })
  else
    (false, ({ session := session, ctx := ctx, tx := tx, store := store } : RunState σ).setStatus
      .cancelled)

/-- A whole run on a session. -/
def run (session : Session) (ctx : ToolContext) (tx : Channel) (store : σ) :
    RunOutcome × RunState σ :=
  let (accepted, s) := startRun req session ctx tx store
  if accepted then
    let setup := runSetup req session ctx
    match outcome (agentLoop req setup setup.iterationLimit) s with
    | (.ok result, s) => (result, s)
    | (.error result, s) => (result, s)
  else ({ kind := .cancelled, finalText := [], usage := {}, iterations := 0 }, s)

end
end DeepseekScience.Agent
