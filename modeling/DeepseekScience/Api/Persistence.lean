import DeepseekScience.Agent.PlanExecution
import DeepseekScience.Db.Recovery
import DeepseekScience.Memory.Consolidate

/-! One run of a session as the server stores it: the checkpoint worker, the terminal transaction,
the rollback of what did not commit, the event that the client is shown, and the evidence that is
attached to the memories of the run. -/
namespace DeepseekScience.Api

open Tools Agent Db Memory Transactions

/-- The JSON encoders of the rows. -/
structure RowSerde where
  message : ChatMessage → Except Text Text
  plan : PlanState → Text
  pendingAsk : PendingAsk → Text

def persistenceErrorMessage : Text :=
  "保存本轮会话失败，本轮结果未写入数据库。请重试；若问题持续，请重新打开该会话。".toList

/-- A session in memory, with the number of its messages that are in the database. -/
structure ActiveSession where
  session : Session
  persistedCount : ℕ

inductive RunPersistenceState where
  | pending | committed
  | failed (message : Text)
  deriving DecidableEq

/-- Only the first result of a run is recorded. -/
def RunPersistenceState.markCommitted : RunPersistenceState → RunPersistenceState
  | .pending => .committed
  | state => state

def RunPersistenceState.setError (message : Text) : RunPersistenceState → RunPersistenceState
  | .pending => .failed message
  | state => state

structure DurableSessionSnapshot where
  messagesLen : ℕ
  frameId : Text
  parentFrameId : Option Text
  rootFrameId : Option Text
  agentName : Text
  frameStatus : FrameStatus
  taskSummary : Text
  compaction : Compact.CompactionState
  gateState : GateState
  plan : Option PlanState

namespace DurableSessionSnapshot

def capture (session : Session) : DurableSessionSnapshot where
  messagesLen := session.messages.length
  frameId := session.frame.id
  parentFrameId := session.frame.parentFrameId
  rootFrameId := session.frame.rootFrameId
  agentName := session.frame.agentName
  frameStatus := session.frame.status
  taskSummary := session.frame.taskSummary
  compaction := session.compaction
  gateState := session.gateState
  plan := session.plan

def restore (snapshot : DurableSessionSnapshot) (session : Session) : Session :=
  { session with
    messages := session.messages.take snapshot.messagesLen
    frame :=
      { id := snapshot.frameId
        parentFrameId := snapshot.parentFrameId
        rootFrameId := snapshot.rootFrameId
        agentName := snapshot.agentName
        status := snapshot.frameStatus
        taskSummary := snapshot.taskSummary }
    compaction := snapshot.compaction
    gateState := snapshot.gateState
    plan := snapshot.plan }

end DurableSessionSnapshot

structure DurableToolCheckpointSnapshot where
  messagesLen : ℕ
  frameId : Text
  parentFrameId : Option Text
  rootFrameId : Option Text
  agentName : Text
  frameStatus : FrameStatus
  taskSummary : Text
  plan : Option PlanState

def DurableToolCheckpointSnapshot.restore (checkpoint : DurableToolCheckpointSnapshot)
    (session : Session) (runStart : DurableSessionSnapshot) : Session :=
  let messages :=
    if checkpoint.messagesLen ≤ session.messages.length then
      session.messages.take checkpoint.messagesLen
    else session.messages
  { runStart.restore session with
    messages := messages
    frame :=
      { id := checkpoint.frameId
        parentFrameId := checkpoint.parentFrameId
        rootFrameId := checkpoint.rootFrameId
        agentName := checkpoint.agentName
        status := checkpoint.frameStatus
        taskSummary := checkpoint.taskSummary }
    plan := checkpoint.plan }

def validatedPersistenceCursor (persistedCount : ℕ) (snapshot : DurableSessionSnapshot) :
    Except (ℕ × ℕ) ℕ :=
  if persistedCount = snapshot.messagesLen then .ok persistedCount
  else .error (persistedCount, snapshot.messagesLen)

/-! The relay of the terminal event. -/

def persistenceFailureMessage : RunPersistenceState → Option Text
  | .committed => none
  | .pending => some persistenceErrorMessage
  | .failed message => some message

/-- What the relay shows for a terminal event of the Runner, once the run is finished. `marked`
says that no cancellation was requested before. -/
def relayTerminal (marked : Bool) (state : RunPersistenceState) (event : AgentEvent) :
    Option AgentEvent :=
  if marked then
    some (match persistenceFailureMessage state with
      | some message => .error message
      | none => event)
  else none

/-- What the relay shows when the Runner went away without a terminal event. -/
def relayClosed (state : RunPersistenceState) : Option AgentEvent :=
  (persistenceFailureMessage state).map AgentEvent.error

def shouldExtractMemory (kind : CompleteKind) : Bool := decide (kind = .natural)

def completeKindName : CompleteKind → Text
  | .natural => "natural".toList
  | .awaiting => "awaiting".toList
  | .maxIters => "max_iters".toList
  | .error => "error".toList
  | .cancelled => "cancelled".toList

section
variable (serde : RowSerde)

def serializeMessage (m : ChatMessage) : Except Text PersistMessage := do
  let content ← serde.message m
  pure ⟨m.role.toText, content, m.harnessNotice⟩

def serializeMessages : List ChatMessage → Except Text (List PersistMessage)
  | [] => .ok []
  | m :: rest => do
    let first ← serializeMessage serde m
    let rest ← serializeMessages rest
    pure (first :: rest)

/-- Take the given messages as the durable session in memory. -/
def rollbackFailedRun (session : Session) (durableSnapshot : DurableSessionSnapshot)
    (persistedCount : ℕ) (durableCheckpoint : Option DurableToolCheckpointSnapshot) : Session :=
  if persistedCount ≤ durableSnapshot.messagesLen then durableSnapshot.restore session
  else
    match durableCheckpoint with
    | some checkpoint => checkpoint.restore session durableSnapshot
    | none => durableSnapshot.restore session

/-- What a run tells the checkpoint worker once. `failure` is how the attempt with a number fails
before it reaches the database, if it does. -/
structure CheckpointWorkerContext where
  sessionId : Text
  runId : Text
  planMode : Bool
  startedAt : Text
  now : Text
  failure : ℕ → Option DbError
  errorText : DbError → Text

/-- The checkpoint worker, with the database and the cursor that it shares with the run. -/
structure CheckpointWorker where
  db : SessionDb
  persistedCount : ℕ
  durableCheckpoint : Option DurableToolCheckpointSnapshot := none
  expectedCount : ℕ
  title : Option Text
  stopped : Bool := false
  attempts : ℕ := 0

def checkpointFrameStatus (status : Text) : FrameStatus :=
  if status = "awaiting_plan_approval".toList then .awaitingPlanApproval
  else if status = "awaiting_plan_execution".toList then .awaitingPlanExecution
  else if status = "awaiting_user_response".toList ∨ status = "awaiting".toList then
    .awaitingUserResponse
  else if status = "failed".toList then .failed
  else if status = "cancelled".toList ∨ status = "interrupted".toList then .cancelled
  else if status = "completed".toList then .completed
  else .processing

/-- A transaction that may fail for a reason of the connection. -/
def commit {α : Type} (failure : Option DbError) (tx : Except DbError (α × SessionDb)) :
    Except DbError (α × SessionDb) :=
  match failure with
  | some e => .error e
  | none => tx

def checkpointRequest (ctx : CheckpointWorkerContext) (w : CheckpointWorker)
    (state : HistoryCheckpointState) (messages : List PersistMessage) :
    PersistCheckpointRequest where
  runId := ctx.runId
  sessionId := ctx.sessionId
  frameId := state.frameId
  taskSummary := state.taskSummary
  planMode := ctx.planMode
  status := state.status
  awaiting := state.awaiting
  pendingAskJson := state.pendingAsk.map serde.pendingAsk
  planData := state.plan.map serde.plan
  title := w.title
  startedAt := ctx.startedAt
  expectedCount := w.expectedCount
  messages := messages

/-- One checkpoint. The worker stops at the first that fails. -/
def persistHistoryCheckpoint (ctx : CheckpointWorkerContext) (w : CheckpointWorker)
    (messages : List ChatMessage) (state : HistoryCheckpointState) :
    Except Text Unit × CheckpointWorker :=
  if w.stopped then (.error "history checkpoint worker stopped".toList, w)
  else
    match serializeMessages serde messages with
    | .error e => (.error e, { w with stopped := true })
    | .ok serialized =>
      match commit (ctx.failure w.attempts)
        (w.db.appendHistoryCheckpoint ctx.now (checkpointRequest serde ctx w state serialized)) with
      | .ok (nextCount, db) =>
        (.ok (),
          { w with
            db := db
            expectedCount := nextCount
            persistedCount := nextCount
            title := none
            attempts := w.attempts + 1
            durableCheckpoint := some
              { messagesLen := nextCount
                frameId := state.frameId
                parentFrameId := state.parentFrameId
                rootFrameId := state.rootFrameId
                agentName := state.agentName
                frameStatus := checkpointFrameStatus state.status
                taskSummary := state.taskSummary
                plan := state.plan } })
      | .error e => (.error (ctx.errorText e), { w with stopped := true, title := none })

/-- Everything that a request to run brings from outside: the request itself, the Runner's world,
and the failures of the connection to the database. -/
structure RunInput where
  runId : Text
  executePlan : Bool
  /-- The Runner's request; the server adds the checkpoint worker to it. -/
  request : RunRequest CheckpointWorker
  /-- No acceptance check apart from those of the plan and the database refuses the run. -/
  accepted : Bool := true
  llmConfigured : Bool := true
  memoryEnabled : Bool := true
  /-- The points that the receiver of the events outlives. -/
  openFor : Option ℕ := none
  now : Text := []
  clearPlanFailure : Option DbError := none
  setStatusFailure : Option DbError := none
  checkpointFailure : ℕ → Option DbError := fun _ => none
  persistFailure : Option DbError := none
  errorText : DbError → Text := fun _ => []

/-- The server, as far as one session is concerned. -/
structure ServerState where
  db : SessionDb
  active : ActiveSession

/-- How a run that was started ends. -/
structure RunReport where
  outcome : RunOutcome
  persistence : RunPersistenceState
  /-- The result of the terminal transaction, when it committed. -/
  persisted : Option PersistRunResult := none
  /-- The evidence that is attached to the memories of the run. -/
  evidence : Option EvidenceRef := none
  /-- What was sent to the relay. -/
  sent : List Delivery := []

/-- What the Runner leaves behind. -/
structure Executed where
  outcome : RunOutcome
  session : Session
  worker : CheckpointWorker
  sent : List Delivery

def llmNotConfigured : Text :=
  "LLM not configured: set DEEPSEEK_API_KEY env or settings.json llm.api_key".toList

/-- Without a client the prompt is recorded and the run fails. -/
def executeUnconfigured (input : RunInput) (session : Session) (worker : CheckpointWorker) :
    Executed :=
  let summary := truncateChars input.request.prompt 80
  let frame := session.frame.beginRun input.request.freshFrameId summary
  let (_, tx) := ({ openFor := input.openFor } : Channel).offer (.start frame.id summary)
  let frame := frame.setStatus .failed
  let (_, tx) := tx.offer (.complete .error [] none (some llmNotConfigured) {} 0 frame.status none
    none)
  { outcome :=
      { kind := .error, finalText := [], error := some llmNotConfigured, usage := {},
        iterations := 0 }
    session :=
      { session with
        frame := frame
        messages := session.messages ++ [ChatMessage.ofUser input.request.prompt] }
    worker := worker
    sent := tx.sent }

def workerContext (sessionId : Text) (input : RunInput) : CheckpointWorkerContext where
  sessionId := sessionId
  runId := input.runId
  planMode := input.request.planMode
  startedAt := input.now
  now := input.now
  failure := input.checkpointFailure
  errorText := input.errorText

def execute (sessionId : Text) (input : RunInput) (initialPlan : Option PlanState)
    (session : Session) (worker : CheckpointWorker) : Executed :=
  if input.llmConfigured then
    let service := persistHistoryCheckpoint serde (workerContext sessionId input)
    let result := run { input.request with historyCheckpoint := some service } session
      { plan := initialPlan } { openFor := input.openFor } worker
    ⟨result.1, result.2.session, result.2.store, result.2.tx.sent⟩
  else executeUnconfigured input session worker

def persistedStatus (kind : CompleteKind) (status : FrameStatus) : Text :=
  match kind with
  | .natural => "completed".toList
  | .awaiting =>
    match status with
    | .awaitingPlanApproval => "awaiting_plan_approval".toList
    | .awaitingPlanExecution => "awaiting_plan_execution".toList
    | _ => "awaiting_user_response".toList
  | .cancelled => "cancelled".toList
  | .error => "failed".toList
  | .maxIters => "failed".toList

/-- The first number that the checkpoints of the run have written, if there were any. -/
def checkpointStartSeq (prev persistedBefore : ℕ) : Option ℤ :=
  if persistedBefore < prev then some (persistedBefore + 1) else none

def persistRequest (sessionId : Text) (input : RunInput) (setInitialTitle : Bool)
    (persistedBefore : ℕ) (e : Executed) (messages : List PersistMessage) : PersistRunRequest where
  runId := input.runId
  sessionId := sessionId
  frameId := e.session.frame.id
  taskSummary := e.session.frame.taskSummary
  planMode := input.request.planMode
  status := persistedStatus e.outcome.kind e.session.frame.status
  kind := some (completeKindName e.outcome.kind)
  awaiting := e.outcome.awaiting
  pendingAskJson := e.outcome.pendingAsk.map serde.pendingAsk
  error := e.outcome.error
  inputTokens := e.outcome.usage.inputTokens
  outputTokens := e.outcome.usage.outputTokens
  iterations := e.outcome.iterations
  planData := e.session.plan.map serde.plan
  title := if setInitialTitle then some (input.request.prompt.take 60) else none
  startedAt := input.now
  checkpointStartSeq := checkpointStartSeq e.worker.persistedCount persistedBefore
  messages := messages

/-- The evidence of a run that completed naturally and was stored. -/
def evidenceOf (sessionId : Text) (input : RunInput) (persistedBefore runMessageStart : ℕ)
    (e : Executed) : Option EvidenceRef :=
  if shouldExtractMemory e.outcome.kind && input.memoryEnabled && input.llmConfigured then
    let msgsSnapshot := e.session.messages.drop (min runMessageStart e.session.messages.length)
    let seqLo :=
      max ((checkpointStartSeq e.worker.persistedCount persistedBefore).getD 1) 1
    some
      { sessionId := sessionId
        runId := some input.runId
        seqStart := seqLo
        seqEnd := seqLo + msgsSnapshot.length }
  else none

/-- The terminal transaction, with the messages behind the last checkpoint. -/
def terminalTransaction (sessionId : Text) (input : RunInput) (setInitialTitle : Bool)
    (persistedBefore : ℕ) (e : Executed) : Except DbError (PersistRunResult × SessionDb) :=
  match serializeMessages serde (e.session.messages.drop e.worker.persistedCount) with
  | .ok messages => commit input.persistFailure (e.worker.db.persistRun input.now
      (persistRequest serde sessionId input setInitialTitle persistedBefore e messages))
  | .error error => .error (.other error)

/-- Store a run that has ended, or take it back. -/
def finalizeRun (sessionId : Text) (input : RunInput) (setInitialTitle : Bool)
    (durableSnapshot : DurableSessionSnapshot) (persistedBefore runMessageStart : ℕ)
    (e : Executed) : RunReport × ServerState :=
  let prev := e.worker.persistedCount
  match terminalTransaction serde sessionId input setInitialTitle persistedBefore e with
  | .ok (result, db) =>
    ({ outcome := e.outcome
       persistence := RunPersistenceState.markCommitted .pending
       persisted := some result
       evidence := evidenceOf sessionId input persistedBefore runMessageStart e
       sent := e.sent },
      ⟨db, ⟨e.session, e.session.messages.length⟩⟩)
  | .error _ =>
    ({ outcome := e.outcome
       persistence := RunPersistenceState.setError persistenceErrorMessage .pending
       sent := e.sent },
      ⟨e.worker.db,
        ⟨rollbackFailedRun e.session durableSnapshot prev e.worker.durableCheckpoint, prev⟩⟩)

/-- The task of a run that was accepted. A drifted cursor refuses it. -/
def runTask (sessionId : Text) (input : RunInput) (initialPlan : Option PlanState)
    (setInitialTitle : Bool) (st : ServerState) : Option RunReport × ServerState :=
  let session := st.active.session
  let durableSnapshot := DurableSessionSnapshot.capture session
  match validatedPersistenceCursor st.active.persistedCount durableSnapshot with
  | .error _ => (none, st)
  | .ok persistedBefore =>
    let worker : CheckpointWorker :=
      { db := st.db
        persistedCount := st.active.persistedCount
        expectedCount := persistedBefore
        title := some (input.request.prompt.take 60) }
    let e := execute serde sessionId input initialPlan session worker
    let (report, st) := finalizeRun serde sessionId input setInitialTitle durableSnapshot
      persistedBefore session.messages.length e
    (some report, st)

/-- A new request supersedes an old plan, unless it executes it. -/
def clearsPlan (st : ServerState) (input : RunInput) : Bool :=
  !input.executePlan && st.active.session.plan.isSome

def clearPlan (sessionId : Text) (st : ServerState) (input : RunInput) : ServerState :=
  if clearsPlan st input then
    { st with
      db := st.db.setSessionPlan input.now sessionId none
      active.session.plan := none }
  else st

def markProcessing (sessionId : Text) (st : ServerState) (input : RunInput) : ServerState :=
  if input.executePlan then
    { st with
      db := st.db.setSessionStatus input.now sessionId "processing".toList
      active.session.frame := st.active.session.frame.setStatus .processing }
  else st

/-- `POST /api/sessions/{sid}/stream-sse`, from its acceptance to the end of its task. -/
def streamSse (sessionId : Text) (st : ServerState) (input : RunInput) :
    Option RunReport × ServerState :=
  let runId := trim input.runId
  if runId.isEmpty ∨ 128 < byteLen runId then (none, st)
  else
    match selectRunPlan st.active.session.plan input.request.planMode input.executePlan with
    | .error _ => (none, st)
    | .ok initialPlan =>
      if !input.accepted || (clearsPlan st input && input.clearPlanFailure.isSome) then (none, st)
      else
        let st := clearPlan sessionId st input
        if input.executePlan && input.setStatusFailure.isSome then (none, st)
        else
          let st := markProcessing sessionId st input
          let setInitialTitle :=
            (st.db.sessions.find sessionId).any fun row => row.title.isNone
          runTask serde sessionId { input with runId := runId } initialPlan setInitialTitle st

end
end DeepseekScience.Api
