import Mathlib.Data.Char
import Mathlib.Data.List.Lex
import Mathlib.Data.List.MinMax
import Mathlib.Data.List.Sort
import Mathlib.Data.Prod.Lex
import DeepseekScience.Db.Error
import DeepseekScience.Lib.Table
import DeepseekScience.Lib.Transaction
import DeepseekScience.Llm.Stream

/-! The durable transcript: sessions, their runs and their messages, the two transactions that a
run writes with, and the recovery when the server starts. A transaction that fails is rolled
back. -/
namespace DeepseekScience.Db

open Tables Transactions

structure SessionRow where
  id : Text
  title : Option Text
  planMode : Bool := false
  status : Text := "active".toList
  discoverable : Bool := true
  projectId : Option Text
  planData : Option Text := none
  updatedAt : Text
  deriving DecidableEq

structure RunRow where
  runId : Text
  sessionId : Text
  ordinal : ℤ
  frameId : Text
  taskSummary : Text
  planMode : Bool
  status : Text
  kind : Option Text := none
  awaiting : Option Text
  pendingAskJson : Option Text
  error : Option Text := none
  inputTokens : ℤ := 0
  outputTokens : ℤ := 0
  iterations : ℤ := 0
  planData : Option Text
  startSeq : Option ℤ
  endSeq : Option ℤ
  startedAt : Text
  completedAt : Option Text := none
  deriving DecidableEq

structure SessionMessageRow where
  id : ℤ
  sessionId : Text
  seq : ℤ
  runId : Option Text
  role : Text
  content : Text
  harnessNotice : Bool
  createdAt : Text
  deriving DecidableEq

structure ProjectRow where
  id : Text
  lastSessionId : Option Text := none
  updatedAt : Text
  deriving DecidableEq

structure PersistMessage where
  role : Text
  content : Text
  harnessNotice : Bool
  deriving DecidableEq

structure PersistRunRequest where
  runId : Text
  sessionId : Text
  frameId : Text
  taskSummary : Text
  planMode : Bool
  status : Text
  kind : Option Text
  awaiting : Option Text
  pendingAskJson : Option Text
  error : Option Text
  inputTokens : ℤ
  outputTokens : ℤ
  iterations : ℤ
  planData : Option Text
  title : Option Text
  startedAt : Text
  /-- The first number that the tool checkpoints of the run have written. -/
  checkpointStartSeq : Option ℤ
  messages : List PersistMessage

structure PersistCheckpointRequest where
  runId : Text
  sessionId : Text
  frameId : Text
  taskSummary : Text
  planMode : Bool
  status : Text
  awaiting : Option Text
  pendingAskJson : Option Text
  planData : Option Text
  title : Option Text
  startedAt : Text
  expectedCount : ℕ
  messages : List PersistMessage

structure PersistRunResult where
  messagesWritten : ℕ
  startSeq : Option ℤ
  endSeq : Option ℤ
  ordinal : ℤ
  deriving DecidableEq

namespace SessionRow

/-! The assignments of the `UPDATE` statements. -/

def persisted (now : Text) (title : Option Text) (planMode : Bool) (status : Text)
    (planData : Option Text) (r : SessionRow) : SessionRow :=
  { r with
    title := r.title.or title
    planMode := planMode
    status := status
    planData := planData
    updatedAt := now }

def withPlan (now : Text) (planData : Option Text) (r : SessionRow) : SessionRow :=
  { r with planData := planData, updatedAt := now }

def withStatus (now status : Text) (r : SessionRow) : SessionRow :=
  { r with status := status, updatedAt := now }

end SessionRow

namespace RunRow

def isTerminal (r : RunRow) : Bool := r.completedAt.isSome

/-- What a checkpoint writes into the row of its run. -/
def checkpointed (request : PersistCheckpointRequest) (startSeq endSeq : Option ℤ) (r : RunRow) :
    RunRow :=
  { r with
    frameId := request.frameId
    taskSummary := request.taskSummary
    planMode := request.planMode
    status := request.status
    awaiting := request.awaiting
    pendingAskJson := request.pendingAskJson
    planData := request.planData
    startSeq := r.startSeq.or startSeq
    endSeq := endSeq.or r.endSeq }

/-- What the terminal transaction writes into the row of its run. -/
def terminated (request : PersistRunRequest) (startSeq endSeq : Option ℤ) (completedAt : Text)
    (r : RunRow) : RunRow :=
  { r with
    frameId := request.frameId
    taskSummary := request.taskSummary
    planMode := request.planMode
    status := request.status
    kind := request.kind
    awaiting := request.awaiting
    pendingAskJson := request.pendingAskJson
    error := request.error
    inputTokens := request.inputTokens
    outputTokens := request.outputTokens
    iterations := request.iterations
    planData := request.planData
    startSeq := startSeq
    endSeq := endSeq
    startedAt := request.startedAt
    completedAt := some completedAt }

/-- A run that was being processed when the server went away. -/
def interrupted (now : Text) (r : RunRow) : RunRow :=
  { r with
    status := "interrupted".toList
    kind := some "cancelled".toList
    error := r.error.or (some "App exited before this run completed".toList)
    completedAt := some now }

/-- A run that had stopped for the user when the server went away. -/
def awaited (now : Text) (r : RunRow) : RunRow :=
  { r with kind := r.kind.or (some "awaiting".toList), completedAt := some now }

end RunRow

/-- `status LIKE 'awaiting%'`. -/
def likeAwaiting (status : Text) : Bool :=
  "awaiting".toList.isPrefixOf (status.map Char.toLower)

/-- The tables behind the sessions. `nextMessageId` is the counter of the message rows. -/
structure SessionDb where
  sessions : Table SessionRow.id
  runs : Table RunRow.runId
  messages : Table SessionMessageRow.id
  projects : Table ProjectRow.id
  nextMessageId : ℤ := 1

def i64Text (n : ℤ) : Text := (toString n).toList

/-- The `Debug` text of an optional number. -/
def optionText : Option ℤ → Text
  | none => "None".toList
  | some n => "Some(".toList ++ i64Text n ++ ")".toList

namespace SessionDb

variable (db : SessionDb)

def messagesOf (sessionId : Text) : List SessionMessageRow :=
  db.messages.rows.filter fun m => decide (m.sessionId = sessionId)

def runsOf (sessionId : Text) : List RunRow :=
  db.runs.rows.filter fun r => decide (r.sessionId = sessionId)

/-- `ORDER BY seq ASC`. -/
def listMessages (sessionId : Text) : List SessionMessageRow :=
  (db.messagesOf sessionId).insertionSort fun a b => a.seq ≤ b.seq

/-- `COALESCE(MAX(seq), 0)`. -/
def maxSeq (sessionId : Text) : ℤ := ((db.messagesOf sessionId).map (·.seq)).max?.getD 0

/-- `COALESCE(MAX(ordinal), 0) + 1`. -/
def nextOrdinal (sessionId : Text) : ℤ := ((db.runsOf sessionId).map (·.ordinal)).max?.getD 0 + 1

def getSessionPlan (sessionId : Text) : Option Text :=
  (db.sessions.find sessionId).bind SessionRow.planData

def requireSession (sessionId : Text) : Except DbError SessionRow :=
  match db.sessions.find sessionId with
  | some session => .ok session
  | none => .error (.notFound ("session ".toList ++ sessionId))

/-- A run belongs to a session, and its ordinal is new there. -/
def insertRun (r : RunRow) : Except DbError SessionDb :=
  if (db.sessions.find r.sessionId).isSome ∧ ∀ r' ∈ db.runsOf r.sessionId, r'.ordinal ≠ r.ordinal
  then
    match db.runs.insert r with
    | some runs => .ok { db with runs := runs }
    | none => .error .sqlite
  else .error .sqlite

def updateRun (runId : Text) (f : RunRow → RunRow) (hf : ∀ r, (f r).runId = r.runId) : SessionDb :=
  { db with runs := db.runs.update (fun r => decide (r.runId = runId)) f hf }

/-- A message belongs to a session and to a run, and its number is new in the session. -/
def insertMessage (now sessionId runId : Text) (seq : ℤ) (message : PersistMessage) :
    Except DbError SessionDb :=
  if (db.sessions.find sessionId).isSome ∧ (db.runs.find runId).isSome ∧
      ∀ m ∈ db.messagesOf sessionId, m.seq ≠ seq then
    match db.messages.insert
      { id := db.nextMessageId
        sessionId := sessionId
        seq := seq
        runId := some runId
        role := message.role
        content := message.content
        harnessNotice := message.harnessNotice
        createdAt := now } with
    | some messages => .ok { db with messages := messages, nextMessageId := db.nextMessageId + 1 }
    | none => .error .sqlite
  else .error .sqlite

/-- Number the messages behind `seq`. -/
def insertMessages (now sessionId runId : Text) :
    SessionDb → ℤ → List PersistMessage → Except DbError SessionDb
  | db, _, [] => .ok db
  | db, seq, message :: rest => do
    let db ← db.insertMessage now sessionId runId (seq + 1) message
    insertMessages now sessionId runId db (seq + 1) rest

/-- The final update of a transaction, which has to find its session. -/
def persistSession (now sessionId : Text) (title : Option Text) (planMode : Bool) (status : Text)
    (planData : Option Text) : Except DbError SessionDb := do
  ensure (db.sessions.count (fun r => decide (r.id = sessionId)) ≠ 0)
    (.notFound ("session ".toList ++ sessionId))
  pure { db with
    sessions := db.sessions.update (fun r => decide (r.id = sessionId))
      (SessionRow.persisted now title planMode status planData) fun _ => rfl }

/-- The row of the run that a checkpoint belongs to, behind the checks. -/
def checkpointRun (request : PersistCheckpointRequest) (maxSeq : ℤ) : Except DbError SessionDb :=
  let appendedStart := if request.messages.isEmpty then none else some (maxSeq + 1)
  let appendedEnd :=
    if request.messages.isEmpty then none else some (maxSeq + request.messages.length)
  match db.runs.find request.runId with
  | some run => do
    ensure (run.sessionId = request.sessionId) (.other
      ("checkpoint run ".toList ++ request.runId ++ " belongs to another session".toList))
    ensure (run.completedAt = none) (.other
      ("checkpoint run ".toList ++ request.runId ++ " is already terminal".toList))
    ensure (run.endSeq = some maxSeq) (.other
      ("checkpoint run cursor drift: expected end_seq=".toList ++ i64Text maxSeq ++
        ", found ".toList ++ optionText run.endSeq))
    pure (db.updateRun request.runId
      (RunRow.checkpointed request (run.startSeq.or appendedStart) appendedEnd) fun _ => rfl)
  | none =>
    db.insertRun
      { runId := request.runId
        sessionId := request.sessionId
        ordinal := db.nextOrdinal request.sessionId
        frameId := request.frameId
        taskSummary := request.taskSummary
        planMode := request.planMode
        status := request.status
        awaiting := request.awaiting
        pendingAskJson := request.pendingAskJson
        planData := request.planData
        startSeq := appendedStart
        endSeq := appendedEnd
        startedAt := request.startedAt }

/-- Append the messages of one delivered tool batch; the new number of messages. -/
def appendHistoryCheckpoint (now : Text) (request : PersistCheckpointRequest) :
    Except DbError (ℕ × SessionDb) := do
  let count := (db.messagesOf request.sessionId).length
  let maxSeq := db.maxSeq request.sessionId
  ensure (count = request.expectedCount ∧ maxSeq = request.expectedCount) (.other
    ("history checkpoint cursor drift: expected ".toList ++ natText request.expectedCount ++
      ", found count=".toList ++ natText count ++ ", max_seq=".toList ++ i64Text maxSeq))
  let db ← db.checkpointRun request maxSeq
  let db ← insertMessages now request.sessionId request.runId db maxSeq request.messages
  let db ← db.persistSession now request.sessionId request.title request.planMode request.status
    request.planData
  pure (request.expectedCount + request.messages.length, db)

/-- The ordinal of a run that ends: of its checkpoints, or a new one. -/
def terminalOrdinal (request : PersistRunRequest) : Except DbError ℤ :=
  match db.runs.find request.runId with
  | some run => do
    ensure (run.sessionId = request.sessionId) (.other
      ("run ".toList ++ request.runId ++ " belongs to another session".toList))
    ensure (run.completedAt = none) (.other
      ("run ".toList ++ request.runId ++ " is already terminal".toList))
    pure run.ordinal
  | none => pure (db.nextOrdinal request.sessionId)

/-- The checkpoints of a run agree with what the request says of them. -/
def ensureCheckpoint (request : PersistRunRequest) (previousSeq : ℤ) : Except DbError Unit :=
  match db.runs.find request.runId with
  | some run => do
    ensure (run.startSeq = request.checkpointStartSeq) (.other
      ("checkpoint start mismatch: request=".toList ++ optionText request.checkpointStartSeq ++
        ", stored=".toList ++ optionText run.startSeq))
    ensure (run.endSeq = some previousSeq) (.other
      ("checkpoint end mismatch: stored=".toList ++ optionText run.endSeq ++
        ", messages end=".toList ++ i64Text previousSeq))
  | none => pure ()

/-- Write the row of a run that ends. -/
def terminateRun (completedAt : Text) (request : PersistRunRequest) (ordinal : ℤ)
    (startSeq endSeq : Option ℤ) : Except DbError SessionDb :=
  match db.runs.find request.runId with
  | some _ => pure (db.updateRun request.runId
      (RunRow.terminated request startSeq endSeq completedAt) fun _ => rfl)
  | none =>
    db.insertRun
      { runId := request.runId
        sessionId := request.sessionId
        ordinal := ordinal
        frameId := request.frameId
        taskSummary := request.taskSummary
        planMode := request.planMode
        status := request.status
        kind := request.kind
        awaiting := request.awaiting
        pendingAskJson := request.pendingAskJson
        error := request.error
        inputTokens := request.inputTokens
        outputTokens := request.outputTokens
        iterations := request.iterations
        planData := request.planData
        startSeq := startSeq
        endSeq := endSeq
        startedAt := request.startedAt
        completedAt := some completedAt }

/-- The number of messages that the checkpoints have written, all of which the run has to own. -/
def checkpointMessages (request : PersistRunRequest) (previousSeq : ℤ) : Except DbError ℕ :=
  match request.checkpointStartSeq with
  | some start => do
    ensure (0 < start ∧ start ≤ previousSeq) (.other
      ("invalid checkpoint range ".toList ++ i64Text start ++ "..=".toList ++ i64Text previousSeq))
    let expected := previousSeq - start + 1
    let changed : ℤ := (db.messagesOf request.sessionId).countP fun m =>
      decide (start ≤ m.seq ∧ m.seq ≤ previousSeq ∧ m.runId = some request.runId)
    ensure (changed = expected) (.other
      ("checkpoint ownership mismatch: expected ".toList ++ i64Text expected ++
        " rows, attached ".toList ++ i64Text changed))
    pure expected.toNat
  | none => pure 0

def touchProject (now : Text) (session : SessionRow) : SessionDb :=
  match session.discoverable, session.projectId with
  | true, some projectId =>
    { db with
      projects := db.projects.update (fun p => decide (p.id = projectId))
        (fun p => { p with lastSessionId := some session.id, updatedAt := now }) fun _ => rfl }
  | _, _ => db

/-- Commit a run that ends, with every message that it has added since its last checkpoint. -/
def persistRun (completedAt : Text) (request : PersistRunRequest) :
    Except DbError (PersistRunResult × SessionDb) := do
  let session ← db.requireSession request.sessionId
  let ordinal ← db.terminalOrdinal request
  let previousSeq := db.maxSeq request.sessionId
  let existing := db.runs.find request.runId
  db.ensureCheckpoint request previousSeq
  let startSeq := ((existing.bind RunRow.startSeq).or request.checkpointStartSeq).or
    (if request.messages.isEmpty then none else some (previousSeq + 1))
  let endSeq :=
    if request.messages.isEmpty then
      (existing.bind RunRow.endSeq).or (request.checkpointStartSeq.map fun _ => previousSeq)
    else some (previousSeq + request.messages.length)
  let db ← db.terminateRun completedAt request ordinal startSeq endSeq
  let checkpointMessages ← db.checkpointMessages request previousSeq
  let db ← insertMessages completedAt request.sessionId request.runId db previousSeq
    request.messages
  let db ← db.persistSession completedAt request.sessionId request.title request.planMode
    request.status request.planData
  pure (⟨checkpointMessages + request.messages.length, startSeq, endSeq, ordinal⟩,
    db.touchProject completedAt session)

def setSessionPlan (now sessionId : Text) (planData : Option Text) : SessionDb :=
  { db with
    sessions := db.sessions.update (fun r => decide (r.id = sessionId))
      (SessionRow.withPlan now planData) fun _ => rfl }

def setSessionStatus (now sessionId status : Text) : SessionDb :=
  { db with
    sessions := db.sessions.update (fun r => decide (r.id = sessionId))
      (SessionRow.withStatus now status) fun _ => rfl }

/-! The recovery when the server starts. -/

/-- Sessions whose numbers are not one to the number of messages. -/
def invalidSessionCount : ℕ :=
  ((db.messages.rows.map (·.sessionId)).dedup).countP fun sessionId =>
    let seqs : List ℤ := (db.messagesOf sessionId).map (·.seq)
    decide (seqs.min?.getD 0 ≠ 1 ∨ seqs.max?.getD 0 ≠ (seqs.length : ℤ) ∨
      seqs.dedup.length ≠ seqs.length)

def setSeq (id seq : ℤ) : SessionDb :=
  { db with
    messages := db.messages.update (fun m => decide (m.id = id)) (fun m => { m with seq := seq })
      fun _ => rfl }

/-- The new numbers of messages in the order of their sessions. -/
def resequenced : Option Text → ℤ → List SessionMessageRow → List (ℤ × ℤ)
  | _, _, [] => []
  | current, nextSeq, m :: rest =>
    let seq := if current = some m.sessionId then nextSeq + 1 else 1
    (m.id, seq) :: resequenced (some m.sessionId) seq rest

def seqsOwnedBy (runId : Text) : List ℤ :=
  (db.messages.rows.filter fun m => decide (m.runId = some runId)).map (·.seq)

/-- Runs that own messages reach from the first to the last of them. -/
def respanRuns : SessionDb :=
  { db with
    runs := db.runs.update (fun r => decide (db.seqsOwnedBy r.runId ≠ []))
      (fun r =>
        { r with
          startSeq := (db.seqsOwnedBy r.runId).min?
          endSeq := (db.seqsOwnedBy r.runId).max? })
      fun _ => rfl }

def repairDuplicateMessageSequences : SessionDb :=
  if db.invalidSessionCount = 0 then db
  else
    let ordered := db.messages.rows.insertionSort fun a b =>
      toLex (a.sessionId, toLex (a.seq, a.id)) ≤ toLex (b.sessionId, toLex (b.seq, b.id))
    let db := ordered.foldl (fun db m => db.setSeq m.id (-m.id)) db
    ((resequenced none 0 ordered).foldl (fun db p => db.setSeq p.1 p.2) db).respanRuns

/-- No run is still being processed when the server starts. -/
def applyMigrations (now : Text) : SessionDb :=
  let sessions := db.sessions.update (fun r => decide (r.status = "processing".toList))
    (fun r => { r with status := "interrupted".toList }) fun _ => rfl
  let runs := db.runs.update
    (fun r => decide (r.completedAt = none ∧ r.status = "processing".toList))
    (RunRow.interrupted now) fun _ => rfl
  let runs := runs.update (fun r => decide (r.completedAt = none) && likeAwaiting r.status)
    (RunRow.awaited now) fun _ => rfl
  ({ db with sessions := sessions, runs := runs } : SessionDb).repairDuplicateMessageSequences

end SessionDb
end DeepseekScience.Db
