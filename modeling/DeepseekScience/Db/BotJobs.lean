import Mathlib.Data.Char
import Mathlib.Data.List.Destutter
import Mathlib.Data.List.Lex
import Mathlib.Data.List.MinMax
import Mathlib.Data.List.Sort
import Mathlib.Data.Prod.Lex
import DeepseekScience.Db.Error
import DeepseekScience.Lib.Runs
import DeepseekScience.Lib.Table
import DeepseekScience.Text

/-! The durable queue of the bot jobs: its table, the transactions on it, and the requeueing of
running jobs when the server starts. -/
namespace DeepseekScience.Db

open Tables

inductive JobStatus where
  | queued | running | completed | failed
  deriving DecidableEq, Repr

/-- The place of a status in the listing, which leaves out completed jobs. -/
def JobStatus.rank : JobStatus → Option ℕ
  | .running => some 0
  | .queued => some 1
  | .failed => some 2
  | .completed => none

structure BotJobRow where
  id : Text
  botId : Text
  sessionId : Text
  prompt : Text
  requestedPlanMode : Bool
  priority : ℤ := 0
  position : ℤ
  revision : ℤ := 1
  status : JobStatus := .queued
  runId : Option Text := none
  lastError : Option Text := none
  createdAt : Text
  updatedAt : Text
  claimedAt : Option Text := none
  completedAt : Option Text := none
  deriving DecidableEq

namespace BotJobRow

/-! The assignments of the `UPDATE` statements. -/

def edited (now prompt : Text) (requestedPlanMode : Bool) (r : BotJobRow) : BotJobRow :=
  { r with
    prompt := prompt
    requestedPlanMode := requestedPlanMode
    revision := r.revision + 1
    updatedAt := now }

def placed (now : Text) (index : ℕ) (r : BotJobRow) : BotJobRow :=
  { r with position := index + 1, revision := r.revision + 1, updatedAt := now }

def claimed (now runId : Text) (r : BotJobRow) : BotJobRow :=
  { r with
    status := .running
    runId := some runId
    revision := r.revision + 1
    claimedAt := some now
    updatedAt := now }

def finished (now : Text) (succeeded : Bool) (error : Option Text) (r : BotJobRow) : BotJobRow :=
  { r with
    status := if succeeded then .completed else .failed
    lastError := error
    revision := r.revision + 1
    completedAt := some now
    updatedAt := now }

def requeued (now : Text) (r : BotJobRow) : BotJobRow :=
  { r with
    status := .queued
    runId := none
    claimedAt := none
    lastError := r.lastError.or (some "App restarted before this job completed".toList)
    revision := r.revision + 1
    updatedAt := now }

@[simp] theorem edited_id (now prompt : Text) (mode : Bool) (r : BotJobRow) :
    (r.edited now prompt mode).id = r.id := rfl

@[simp] theorem placed_id (now : Text) (index : ℕ) (r : BotJobRow) :
    (r.placed now index).id = r.id := rfl

@[simp] theorem claimed_id (now runId : Text) (r : BotJobRow) :
    (r.claimed now runId).id = r.id := rfl

@[simp] theorem finished_id (now : Text) (succeeded : Bool) (error : Option Text) (r : BotJobRow) :
    (r.finished now succeeded error).id = r.id := rfl

@[simp] theorem requeued_id (now : Text) (r : BotJobRow) : (r.requeued now).id = r.id := rfl

end BotJobRow

abbrev BotJobs := Table BotJobRow.id

/-- `ORDER BY priority DESC, position ASC, created_at ASC`. -/
def claimKey (r : BotJobRow) : ℤᵒᵈ ×ₗ (ℤ ×ₗ Text) :=
  toLex (OrderDual.toDual r.priority, toLex (r.position, r.createdAt))

/-- The sort key of the listing, which puts the running jobs first. -/
def listKey (r : BotJobRow) : ℕ ×ₗ (ℤᵒᵈ ×ₗ (ℤ ×ₗ Text)) :=
  toLex (r.status.rank.getD 0, claimKey r)

instance : DecidableRel fun a b : BotJobRow => listKey a ≤ listKey b :=
  fun a b => LinearOrder.toDecidableLE (listKey a) (listKey b)

/-- How SQLite picks the first row in claim order; between equal keys it may pick any. -/
structure FirstRow where
  pick : List BotJobRow → Option BotJobRow
  mem : ∀ {rows r}, pick rows = some r → r ∈ rows
  first : ∀ {rows r r'}, pick rows = some r → r' ∈ rows → ¬ claimKey r' < claimKey r
  some_of_mem : ∀ {rows r}, r ∈ rows → (pick rows).isSome = true

namespace BotJobs

variable (t : BotJobs)

def queuedIn (sessionId : Text) : List BotJobRow :=
  t.rows.filter fun r => decide (r.sessionId = sessionId ∧ r.status = .queued)

/-- `COALESCE(MAX(position), 0)` over the queued jobs of a session. -/
def maxPosition (sessionId : Text) : ℤ :=
  (((t.queuedIn sessionId).map BotJobRow.position).max?).getD 0

/-- The job behind a write, with the error for a job that is not there any more. -/
def getBotJob (id : Text) : Except DbError BotJobRow :=
  match t.find id with
  | some r => .ok r
  | none => .error (.notFound ("bot job ".toList ++ id))

/-- `belongs`: the session exists and has this bot. `freshId` is the generated id. -/
def enqueueBotJob (now freshId : Text) (belongs : Bool) (requestedId : Option Text)
    (botId sessionId prompt : Text) (requestedPlanMode : Bool) :
    Except DbError BotJobRow × BotJobs :=
  if belongs then
    let id := requestedId.getD freshId
    let row : BotJobRow :=
      { id := id
        botId := botId
        sessionId := sessionId
        prompt := prompt
        requestedPlanMode := requestedPlanMode
        position := t.maxPosition sessionId + 1
        createdAt := now
        updatedAt := now }
    match t.insert row with
    | none => (.error .sqlite, t)
    | some t' =>
      match t'.find id with
      | some r => (.ok r, t')
      | none => (.error (.other "just-created bot job missing".toList), t')
  else (.error (.conflict "job session must belong to the selected bot".toList), t)

def staleOrNotQueued (id : Text) : DbError :=
  .conflict ("bot job ".toList ++ id ++ " is stale or no longer queued".toList)

/-- The condition of a write that expects a revision of a queued job. -/
def isQueuedAt (id : Text) (expectedRevision : ℤ) (r : BotJobRow) : Bool :=
  decide (r.id = id ∧ r.revision = expectedRevision ∧ r.status = .queued)

def editBotJob (now id : Text) (expectedRevision : ℤ) (prompt : Text) (requestedPlanMode : Bool) :
    Except DbError BotJobRow × BotJobs :=
  let t' := t.update (isQueuedAt id expectedRevision)
    (BotJobRow.edited now prompt requestedPlanMode)
    (BotJobRow.edited_id now prompt requestedPlanMode)
  if t.count (isQueuedAt id expectedRevision) = 0 then (.error (staleOrNotQueued id), t')
  else (getBotJob t' id, t')

def isDeletableAt (id : Text) (expectedRevision : ℤ) (r : BotJobRow) : Bool :=
  decide (r.id = id ∧ r.revision = expectedRevision ∧ (r.status = .queued ∨ r.status = .failed))

def deleteBotJob (id : Text) (expectedRevision : ℤ) : Except DbError Unit × BotJobs :=
  let t' := t.delete (isDeletableAt id expectedRevision)
  if t.count (isDeletableAt id expectedRevision) = 0 then
    (.error (.conflict ("bot job ".toList ++ id ++ " is stale or cannot be deleted".toList)), t')
  else (.ok (), t')

/-- The position of one job in a reorder. -/
def setPosition (now sessionId : Text) (t : BotJobs) (entry : Text × ℕ) : BotJobs :=
  t.update (fun r => decide (r.id = entry.1 ∧ r.sessionId = sessionId ∧ r.status = .queued))
    (BotJobRow.placed now entry.2) (BotJobRow.placed_id now entry.2)

/-- Rows with equal sort keys are listed in table order; SQLite may list them in any order. -/
def listBotJobs (sessionId : Text) : List BotJobRow :=
  (t.rows.filter fun r => decide (r.sessionId = sessionId) && r.status.rank.isSome).insertionSort
    fun a b => listKey a ≤ listKey b

def reorderBotJobs (now sessionId : Text) (orderedIds : List Text) :
    Except DbError (List BotJobRow) × BotJobs :=
  let existing := ((t.queuedIn sessionId).map BotJobRow.id).insertionSort (· ≤ ·)
  let requested := (orderedIds.insertionSort (· ≤ ·)).destutter (· ≠ ·)
  if existing ≠ requested ∨ requested.length ≠ orderedIds.length then
    (.error (.conflict "reorder must contain every queued job exactly once".toList), t)
  else
    let t' := orderedIds.zipIdx.foldl (setPosition now sessionId) t
    (.ok (listBotJobs t' sessionId), t')

def claimNextBotJob (first : FirstRow) (now sessionId runId : Text) :
    Except DbError (Option BotJobRow) × BotJobs :=
  match first.pick (t.queuedIn sessionId) with
  | none => (.ok none, t)
  | some next =>
    let t' := t.update (fun r => decide (r.id = next.id ∧ r.status = .queued))
      (BotJobRow.claimed now runId) (BotJobRow.claimed_id now runId)
    (.ok (t'.find next.id), t')

def isOwnedBy (id runId : Text) (r : BotJobRow) : Bool :=
  decide (r.id = id ∧ r.runId = some runId ∧ r.status = .running)

def finishBotJob (now id runId : Text) (succeeded : Bool) (error : Option Text) :
    Except DbError BotJobRow × BotJobs :=
  let t' := t.update (isOwnedBy id runId) (BotJobRow.finished now succeeded error)
    (BotJobRow.finished_id now succeeded error)
  if t.count (isOwnedBy id runId) = 0 then
    (.error (.conflict ("bot job ".toList ++ id ++ " is not owned by run ".toList ++ runId)), t')
  else (getBotJob t' id, t')

def claimBotJob (now id : Text) (expectedRevision : ℤ) (runId : Text) :
    Except DbError BotJobRow × BotJobs :=
  let t' := t.update (isQueuedAt id expectedRevision) (BotJobRow.claimed now runId)
    (BotJobRow.claimed_id now runId)
  if t.count (isQueuedAt id expectedRevision) = 0 then (.error (staleOrNotQueued id), t')
  else (getBotJob t' id, t')

/-- The part of `apply_migrations` that requeues the jobs of a server that has stopped. -/
def requeueRunning (now : Text) : BotJobs :=
  t.update (fun r => decide (r.status = .running)) (BotJobRow.requeued now)
    (BotJobRow.requeued_id now)

end BotJobs

/-- The operations on the queue, with the times and generated ids that they use. -/
inductive JobOp where
  | enqueue (now freshId : Text) (belongs : Bool) (requestedId : Option Text)
      (botId sessionId prompt : Text) (requestedPlanMode : Bool)
  | edit (now id : Text) (expectedRevision : ℤ) (prompt : Text) (requestedPlanMode : Bool)
  | delete (id : Text) (expectedRevision : ℤ)
  | reorder (now sessionId : Text) (orderedIds : List Text)
  | claim (now id : Text) (expectedRevision : ℤ) (runId : Text)
  | claimNext (now sessionId runId : Text)
  | finish (now id runId : Text) (succeeded : Bool) (error : Option Text)
  | restart (now : Text)

/-- The table behind an operation. -/
def jobStep (first : FirstRow) (t : BotJobs) : JobOp → BotJobs
  | .enqueue now freshId belongs requestedId botId sessionId prompt mode =>
    (t.enqueueBotJob now freshId belongs requestedId botId sessionId prompt mode).2
  | .edit now id revision prompt mode => (t.editBotJob now id revision prompt mode).2
  | .delete id revision => (t.deleteBotJob id revision).2
  | .reorder now sessionId orderedIds => (t.reorderBotJobs now sessionId orderedIds).2
  | .claim now id revision runId => (t.claimBotJob now id revision runId).2
  | .claimNext now sessionId runId => (t.claimNextBotJob first now sessionId runId).2
  | .finish now id runId succeeded error => (t.finishBotJob now id runId succeeded error).2
  | .restart now => t.requeueRunning now

end DeepseekScience.Db
