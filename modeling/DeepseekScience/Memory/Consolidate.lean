import DeepseekScience.Lib.Runs
import DeepseekScience.Memory.Store

/-! Consolidation: what is decided about an extracted memory, and the batch that writes the
extracted memories one by one after it has read the memories that there are. -/
namespace DeepseekScience.Memory

open Db Runs

inductive ClaimType where
  | fact | preference | decision | procedure | repo | note
  deriving DecidableEq, Repr

namespace ClaimType

def asStr : ClaimType → Text
  | .fact => "fact".toList
  | .preference => "preference".toList
  | .decision => "decision".toList
  | .procedure => "procedure".toList
  | .repo => "repo".toList
  | .note => "note".toList

def isHighRisk : ClaimType → Bool
  | .preference | .decision => true
  | _ => false

/-- Whatever is not a claim type is a note. -/
def parse (s : Text) : ClaimType :=
  let s := toAsciiLowercase (trim s)
  if s = "fact".toList then .fact
  else if s = "preference".toList then .preference
  else if s = "decision".toList then .decision
  else if s = "procedure".toList then .procedure
  else if s = "repo".toList then .repo
  else .note

end ClaimType

inductive MemoryStatus where
  | active | candidate | superseded | expired | deleted
  deriving DecidableEq, Repr

def MemoryStatus.asStr : MemoryStatus → Text
  | .active => activeStatus
  | .candidate => candidateStatus
  | .superseded => supersededStatus
  | .expired => "expired".toList
  | .deleted => deletedStatus

structure ExtractedMem where
  body : Text
  type : Option Text := none
  confidence : Option ℚ := none

namespace ExtractedMem

def claimType (em : ExtractedMem) : ClaimType :=
  match em.type with
  | some s => ClaimType.parse s
  | none => .note

def conf (em : ExtractedMem) : ℚ := max 0 (min (em.confidence.getD (1 / 2)) 1)

end ExtractedMem

structure EvidenceRef where
  sessionId : Text
  runId : Option Text
  seqStart : ℤ
  seqEnd : ℤ

def evidenceRefsJson (env : MemoryEnv) (refs : List EvidenceRef) : Text :=
  env.serde.toText (.array (refs.map fun r => .object
    [("session_id".toList, .string r.sessionId),
      ("run_id".toList, (r.runId.map Json.string).getD .null),
      ("seq_start".toList, .number (toString r.seqStart).toList),
      ("seq_end".toList, .number (toString r.seqEnd).toList)]))

structure Candidate where
  body : Text
  claimType : ClaimType
  confidence : ℚ
  scope : Option Text
  projectId : Option Text

inductive Decision where
  | duplicate (existingId : Text)
  | supersede (oldId : Text)
  | promote (status : MemoryStatus)
  deriving DecidableEq

structure ConsolidateConfig where
  autoPromoteThreshold : ℚ := 1 / 2
  dedupeSimilarity : ℚ := 85 / 100
  trustHighRiskApprove : Bool := true

variable (env : MemoryEnv)

/-- The active memory that is most similar to a body, when it is similar enough. -/
def similarActive (body : Text) (existing : List MemoryRow) (cfg : ConsolidateConfig) :
    Option MemoryRow :=
  let active := existing.filter MemoryRow.isActive
  match bm25Recall env.unicode env.floats active body with
  | [] => none
  | (best, score) :: _ =>
    let self := selfScore env.unicode env.floats body
    let sim := if 0 < self then env.floats.round (score / self) else 0
    if cfg.dedupeSimilarity ≤ sim then some best else none

/-- `decide`. -/
def decideCandidate (candidate : Candidate) (existing : List MemoryRow)
    (cfg : ConsolidateConfig) : Decision :=
  let hash := memoryHash env candidate.body
  match existing.find? fun m => decide (m.sourceHash = some hash) && m.isLive with
  | some m => .duplicate m.id
  | none =>
    if cfg.trustHighRiskApprove && candidate.claimType.isHighRisk then .promote .candidate
    else
      match similarActive env candidate.body existing cfg with
      | some best => .supersede best.id
      | none =>
        if cfg.autoPromoteThreshold ≤ candidate.confidence then .promote .active
        else .promote .candidate

structure ConsolidateStats where
  promotedActive : ℕ := 0
  promotedCandidate : ℕ := 0
  superseded : ℕ := 0
  duplicates : ℕ := 0
  errors : ℕ := 0
  deriving DecidableEq

/-- An extracted memory, with the times and generated ids that its writes use. -/
structure Extraction where
  mem : ExtractedMem
  now : Text
  id : Text
  created : Audit
  replaced : Audit

/-- What stays the same for all items of a batch. `existing` is read once, at its beginning. -/
structure Batch where
  projectId : Option Text
  evidence : Option Text
  cfg : ConsolidateConfig
  existing : List MemoryRow

namespace Batch

variable (batch : Batch)

def scope : Text := if batch.projectId.isSome then "project".toList else profileScope

def candidate (em : ExtractedMem) : Candidate :=
  { body := em.body
    claimType := em.claimType
    confidence := em.conf
    scope := some batch.scope
    projectId := batch.projectId }

def decision (em : ExtractedMem) : Decision :=
  decideCandidate env (batch.candidate em) batch.existing batch.cfg

def newMemory (id : Text) (em : ExtractedMem) (status : Text) : NewMemory :=
  { id := id
    body := em.body
    scope := some batch.scope
    projectId := batch.projectId
    confidence := some em.conf
    claimType := some em.claimType.asStr
    status := some status
    origin := some "auto".toList
    evidenceRefs := batch.evidence
    sourceHash := some (memoryHash env em.body) }

/-- The status that the successor of a memory gets. -/
def successorStatus (em : ExtractedMem) : Text :=
  if em.claimType.isHighRisk && batch.cfg.trustHighRiskApprove then candidateStatus
  else activeStatus

/-- The status that an item is written with. -/
def itemStatus (em : ExtractedMem) : Text :=
  match batch.decision env em with
  | .duplicate _ => activeStatus
  | .supersede _ => batch.successorStatus em
  | .promote status => status.asStr

/-- One turn of the loop over the extracted memories. -/
def promoteItem (acc : MemoryStore × ConsolidateStats) (item : Extraction) :
    MemoryStore × ConsolidateStats :=
  let (s, stats) := acc
  match batch.decision env item.mem with
  | .duplicate _ => (s, { stats with duplicates := stats.duplicates + 1 })
  | .supersede oldId =>
    let status := batch.successorStatus item.mem
    match s.appendFull item.now item.created (batch.newMemory env item.id item.mem status) with
    | (.error _, s') => (s', { stats with errors := stats.errors + 1 })
    | (.ok row, s') =>
      match s'.supersede env item.now item.replaced oldId row.id with
      | (.error _, s'') => (s'', { stats with errors := stats.errors + 1 })
      | (.ok (), s'') =>
        let stats := { stats with superseded := stats.superseded + 1 }
        if status = candidateStatus then
          (s'', { stats with promotedCandidate := stats.promotedCandidate + 1 })
        else (s'', { stats with promotedActive := stats.promotedActive + 1 })
  | .promote status =>
    match s.appendFull item.now item.created
        (batch.newMemory env item.id item.mem status.asStr) with
    | (.error _, s') => (s', { stats with errors := stats.errors + 1 })
    | (.ok _, s') =>
      if status = .active then (s', { stats with promotedActive := stats.promotedActive + 1 })
      else (s', { stats with promotedCandidate := stats.promotedCandidate + 1 })

end Batch

/-- The arguments of a call of `promote_candidates`. -/
structure PromoteArgs where
  extracted : List Extraction
  projectId : Option Text
  evidence : List EvidenceRef
  cfg : ConsolidateConfig

/-- A project that does not exist falls back to the profile. -/
def resolveProject (s : MemoryStore) (projectId : Option Text) : Option Text :=
  match projectId with
  | some pid => if pid.isEmpty || s.db.getProject pid then projectId else none
  | none => none

/-- What is read before the loop. -/
def loadBatch (s : MemoryStore) (args : PromoteArgs) : Batch :=
  let projectId := resolveProject s args.projectId
  { projectId := projectId
    evidence := if args.evidence.isEmpty then none else some (evidenceRefsJson env args.evidence)
    cfg := args.cfg
    existing :=
      (s.db.listMemoriesFiltered env.listing projectId none none).filter MemoryRow.isLive }

def promoteCandidates (s : MemoryStore) (args : PromoteArgs) : MemoryStore × ConsolidateStats :=
  if args.extracted.isEmpty then (s, {})
  else args.extracted.foldl ((loadBatch env s args).promoteItem env) (s, {})

end DeepseekScience.Memory
