import DeepseekScience.Json
import DeepseekScience.Memory.Bm25

/-! The store of the memories: every write records an audit event and drops the index, and
recall builds the index when there is none. -/
namespace DeepseekScience.Memory

open Db

/-- What the store takes from packages and from SQLite's freedom to order rows. -/
structure MemoryEnv where
  unicode : Unicode
  floats : Floats
  listing : ListingOrder
  sha256 : Text → List UInt8
  serde : SerdeJson

/-- ASCII texts, exact sums and products, one value of the logarithm, and the digests of three
texts as far as they are used. -/
def asciiEnv : MemoryEnv where
  unicode := ⟨Char.isAlphanum, toAsciiLowercase⟩
  floats := ⟨id, fun x => if x = 4 / 3 then 28768207245178085 / 100000000000000000 else x - 1⟩
  listing := stableListing
  sha256 text :=
    if text = "rust".toList then [82, 31, 229, 201, 236, 225, 170, 31]
    else if text = "go".toList then [76, 208, 226, 26, 154, 7, 149, 161]
    else if text = "rust!".toList then [78, 23, 74, 98, 253, 24, 180, 111]
    else []
  serde := ⟨fun _ => none, fun _ => []⟩

/-- The id that is generated for an audit event, and the time at which it is written. -/
structure Audit where
  id : Text
  now : Text

/-! Fingerprints. -/

/-- Lower case, and one space for each run of spaces, line ends and tabs. -/
def normalizeFrom : Text → Bool → Text
  | [], _ => []
  | c :: body, prevSpace =>
    if c ∈ ['\n', '\r', '\t', ' '] then
      if prevSpace then normalizeFrom body true else ' ' :: normalizeFrom body true
    else c.toLower :: normalizeFrom body false

def hexByte (byte : UInt8) : Text :=
  [(byte.toNat / 16).digitChar, (byte.toNat % 16).digitChar]

def memoryHash (env : MemoryEnv) (body : Text) : Text :=
  ((env.sha256 (trim (normalizeFrom body false))).take 8).flatMap hexByte

structure MemoryStore where
  db : MemoryDb
  index : Option RecallIndex

namespace MemoryStore

variable (env : MemoryEnv) (s : MemoryStore)

def invalidateIndex : MemoryStore := { s with index := none }

def recordEvent (audit : Audit) (memoryId eventType : Text) (actor detail : Option Text) :
    Except DbError Unit × MemoryStore :=
  let (result, db) := s.db.appendMemoryEvent
    { id := audit.id
      memoryId := memoryId
      eventType := eventType
      actor := actor
      detail := detail
      createdAt := audit.now }
  (result, { s with db := db })

/-- A write, its audit event, and the invalidation of the index: whichever of the first two fails
ends the call. -/
def audited {α : Type} (write : Except DbError α × MemoryDb) (audit : Audit)
    (memoryId eventType : Text) (actor detail : Option Text) :
    Except DbError α × MemoryStore :=
  let s' := { s with db := write.2 }
  match write.1 with
  | .error e => (.error e, s')
  | .ok value =>
    match s'.recordEvent audit memoryId eventType actor detail with
    | (.error e, s'') => (.error e, s'')
    | (.ok (), s'') => (.ok value, s''.invalidateIndex)

def appendFull (now : Text) (audit : Audit) (m : NewMemory) :
    Except DbError MemoryRow × MemoryStore :=
  s.audited (s.db.appendMemoryFull now m) audit m.id "created".toList none none

/-- `freshId` is the generated id. -/
def append (now freshId : Text) (audit : Audit) (body : Text) (scope projectId : Option Text) :
    Except DbError MemoryRow × MemoryStore :=
  s.appendFull now audit
    { id := freshId
      body := body
      scope := scope
      projectId := projectId
      status := some activeStatus
      origin := some "auto".toList
      sourceHash := some (memoryHash env body) }

def softDelete (now : Text) (audit : Audit) (id : Text) : Except DbError Unit × MemoryStore :=
  s.audited (s.db.softDeleteMemory now id) audit id deletedStatus (some "user".toList) none

/-- The hard delete drops the index even when it fails. -/
def delete (id : Text) : Except DbError Unit × MemoryStore :=
  let (result, db) := s.db.deleteMemory id
  (result, { s with db := db }.invalidateIndex)

def supersede (now : Text) (audit : Audit) (oldId newId : Text) :
    Except DbError Unit × MemoryStore :=
  s.audited (s.db.supersedeMemory now oldId newId) audit oldId supersededStatus
    (some "system".toList)
    (some (env.serde.toText (.object [("by".toList, .string newId)])))

def statusEvent (status : Text) : Text :=
  if status = activeStatus then "approved".toList
  else if status = deletedStatus then "rejected".toList
  else status

def updateStatus (now : Text) (audit : Audit) (id status : Text) (actor : Option Text) :
    Except DbError Unit × MemoryStore :=
  s.audited (s.db.updateMemoryStatus now id status) audit id (statusEvent status) actor none

def editBody (now : Text) (audit : Audit) (id body : Text) (actor : Option Text) :
    Except DbError Unit × MemoryStore :=
  let hash := memoryHash env body
  s.audited (s.db.updateMemoryBody now id body (some hash)) audit id "edited".toList actor
    (some (env.serde.toText (.object [("new_hash".toList, .string hash)])))

/-- The rows that an index for a project is built from. -/
def indexedRows (projectId : Option Text) : List MemoryRow :=
  (s.db.candidateMemories env.listing projectId).filter MemoryRow.isActive

/-- The index that is there, or else a new one, which is kept. -/
def loadIndex (order : HashOrder) (projectId : Option Text) : RecallIndex × MemoryStore :=
  match s.index with
  | some index => (index, s)
  | none =>
    let index := RecallIndex.build env.unicode env.floats order (s.indexedRows env projectId)
    (index, { s with index := some index })

def recallIndexed (order : HashOrder) (query : Text) (projectId : Option Text) (topN : ℕ) :
    List (Text × ℚ) × MemoryStore :=
  let (index, s') := s.loadIndex env order projectId
  (index.search env.unicode env.floats query topN, s')

def touchSurfaced (now : Text) (ids : List Text) : MemoryStore :=
  if ids.isEmpty then s else { s with db := s.db.touchSurfaced now ids }

variable {env s} {α : Type} {write : Except DbError α × MemoryDb} {audit : Audit}
  {memoryId eventType : Text} {actor detail : Option Text}

/-- How an audited write ends: rejected, recorded, or with the write left behind without its event,
which takes an id that another event has. -/
theorem audited_cases (audit : Audit) (eventType : Text) (actor detail : Option Text)
    (hw : s.db.Writes memoryId write) :
    (∃ e, write.1 = .error e ∧
      s.audited write audit memoryId eventType actor detail = (.error e, s)) ∨
    (∃ value events, write.1 = .ok value ∧ write.2.events.insert
        ⟨audit.id, memoryId, eventType, actor, detail, audit.now⟩ = some events ∧
      s.audited write audit memoryId eventType actor detail =
        (.ok value, ⟨{ write.2 with events := events }, none⟩)) ∨
    (∃ value e, write.1 = .ok value ∧ s.db.events.find audit.id ≠ none ∧
      s.audited write audit memoryId eventType actor detail =
        (.error e, { s with db := write.2 })) := by
  obtain ⟨result, db⟩ := write
  cases result with
  | error e =>
    refine Or.inl ⟨e, rfl, ?_⟩
    obtain rfl : db = s.db := hw.unchanged e rfl
    rfl
  | ok value =>
    have hfound := hw.found value rfl
    have hevents : db.events = s.db.events := hw.events
    refine Or.inr ?_
    by_cases hfresh : s.db.events.find audit.id = none
    · rw [← hevents] at hfresh
      obtain ⟨events, hinsert, hok⟩ := MemoryDb.appendMemoryEvent_ok
        (e := ⟨audit.id, memoryId, eventType, actor, detail, audit.now⟩) hfound hfresh
      refine Or.inl ⟨value, events, rfl, hinsert, ?_⟩
      simp only [audited, recordEvent, hok, invalidateIndex]
    · have hid : db.events.find audit.id ≠ none := hevents ▸ hfresh
      have htaken := MemoryDb.appendMemoryEvent_taken
        (e := ⟨audit.id, memoryId, eventType, actor, detail, audit.now⟩) hid
      refine Or.inr ⟨value, .sqlite, rfl, hfresh, ?_⟩
      simp only [audited, recordEvent, htaken]

theorem audited_memories :
    (s.audited write audit memoryId eventType actor detail).2.db.memories =
      write.2.memories := by
  unfold audited recordEvent
  obtain ⟨result, db⟩ := write
  cases result with
  | error e => rfl
  | ok value =>
    dsimp only
    have hmemories := MemoryDb.appendMemoryEvent_memories db
      ⟨audit.id, memoryId, eventType, actor, detail, audit.now⟩
    split
    · next e s'' hs =>
      rw [← (Prod.mk.inj hs).2]
      exact hmemories
    · next s'' hs =>
      rw [← (Prod.mk.inj hs).2]
      exact hmemories

/-- How an append ends: rejected, recorded, or with the row left behind without its event. -/
theorem appendFull_cases (s : MemoryStore) (now : Text) (audit : Audit) (m : NewMemory) :
    ((s.db.referencesProject m.projectId = false ∨ s.db.memories.insert (m.row now) = none) ∧
      ∃ e, s.appendFull now audit m = (.error e, s)) ∨
    ∃ memories, (s.db.referencesProject m.projectId = true ∧
        s.db.memories.insert (m.row now) = some memories) ∧
      ((∃ event events, event.id = audit.id ∧ s.db.events.insert event = some events ∧
        s.appendFull now audit m =
          (.ok (m.row now), ⟨{ s.db with memories := memories, events := events }, none⟩)) ∨
      (s.db.events.find audit.id ≠ none ∧ ∃ e, s.appendFull now audit m =
        (.error e, { s with db := { s.db with memories := memories } }))) := by
  have hw : s.db.Writes m.id (s.db.appendMemoryFull now m) :=
    MemoryDb.writes_appendMemoryFull now m
  have hcases := audited_cases audit "created".toList none none hw
  rcases hcases with ⟨e, he, hs⟩ | ⟨row, events, hok, hevents, hs⟩ | ⟨row, e, hok, htaken, hs⟩
  · rcases MemoryDb.appendMemoryFull_cases s.db now m with ⟨hrejected, -⟩ | ⟨memories, -, hw⟩
    · exact Or.inl ⟨hrejected, e, hs⟩
    · rw [hw] at he
      exact absurd he (by simp)
  all_goals
    rcases MemoryDb.appendMemoryFull_cases s.db now m with ⟨-, hw⟩ | ⟨memories, hinsert, hw⟩
    · rw [hw] at hok
      exact absurd hok (by simp)
    rw [hw] at hok
    obtain rfl := Except.ok.inj hok
    refine Or.inr ⟨memories, hinsert, ?_⟩
  · refine Or.inl ⟨_, events, rfl, (hw ▸ hevents), ?_⟩
    unfold appendFull
    rw [hs, hw]
  · refine Or.inr ⟨htaken, e, ?_⟩
    unfold appendFull
    rw [hs, hw]

theorem supersede_cases (env : MemoryEnv) (s : MemoryStore) (now : Text) (audit : Audit)
    (oldId newId : Text) :
    (s.db.memories.count (MemoryRow.isLiveAt oldId) = 0 ∧
      ∃ e, s.supersede env now audit oldId newId = (.error e, s)) ∨
    (s.db.memories.count (MemoryRow.isLiveAt oldId) ≠ 0 ∧
      (s.supersede env now audit oldId newId).2.db.memories =
        s.db.memories.update (MemoryRow.isLiveAt oldId) (MemoryRow.superseded now newId)
          (MemoryRow.superseded_id now newId) ∧
      (s.supersede env now audit oldId newId).2.db.projects = s.db.projects ∧
      ((s.supersede env now audit oldId newId).1 = .ok () ∨
        s.db.events.find audit.id ≠ none)) := by
  have hw := MemoryDb.updateMemory_cases s.db (p := MemoryRow.isLiveAt oldId)
    (MemoryRow.superseded_id now newId) ("active/candidate memory ".toList ++ oldId)
  have hwrites : s.db.Writes oldId (s.db.supersedeMemory now oldId newId) :=
    MemoryDb.writes_supersedeMemory
  have hcases := audited_cases audit supersededStatus (some "system".toList)
    (some (env.serde.toText (.object [("by".toList, .string newId)]))) hwrites
  unfold supersede
  rcases hw with ⟨hcount, hw⟩ | ⟨hcount, hw⟩
  · refine Or.inl ⟨hcount, ?_⟩
    rcases hcases with ⟨e, -, hs⟩ | ⟨value, events, hok, -⟩ | ⟨value, e, hok, -⟩
    · exact ⟨e, hs⟩
    all_goals
      unfold MemoryDb.supersedeMemory at hok
      rw [hw] at hok
      exact absurd hok (by simp)
  · refine Or.inr ⟨hcount, ?_⟩
    have hdb : (s.db.supersedeMemory now oldId newId).2.memories =
        s.db.memories.update (MemoryRow.isLiveAt oldId) (MemoryRow.superseded now newId)
          (MemoryRow.superseded_id now newId) := by
      unfold MemoryDb.supersedeMemory
      rw [hw]
    rcases hcases with ⟨e, he, -⟩ | ⟨value, events, -, -, hs⟩ | ⟨value, e, -, htaken, hs⟩
    · unfold MemoryDb.supersedeMemory at he
      rw [hw] at he
      exact absurd he (by simp)
    · rw [hs]
      exact ⟨hdb, hwrites.projects, Or.inl rfl⟩
    · rw [hs]
      exact ⟨hdb, hwrites.projects, Or.inr htaken⟩

end MemoryStore

/-- `recall`: the rows behind the hits of the index that are still active, which are then marked as
surfaced. -/
def recallRows (env : MemoryEnv) (now : Text) (order : HashOrder) (s : MemoryStore) (query : Text)
    (projectId : Option Text) (topN : ℕ) : List MemoryRow × MemoryStore :=
  let (hits, s') := s.recallIndexed env order query projectId topN
  if hits.isEmpty then ([], s')
  else
    let out := (hits.filterMap fun hit => s'.db.getMemory hit.1).filter MemoryRow.isActive
    (out, s'.touchSurfaced now (out.map MemoryRow.id))

end DeepseekScience.Memory
