import Mathlib.Data.Char
import Mathlib.Data.List.Lex
import Mathlib.Data.List.Sort
import Mathlib.Data.Rat.Defs
import DeepseekScience.Db.Error
import DeepseekScience.Lib.Table
import DeepseekScience.Text

/-! The durable claim store: the table of the memories, their audit events, and the statements
on them. A statement fails only where SQLite rejects it. -/
namespace DeepseekScience.Db

open Tables

/-- A memory. A confidence is a finite floating-point number, hence a rational one. -/
structure MemoryRow where
  id : Text
  entity : Text
  scope : Option Text
  entityType : Text := "note".toList
  body : Text
  projectId : Option Text
  confidence : ℚ
  createdAt : Text
  updatedAt : Text
  lastSurfacedAt : Option Text := none
  status : Text
  claimType : Text
  evidenceRefs : Option Text := none
  origin : Text
  supersededBy : Option Text := none
  validFrom : Option Text := none
  validUntil : Option Text := none
  deletedAt : Option Text := none
  sourceHash : Option Text := none
  deriving DecidableEq

structure NewMemory where
  id : Text
  body : Text
  scope : Option Text := none
  projectId : Option Text := none
  confidence : Option ℚ := none
  claimType : Option Text := none
  status : Option Text := none
  origin : Option Text := none
  evidenceRefs : Option Text := none
  sourceHash : Option Text := none
  validUntil : Option Text := none

structure MemoryEventRow where
  id : Text
  memoryId : Text
  eventType : Text
  actor : Option Text
  detail : Option Text
  createdAt : Text
  deriving DecidableEq

def activeStatus : Text := "active".toList

def candidateStatus : Text := "candidate".toList

def supersededStatus : Text := "superseded".toList

def deletedStatus : Text := "deleted".toList

def profileScope : Text := "profile".toList

namespace NewMemory

/-- The row that an insertion writes, with the defaults of the columns that are left out. -/
def row (now : Text) (m : NewMemory) : MemoryRow :=
  { id := m.id
    entity := m.scope.getD "project".toList
    scope := some (m.scope.getD "project".toList)
    body := m.body
    projectId := m.projectId
    confidence := m.confidence.getD (1 / 2)
    createdAt := now
    updatedAt := now
    status := m.status.getD activeStatus
    claimType := m.claimType.getD "note".toList
    evidenceRefs := m.evidenceRefs
    origin := m.origin.getD "auto".toList
    validUntil := m.validUntil
    sourceHash := m.sourceHash }

@[simp] theorem row_id (now : Text) (m : NewMemory) : (m.row now).id = m.id := rfl

@[simp] theorem row_supersededBy (now : Text) (m : NewMemory) :
    (m.row now).supersededBy = none := rfl

end NewMemory

namespace MemoryRow

/-! The assignments of the `UPDATE` statements. -/

def softDeleted (now : Text) (r : MemoryRow) : MemoryRow :=
  { r with status := deletedStatus, deletedAt := some now, updatedAt := now }

def superseded (now newId : Text) (r : MemoryRow) : MemoryRow :=
  { r with status := supersededStatus, supersededBy := some newId, updatedAt := now }

def withStatus (now status : Text) (r : MemoryRow) : MemoryRow :=
  { r with status := status, updatedAt := now }

def withBody (now body : Text) (sourceHash : Option Text) (r : MemoryRow) : MemoryRow :=
  { r with body := body, sourceHash := sourceHash.or r.sourceHash, updatedAt := now }

def surfaced (now : Text) (r : MemoryRow) : MemoryRow :=
  { r with lastSurfacedAt := some now }

@[simp] theorem softDeleted_id (now : Text) (r : MemoryRow) : (r.softDeleted now).id = r.id := rfl

@[simp] theorem superseded_id (now newId : Text) (r : MemoryRow) :
    (r.superseded now newId).id = r.id := rfl

@[simp] theorem withStatus_id (now status : Text) (r : MemoryRow) :
    (r.withStatus now status).id = r.id := rfl

@[simp] theorem withBody_id (now body : Text) (sourceHash : Option Text) (r : MemoryRow) :
    (r.withBody now body sourceHash).id = r.id := rfl

@[simp] theorem surfaced_id (now : Text) (r : MemoryRow) : (r.surfaced now).id = r.id := rfl

/-- The status that recall asks for. -/
def isActive (r : MemoryRow) : Bool := decide (r.status = activeStatus)

/-- `status IN ('active', 'candidate')`. -/
def isLive (r : MemoryRow) : Bool :=
  decide (r.status = activeStatus ∨ r.status = candidateStatus)

/-- `id = ?1 AND status IN ('active', 'candidate')`. -/
def isLiveAt (id : Text) (r : MemoryRow) : Bool := decide (r.id = id) && r.isLive

/-- `scope = 'profile' OR (?1 IS NULL OR project_id = ?1)`. -/
def visibleTo (projectId : Option Text) (r : MemoryRow) : Bool :=
  decide (r.scope = some profileScope ∨ projectId = none ∨ r.projectId = projectId)

theorem isLive_of_isActive {r : MemoryRow} (h : r.isActive = true) : r.isLive = true := by
  unfold isActive at h
  unfold isLive
  exact decide_eq_true (Or.inl (of_decide_eq_true h))

end MemoryRow

/-- How SQLite lists the rows of an answer `ORDER BY updated_at DESC`: rows of one time in any
order. -/
structure ListingOrder where
  sort : List MemoryRow → List MemoryRow
  perm : ∀ rows, (sort rows).Perm rows
  sorted : ∀ rows, (sort rows).Pairwise fun a b => b.updatedAt ≤ a.updatedAt

/-- Rows of one time as they stand in the table. -/
def stableListing : ListingOrder where
  sort := List.insertionSort fun a b => b.updatedAt ≤ a.updatedAt
  perm := List.perm_insertionSort _
  sorted rows :=
    have : Std.Total fun a b : MemoryRow => b.updatedAt ≤ a.updatedAt :=
      ⟨fun a b => le_total b.updatedAt a.updatedAt⟩
    have : IsTrans MemoryRow fun a b => b.updatedAt ≤ a.updatedAt :=
      ⟨fun _ _ _ hab hbc => hbc.trans hab⟩
    List.pairwise_insertionSort _ rows

/-- The tables behind the store. `projects` holds the keys that a memory may refer to. -/
structure MemoryDb where
  memories : Table MemoryRow.id
  events : Table MemoryEventRow.id
  projects : List Text

namespace MemoryDb

variable (db : MemoryDb)

/-- The foreign key of a memory. -/
def referencesProject (projectId : Option Text) : Bool :=
  projectId.all fun id => decide (id ∈ db.projects)

def getMemory (id : Text) : Option MemoryRow := db.memories.find id

def appendMemoryFull (now : Text) (m : NewMemory) : Except DbError MemoryRow × MemoryDb :=
  if db.referencesProject m.projectId then
    match db.memories.insert (m.row now) with
    | none => (.error .sqlite, db)
    | some memories =>
      let db' := { db with memories := memories }
      match db'.getMemory m.id with
      | some row => (.ok row, db')
      | none => (.error (.other "just-inserted memory missing".toList), db')
  else (.error .sqlite, db)

def listMemoriesFiltered (order : ListingOrder) (projectId entity status : Option Text) :
    List MemoryRow :=
  let list := order.sort (db.memories.rows.filter fun r =>
    r.visibleTo projectId && decide (status = none ∨ some r.status = status))
  match entity with
  | some e => list.filter fun r => decide (r.entity = e)
  | none => list

def candidateMemories (order : ListingOrder) (projectId : Option Text) : List MemoryRow :=
  db.listMemoriesFiltered order projectId none none

/-- An `UPDATE` of the memories that must find a row. -/
def updateMemory (p : MemoryRow → Bool) (f : MemoryRow → MemoryRow) (hf : ∀ r, (f r).id = r.id)
    (missing : Text) : Except DbError Unit × MemoryDb :=
  let db' := { db with memories := db.memories.update p f hf }
  if db.memories.count p = 0 then (.error (.notFound missing), db') else (.ok (), db')

def softDeleteMemory (now id : Text) : Except DbError Unit × MemoryDb :=
  db.updateMemory (fun r => decide (r.id = id)) (MemoryRow.softDeleted now)
    (MemoryRow.softDeleted_id now) ("memory ".toList ++ id)

/-- The events of the memory go with it. -/
def deleteMemory (id : Text) : Except DbError Unit × MemoryDb :=
  let found := decide (db.memories.count (fun r => decide (r.id = id)) ≠ 0)
  let db' :=
    { db with
      memories := db.memories.delete fun r => decide (r.id = id)
      events := if found then db.events.delete fun e => decide (e.memoryId = id) else db.events }
  if found then (.ok (), db') else (.error (.notFound ("memory ".toList ++ id)), db')

def supersedeMemory (now oldId newId : Text) : Except DbError Unit × MemoryDb :=
  db.updateMemory (MemoryRow.isLiveAt oldId) (MemoryRow.superseded now newId)
    (MemoryRow.superseded_id now newId) ("active/candidate memory ".toList ++ oldId)

def updateMemoryStatus (now id status : Text) : Except DbError Unit × MemoryDb :=
  db.updateMemory (fun r => decide (r.id = id)) (MemoryRow.withStatus now status)
    (MemoryRow.withStatus_id now status) ("memory ".toList ++ id)

def updateMemoryBody (now id body : Text) (sourceHash : Option Text) :
    Except DbError Unit × MemoryDb :=
  db.updateMemory (fun r => decide (r.id = id)) (MemoryRow.withBody now body sourceHash)
    (MemoryRow.withBody_id now body sourceHash) ("memory ".toList ++ id)

def touchSurfaced (now : Text) (ids : List Text) : MemoryDb :=
  { db with
    memories := db.memories.update (fun r => decide (r.id ∈ ids)) (MemoryRow.surfaced now)
      (MemoryRow.surfaced_id now) }

/-- The event needs a new id and a memory that exists. -/
def appendMemoryEvent (e : MemoryEventRow) : Except DbError Unit × MemoryDb :=
  if (db.getMemory e.memoryId).isSome then
    match db.events.insert e with
    | some events => (.ok (), { db with events := events })
    | none => (.error .sqlite, db)
  else (.error .sqlite, db)

def getProject (id : Text) : Bool := decide (id ∈ db.projects)

/-- What holds of every write to one memory: a rejected write changes nothing, and behind an
accepted one the memory is there. -/
structure Writes {α : Type} (id : Text) (write : Except DbError α × MemoryDb) : Prop where
  unchanged : ∀ e, write.1 = .error e → write.2 = db
  found : ∀ value, write.1 = .ok value → (write.2.getMemory id).isSome = true
  events : write.2.events = db.events
  projects : write.2.projects = db.projects

variable {db} {order : ListingOrder} {id now : Text} {r : MemoryRow}

theorem mem_of_getMemory (h : db.getMemory id = some r) :
    r ∈ db.memories.rows ∧ r.id = id := Table.find_eq_some.mp h

theorem getMemory_of_mem (h : r ∈ db.memories.rows) : db.getMemory r.id = some r :=
  Table.find_eq_some.mpr ⟨h, rfl⟩

theorem getMemory_isSome (h : r ∈ db.memories.rows) : (db.getMemory r.id).isSome = true := by
  rw [getMemory_of_mem h]
  rfl

theorem appendMemoryFull_cases (db : MemoryDb) (now : Text) (m : NewMemory) :
    ((db.referencesProject m.projectId = false ∨ db.memories.insert (m.row now) = none) ∧
      db.appendMemoryFull now m = (.error .sqlite, db)) ∨
      ∃ memories, (db.referencesProject m.projectId = true ∧
          db.memories.insert (m.row now) = some memories) ∧
        db.appendMemoryFull now m = (.ok (m.row now), { db with memories := memories }) := by
  unfold appendMemoryFull
  split_ifs with hreferences
  · cases hinsert : db.memories.insert (m.row now) with
    | none => exact Or.inl ⟨Or.inr rfl, rfl⟩
    | some memories =>
      have hrows := (Table.insert_eq_some hinsert).1
      have hmem : m.row now ∈ ({ db with memories := memories } : MemoryDb).memories.rows := by
        rw [hrows]
        exact List.mem_append_right _ (List.mem_singleton_self _)
      have hget : MemoryDb.getMemory { db with memories := memories } m.id = some (m.row now) :=
        getMemory_of_mem hmem
      refine Or.inr ⟨memories, ⟨hreferences, rfl⟩, ?_⟩
      simp only [hget]
  · exact Or.inl ⟨Or.inl (by simpa using hreferences), rfl⟩

theorem writes_appendMemoryFull (now : Text) (m : NewMemory) :
    db.Writes m.id (db.appendMemoryFull now m) := by
  rcases appendMemoryFull_cases db now m with ⟨-, h⟩ | ⟨memories, ⟨-, hinsert⟩, h⟩
  · rw [h]
    exact ⟨fun _ _ => rfl, fun _ h => absurd h (by simp), rfl, rfl⟩
  · have hmem : m.row now ∈ ({ db with memories := memories } : MemoryDb).memories.rows := by
      rw [(Table.insert_eq_some hinsert).1]
      exact List.mem_append_right _ (List.mem_singleton_self _)
    rw [h]
    refine ⟨fun _ h => absurd h (by simp), fun _ _ => ?_, rfl, rfl⟩
    exact getMemory_isSome hmem

theorem updateMemory_cases (db : MemoryDb) {p : MemoryRow → Bool} {f : MemoryRow → MemoryRow}
    (hf : ∀ r, (f r).id = r.id) (missing : Text) :
    (db.memories.count p = 0 ∧
      db.updateMemory p f hf missing = (.error (.notFound missing), db)) ∨
    (db.memories.count p ≠ 0 ∧ db.updateMemory p f hf missing =
      (.ok (), { db with memories := db.memories.update p f hf })) := by
  unfold updateMemory
  split_ifs with hcount
  · rw [Table.update_of_count_eq_zero hcount]
    exact Or.inl ⟨hcount, rfl⟩
  · exact Or.inr ⟨hcount, rfl⟩

/-- An update writes to the memory that all rows which it selects have the id of. -/
theorem writes_updateMemory {p : MemoryRow → Bool} {f : MemoryRow → MemoryRow}
    {hf : ∀ r, (f r).id = r.id} {missing : Text} (hp : ∀ r, p r = true → r.id = id) :
    db.Writes id (db.updateMemory p f hf missing) := by
  rcases updateMemory_cases db hf missing with ⟨-, h⟩ | ⟨hcount, h⟩
  · rw [h]
    exact ⟨fun _ _ => rfl, fun _ h => absurd h (by simp), rfl, rfl⟩
  · rw [h]
    refine ⟨fun _ h => absurd h (by simp), fun _ _ => ?_, rfl, rfl⟩
    rw [ne_eq, Table.count_eq_zero] at hcount
    push Not at hcount
    obtain ⟨r, hr, hpr⟩ := hcount
    have hselected : p r = true := by simpa using hpr
    have hrow : f r ∈ (db.memories.update p f hf).rows :=
      Table.mem_update.mpr ⟨r, hr, if_pos hselected⟩
    have hmem : f r ∈ ({ db with memories := db.memories.update p f hf } : MemoryDb).memories.rows :=
      hrow
    rw [← hp r hselected, ← hf r]
    exact getMemory_isSome hmem

theorem writes_softDeleteMemory : db.Writes id (db.softDeleteMemory now id) :=
  writes_updateMemory fun _ h => of_decide_eq_true h

theorem writes_supersedeMemory {newId : Text} :
    db.Writes id (db.supersedeMemory now id newId) :=
  writes_updateMemory fun _ h => of_decide_eq_true (Bool.and_eq_true_iff.mp h).1

theorem writes_updateMemoryStatus {status : Text} :
    db.Writes id (db.updateMemoryStatus now id status) :=
  writes_updateMemory fun _ h => of_decide_eq_true h

theorem writes_updateMemoryBody {body : Text} {sourceHash : Option Text} :
    db.Writes id (db.updateMemoryBody now id body sourceHash) :=
  writes_updateMemory fun _ h => of_decide_eq_true h

theorem appendMemoryEvent_ok {e : MemoryEventRow}
    (hmemory : (db.getMemory e.memoryId).isSome = true) (hfresh : db.events.find e.id = none) :
    ∃ events, db.events.insert e = some events ∧
      db.appendMemoryEvent e = (.ok (), { db with events := events }) := by
  unfold appendMemoryEvent
  rw [if_pos hmemory]
  cases hinsert : db.events.insert e with
  | none => exact absurd hfresh (Table.insert_eq_none.mp hinsert)
  | some events => exact ⟨events, rfl, rfl⟩

theorem appendMemoryEvent_taken {e : MemoryEventRow} (h : db.events.find e.id ≠ none) :
    db.appendMemoryEvent e = (.error .sqlite, db) := by
  unfold appendMemoryEvent
  rw [Table.insert_eq_none.mpr h]
  split_ifs <;> rfl

theorem appendMemoryEvent_memories (db : MemoryDb) (e : MemoryEventRow) :
    (db.appendMemoryEvent e).2.memories = db.memories := by
  unfold appendMemoryEvent
  split_ifs
  · split <;> rfl
  · rfl

theorem updateMemory_memories (db : MemoryDb) {p : MemoryRow → Bool} {f : MemoryRow → MemoryRow}
    (hf : ∀ r, (f r).id = r.id) (missing : Text) :
    (db.updateMemory p f hf missing).2.memories = db.memories.update p f hf := by
  unfold updateMemory
  split_ifs <;> rfl

end MemoryDb

end DeepseekScience.Db
