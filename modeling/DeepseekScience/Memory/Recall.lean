import DeepseekScience.Lib.Runs
import DeepseekScience.Memory.Store

/-! Runs of the store: what recall finds depends on the memories alone, as long as no recall uses
the index of another project and no audit event is rejected while there is an index. -/
namespace DeepseekScience.Memory

open Db Runs Tables

/-- The operations on the store, with the times and generated ids that they use. -/
inductive MemoryOp where
  | append (now freshId : Text) (audit : Audit) (body : Text) (scope projectId : Option Text)
  | appendFull (now : Text) (audit : Audit) (m : NewMemory)
  | softDelete (now : Text) (audit : Audit) (id : Text)
  | delete (id : Text)
  | supersede (now : Text) (audit : Audit) (oldId newId : Text)
  | updateStatus (now : Text) (audit : Audit) (id status : Text) (actor : Option Text)
  | editBody (now : Text) (audit : Audit) (id body : Text) (actor : Option Text)
  | recallRows (now : Text) (order : HashOrder) (query : Text) (projectId : Option Text)
      (topN : ℕ)

/-- The store behind an operation. -/
def memoryStep (env : MemoryEnv) (s : MemoryStore) : MemoryOp → MemoryStore
  | .append now freshId audit body scope projectId =>
    (s.append env now freshId audit body scope projectId).2
  | .appendFull now audit m => (s.appendFull now audit m).2
  | .softDelete now audit id => (s.softDelete now audit id).2
  | .delete id => (s.delete id).2
  | .supersede now audit oldId newId => (s.supersede env now audit oldId newId).2
  | .updateStatus now audit id status actor => (s.updateStatus now audit id status actor).2
  | .editBody now audit id body actor => (s.editBody env now audit id body actor).2
  | .recallRows now order query projectId topN =>
    (recallRows env now order s query projectId topN).2

/-- The audit event that a write records once it went through. -/
def MemoryOp.audit : MemoryOp → Option Audit
  | .append _ _ audit _ _ _ => some audit
  | .appendFull _ audit _ => some audit
  | .softDelete _ audit _ => some audit
  | .delete _ => none
  | .supersede _ audit _ _ => some audit
  | .updateStatus _ audit _ _ _ => some audit
  | .editBody _ audit _ _ _ => some audit
  | .recallRows _ _ _ _ _ => none

/-! What recall is for. -/

/-- The memories that a project may recall. -/
def recallable (db : MemoryDb) (projectId : Option Text) : List MemoryRow :=
  db.memories.rows.filter fun r => r.isActive && r.visibleTo projectId

/-- The score of a memory among the given ones. -/
def corpusScore (env : MemoryEnv) (corpus : List MemoryRow) (query : Text) (m : MemoryRow) : ℚ :=
  RecallIndex.docScore env.unicode env.floats (RecallIndex.documents env.unicode corpus) query
    (tokenize env.unicode m.body)

/-- The memories of a project that match a query. -/
def matching (env : MemoryEnv) (db : MemoryDb) (projectId : Option Text) (query : Text) :
    List MemoryRow :=
  (recallable db projectId).filter fun m =>
    decide (0 < corpusScore env (recallable db projectId) query m)

/-- Only memories that the project may recall, and all that match when there is room for them. -/
structure RecallRight (env : MemoryEnv) (db : MemoryDb) (query : Text) (projectId : Option Text)
    (topN : ℕ) (result : List MemoryRow) : Prop where
  isolated : ∀ m ∈ result, m ∈ recallable db projectId
  complete : (matching env db projectId query).length ≤ topN →
    ∀ m ∈ matching env db projectId query, m ∈ result

/-- A store along with the project that its index was built for. -/
structure History where
  store : MemoryStore
  builtFor : Option Text

namespace History

def step (env : MemoryEnv) (h : History) (op : MemoryOp) : History :=
  { store := memoryStep env h.store op
    builtFor :=
      match op with
      | .recallRows _ _ _ projectId _ => if h.store.index.isSome then h.builtFor else projectId
      | _ => h.builtFor }

/-- An index is only ever used for the project that it was built for, and is never left behind by
a write whose audit event is rejected. -/
def IndexKept (h : History) (op : MemoryOp) : Prop :=
  h.store.index = none ∨
    (∀ now order query projectId topN,
      op = .recallRows now order query projectId topN → h.builtFor = projectId) ∧
    ∀ audit, op.audit = some audit → h.store.db.events.find audit.id = none

/-- What the operation answers if it is a recall. -/
def Recalls (env : MemoryEnv) (h : History) (op : MemoryOp) : Prop :=
  ∀ now order query projectId topN, op = .recallRows now order query projectId topN →
    RecallRight env h.store.db query projectId topN
      (recallRows env now order h.store query projectId topN).1

end History

variable {env : MemoryEnv} {s : MemoryStore} {projectId : Option Text}

/-! The rows behind an index. -/

theorem indexedRows_perm :
    (s.indexedRows env projectId).Perm (recallable s.db projectId) := by
  unfold MemoryStore.indexedRows MemoryDb.candidateMemories MemoryDb.listMemoriesFiltered
    recallable
  simp only [true_or, decide_true, Bool.and_true]
  refine ((env.listing.perm _).filter _).trans ?_
  rw [List.filter_filter]

/-- Marking rows as surfaced changes nothing that an index holds. -/
theorem documents_touchSurfaced {db : MemoryDb} {now : Text} {ids : List Text} :
    RecallIndex.documents env.unicode (recallable (db.touchSurfaced now ids) projectId) =
      RecallIndex.documents env.unicode (recallable db projectId) := by
  unfold recallable RecallIndex.documents MemoryDb.touchSurfaced
  simp only [Table.update, List.filter_map, List.map_map]
  congr 1
  · funext r
    simp only [Function.comp_apply]
    split_ifs <;> rfl
  · congr 1
    funext r
    simp only [Function.comp_apply]
    split_ifs <;> rfl

theorem loadIndex_db (order : HashOrder) : (s.loadIndex env order projectId).2.db = s.db := by
  unfold MemoryStore.loadIndex
  split <;> rfl

theorem loadIndex_index (order : HashOrder) : (s.loadIndex env order projectId).2.index =
    some (s.loadIndex env order projectId).1 := by
  unfold MemoryStore.loadIndex
  split
  · assumption
  · rfl

theorem indexOf_loadIndex (order : HashOrder)
    (h : ∀ index, s.index = some index → RecallIndex.IndexOf env.floats index
      (RecallIndex.documents env.unicode (recallable s.db projectId))) :
    RecallIndex.IndexOf env.floats (s.loadIndex env order projectId).1
      (RecallIndex.documents env.unicode (recallable s.db projectId)) := by
  unfold MemoryStore.loadIndex
  split
  · next index hindex => exact h index hindex
  · exact (RecallIndex.indexOf_build order _).of_perm (indexedRows_perm.map _)

theorem touchSurfaced_index {now : Text} {ids : List Text} :
    (s.touchSurfaced now ids).index = s.index := by
  unfold MemoryStore.touchSurfaced
  split_ifs <;> rfl

theorem documents_touched {now : Text} {ids : List Text} :
    RecallIndex.documents env.unicode (recallable (s.touchSurfaced now ids).db projectId) =
      RecallIndex.documents env.unicode (recallable s.db projectId) := by
  unfold MemoryStore.touchSurfaced
  split_ifs
  · rfl
  · exact documents_touchSurfaced

/-- Behind a recall there is an index, and the memories are as they were but for the marks. -/
theorem recallRows_store (env : MemoryEnv) (s : MemoryStore) (projectId : Option Text) (now : Text) (order : HashOrder) (query : Text) (topN : ℕ) :
    ∃ ids, (recallRows env now order s query projectId topN).2 =
        (s.loadIndex env order projectId).2.touchSurfaced now ids := by
  unfold recallRows MemoryStore.recallIndexed
  dsimp only
  split_ifs
  · exact ⟨[], rfl⟩
  · exact ⟨_, rfl⟩

/-- With an index of the memories of the project, recall is right. -/
theorem recallRows_right {now query : Text} {order : HashOrder} {topN : ℕ}
    (h : RecallIndex.IndexOf env.floats (s.loadIndex env order projectId).1
      (RecallIndex.documents env.unicode (recallable s.db projectId))) :
    RecallRight env s.db query projectId topN
      (recallRows env now order s query projectId topN).1 := by
  have hdb : (s.loadIndex env order projectId).2.db = s.db := loadIndex_db order
  unfold recallRows MemoryStore.recallIndexed
  dsimp only
  rw [hdb]
  constructor
  · intro m hm
    split_ifs at hm with hempty
    · exact absurd hm List.not_mem_nil
    · obtain ⟨hfound, -⟩ := List.mem_filter.mp hm
      obtain ⟨hit, hhit, hget⟩ := List.mem_filterMap.mp hfound
      obtain ⟨d, hd, -, rfl⟩ :=
        RecallIndex.mem_scored.mp (RecallIndex.mem_scored_of_mem_search hhit)
      obtain ⟨m', hm', rfl⟩ := List.mem_map.mp (h.perm.subset hd)
      have hrow : m' ∈ s.db.memories.rows := (List.mem_filter.mp hm').1
      rw [MemoryDb.getMemory_of_mem hrow] at hget
      exact Option.some.inj hget ▸ hm'
  · intro hroom m hm
    obtain ⟨hm', hpos⟩ := List.mem_filter.mp hm
    obtain ⟨hrow, hactive⟩ := List.mem_filter.mp hm'
    have hscored : (m.id, (s.loadIndex env order projectId).1.score env.unicode env.floats query
        (tokenize env.unicode m.body)) ∈
        (s.loadIndex env order projectId).1.scored env.unicode env.floats query := by
      refine RecallIndex.mem_scored.mpr ⟨(m.id, tokenize env.unicode m.body), ?_, ?_, rfl⟩
      · exact h.perm.symm.subset (List.mem_map_of_mem hm')
      · rw [h.score_eq]
        exact of_decide_eq_true hpos
    have hlength : ((s.loadIndex env order projectId).1.scored env.unicode env.floats
        query).length ≤ topN := by
      rw [h.length_scored]
      unfold RecallIndex.documents
      rw [List.countP_map, List.countP_eq_length_filter]
      exact hroom
    have hhit := h.mem_search hlength hscored
    have hempty : ((s.loadIndex env order projectId).1.search env.unicode env.floats query
        topN).isEmpty = false := by
      rw [List.isEmpty_eq_false_iff]
      exact List.ne_nil_of_mem hhit
    rw [hempty, if_neg (by simp)]
    refine List.mem_filter.mpr ⟨?_, (Bool.and_eq_true_iff.mp hactive).1⟩
    exact List.mem_filterMap.mpr ⟨_, hhit, MemoryDb.getMemory_of_mem hrow⟩

namespace History

variable {h : History} {op : MemoryOp}

/-- The index is one of the memories that the project may recall now. -/
def Fresh (env : MemoryEnv) (h : History) : Prop :=
  ∀ index, h.store.index = some index → RecallIndex.IndexOf env.floats index
    (RecallIndex.documents env.unicode (recallable h.store.db h.builtFor))

theorem fresh_of_none (hnone : h.store.index = none) : Fresh env h :=
  fun _ hindex => absurd (hnone.symm.trans hindex) (by simp)

/-- Where recalls keep to the project of the index, the index serves the project that asks. -/
theorem indexOf_recall {now query : Text} {order : HashOrder} {projectId : Option Text} {topN : ℕ}
    (hfresh : Fresh env h) (hkept : IndexKept h (.recallRows now order query projectId topN)) :
    RecallIndex.IndexOf env.floats (h.store.loadIndex env order projectId).1
      (RecallIndex.documents env.unicode (recallable h.store.db projectId)) := by
  apply indexOf_loadIndex
  intro index hindex
  rcases hkept with hnone | ⟨hsame, -⟩
  · exact absurd (hnone.symm.trans hindex) (by simp)
  · rw [← hsame now order query projectId topN rfl]
    exact hfresh index hindex

theorem builtFor_recall {now query : Text} {order : HashOrder} {projectId : Option Text} {topN : ℕ}
    (hkept : IndexKept h (.recallRows now order query projectId topN)) :
    (h.step env (.recallRows now order query projectId topN)).builtFor = projectId := by
  unfold step
  dsimp only
  split_ifs with hindex
  · rcases hkept with hnone | ⟨hsame, -⟩
    · rw [hnone] at hindex
      exact absurd hindex (by simp)
    · exact hsame now order query projectId topN rfl
  · rfl

/-- A write leaves no index behind, or nothing but what there was. -/
theorem audited_fresh {α : Type} {write : Except DbError α × MemoryDb} {audit : Audit}
    {memoryId eventType : Text} {actor detail : Option Text} (hw : h.store.db.Writes memoryId write)
    (hfresh : Fresh env h)
    (hkept : h.store.index = none ∨ h.store.db.events.find audit.id = none) :
    Fresh env ⟨(h.store.audited write audit memoryId eventType actor detail).2, h.builtFor⟩ := by
  rcases MemoryStore.audited_cases audit eventType actor detail hw with ⟨e, -, hs⟩ | ⟨value, events, -, -, hs⟩ | ⟨value, e, -, htaken, hs⟩
  · rw [hs]
    exact hfresh
  · rw [hs]
    exact fresh_of_none rfl
  · rw [hs]
    exact fresh_of_none (hkept.resolve_right htaken)

theorem fresh_step (hfresh : Fresh env h) (hkept : IndexKept h op) : Fresh env (h.step env op) := by
  have haudit : ∀ audit, op.audit = some audit →
      h.store.index = none ∨ h.store.db.events.find audit.id = none :=
    fun audit ha => hkept.imp id fun hk => hk.2 audit ha
  cases op with
  | append now freshId audit body scope projectId =>
    exact audited_fresh (MemoryDb.writes_appendMemoryFull _ _) hfresh (haudit audit rfl)
  | appendFull now audit m =>
    exact audited_fresh (MemoryDb.writes_appendMemoryFull _ _) hfresh (haudit audit rfl)
  | softDelete now audit id =>
    exact audited_fresh MemoryDb.writes_softDeleteMemory hfresh (haudit audit rfl)
  | delete id => exact fresh_of_none rfl
  | supersede now audit oldId newId =>
    exact audited_fresh MemoryDb.writes_supersedeMemory hfresh (haudit audit rfl)
  | updateStatus now audit id status actor =>
    exact audited_fresh MemoryDb.writes_updateMemoryStatus hfresh (haudit audit rfl)
  | editBody now audit id body actor =>
    exact audited_fresh MemoryDb.writes_updateMemoryBody hfresh (haudit audit rfl)
  | recallRows now order query projectId topN =>
    obtain ⟨ids, hstore⟩ := recallRows_store env h.store projectId now order query topN
    have hindexOf := indexOf_recall hfresh hkept
    unfold Fresh
    rw [builtFor_recall hkept]
    intro index hindex
    change (recallRows env now order h.store query projectId topN).2.index = some index at hindex
    change RecallIndex.IndexOf env.floats index (RecallIndex.documents env.unicode
      (recallable (recallRows env now order h.store query projectId topN).2.db projectId))
    rw [hstore, touchSurfaced_index, loadIndex_index] at hindex
    obtain rfl := Option.some.inj hindex
    rw [hstore, documents_touched, loadIndex_db]
    exact hindexOf

/-- In a run that keeps to the index, every recall is right. -/
theorem recalls_right (hfresh : Fresh env h) (hkept : IndexKept h op) : Recalls env h op := by
  intro now order query projectId topN hop
  subst hop
  exact recallRows_right (indexOf_recall hfresh hkept)

end History

/-- Whatever a recall answers with is active at that moment. -/
theorem recallRows_active {now query : Text} {order : HashOrder} {topN : ℕ} :
    ∀ m ∈ (recallRows env now order s query projectId topN).1,
      m ∈ s.db.memories.rows ∧ m.isActive = true := by
  have hdb : (s.loadIndex env order projectId).2.db = s.db := loadIndex_db order
  unfold recallRows MemoryStore.recallIndexed
  dsimp only
  rw [hdb]
  intro m hm
  split_ifs at hm
  · exact absurd hm List.not_mem_nil
  · obtain ⟨hfound, hactive⟩ := List.mem_filter.mp hm
    obtain ⟨hit, -, hget⟩ := List.mem_filterMap.mp hfound
    exact ⟨(MemoryDb.mem_of_getMemory hget).1, hactive⟩

/-- A store that was just opened has no index. -/
def History.start (db : MemoryDb) : History := ⟨⟨db, none⟩, none⟩

def twoProjects : MemoryDb :=
  ⟨Table.empty, Table.empty, ["a".toList, "b".toList]⟩

/-- The append of a memory to a project. -/
def appendTo (id projectId body : String) : MemoryOp :=
  .appendFull "10:00".toList ⟨("ev-" ++ id).toList, "10:00".toList⟩
    { id := id.toList, body := body.toList, projectId := some projectId.toList }

def recallFor (projectId : String) : MemoryOp :=
  .recallRows "10:01".toList insertionOrder "rust".toList (some projectId.toList) 5

/-- The two memories, and a recall for the first project. -/
def oneRecall : List MemoryOp :=
  [appendTo "m1" "a" "Rust 1", appendTo "m2" "b" "Rust 2", recallFor "a"]

def rustRow (id projectId body : String) (surfaced : Option Text) : MemoryRow :=
  { id := id.toList
    entity := "project".toList
    scope := some "project".toList
    body := body.toList
    projectId := some projectId.toList
    confidence := 1 / 2
    createdAt := "10:00".toList
    updatedAt := "10:00".toList
    lastSurfacedAt := surfaced
    status := activeStatus
    claimType := "note".toList
    origin := "auto".toList }

end DeepseekScience.Memory
