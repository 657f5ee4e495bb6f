import DeepseekScience.Memory.Consolidate

/-! Runs of consolidation batches: one live copy for each claim, sound chains of successors, and
failed items that leave no trace, as long as the items of a batch do not collide. -/
namespace DeepseekScience.Memory

open Db Runs Tables Relation

/-! Pointers that never lead back. -/

def Acyclic {α : Type*} (R : α → α → Prop) : Prop := ∀ a, ¬ TransGen R a a

/-- New pointers to a place without pointers of its own close no cycle. -/
theorem acyclic_of_sink {α : Type*} {R R' : α → α → Prop} (sink : α) (h : Acyclic R)
    (hnew : ∀ a c, R' a c → R a c ∨ c = sink) (hsink : ∀ c, ¬ R' sink c) : Acyclic R' := by
  have hpath : ∀ {a c}, TransGen R' a c → TransGen R a c ∨ c = sink := by
    intro a c hac
    induction hac with
    | single hac => exact (hnew _ _ hac).imp TransGen.single id
    | tail _ hbc ih =>
      rcases ih with hab | rfl
      · exact (hnew _ _ hbc).imp hab.tail id
      · exact absurd hbc (hsink _)
  intro a ha
  rcases hpath ha with hcycle | rfl
  · exact h a hcycle
  · obtain ⟨c, hc, -⟩ := TransGen.head'_iff.mp ha
    exact hsink c hc

/-! What consolidation keeps. -/

/-- No two live memories that a project sees have the same fingerprint. -/
def OneLive (rows : List MemoryRow) : Prop :=
  ∀ projectId : Text, ∀ r ∈ rows, ∀ r' ∈ rows,
    r.isLive = true → r'.isLive = true →
    r.visibleTo (some projectId) = true → r'.visibleTo (some projectId) = true →
    r.sourceHash ≠ none → r.sourceHash = r'.sourceHash → r = r'

/-- One memory names another one as its successor. -/
def Supersedes (rows : List MemoryRow) (id id' : Text) : Prop :=
  ∃ r ∈ rows, r.id = id ∧ r.supersededBy = some id'

structure Chains (rows : List MemoryRow) : Prop where
  successor : ∀ r ∈ rows, r.status = supersededStatus →
    ∃ r' ∈ rows, r.supersededBy = some r'.id
  acyclic : Acyclic (Supersedes rows)

def Decision.isDuplicate : Decision → Bool
  | .duplicate _ => true
  | _ => false

/-! Batches as runs over their items. -/

/-- Between two items of a batch: the store, the counts, what the batch has read, and the items
that came before. -/
structure Consolidation where
  store : MemoryStore
  stats : ConsolidateStats
  batch : Batch
  earlier : List ExtractedMem

inductive ConsolidateOp where
  | load (args : PromoteArgs)
  | item (item : Extraction)

namespace Consolidation

variable (env : MemoryEnv)

def rows (c : Consolidation) : List MemoryRow := c.store.db.memories.rows

def load (s : MemoryStore) (args : PromoteArgs) : Consolidation :=
  { store := s, stats := {}, batch := loadBatch env s args, earlier := [] }

def start (s : MemoryStore) : Consolidation :=
  load env s { extracted := [], projectId := none, evidence := [], cfg := {} }

def step (c : Consolidation) : ConsolidateOp → Consolidation
  | .load args => load env c.store args
  | .item item =>
    let acc := c.batch.promoteItem env (c.store, c.stats) item
    { store := acc.1, stats := acc.2, batch := c.batch, earlier := c.earlier ++ [item.mem] }

def batchOps (args : PromoteArgs) : List ConsolidateOp :=
  .load args :: args.extracted.map .item

/-- An item does not collide with the items before it: none of them has its fingerprint, unless it
is dropped anyway, and none replaces the memory that it replaces. The audit events of a
replacement have new ids. -/
structure ItemInOrder (c : Consolidation) (item : Extraction) : Prop where
  newHash : (c.batch.decision env item.mem).isDuplicate = false →
    ∀ em ∈ c.earlier, memoryHash env em.body ≠ memoryHash env item.mem.body
  newOld : ∀ oldId, c.batch.decision env item.mem = .supersede oldId →
    ∀ em ∈ c.earlier, c.batch.decision env em ≠ .supersede oldId
  newEvents : ∀ oldId, c.batch.decision env item.mem = .supersede oldId →
    c.store.db.events.find item.created.id = none ∧
      c.store.db.events.find item.replaced.id = none ∧ item.created.id ≠ item.replaced.id

def InOrder (c : Consolidation) (op : ConsolidateOp) : Prop :=
  ∀ item, op = .item item → c.ItemInOrder env item

/-- A replacement that is counted as an error leaves the active memories as they are. -/
def FailsClean (c : Consolidation) (op : ConsolidateOp) : Prop :=
  ∀ item oldId, op = .item item → c.batch.decision env item.mem = .supersede oldId →
    (c.step env op).stats.errors ≠ c.stats.errors →
    (c.step env op).rows.filter MemoryRow.isActive = c.rows.filter MemoryRow.isActive

variable {env} {c : Consolidation} {args : PromoteArgs} {batches : List PromoteArgs}
  {s : MemoryStore}

theorem run_items (items : List Extraction) :
    let acc := items.foldl (c.batch.promoteItem env) (c.store, c.stats)
    (run (step env) c (items.map .item)).store = acc.1 ∧
      (run (step env) c (items.map .item)).stats = acc.2 := by
  induction items generalizing c with
  | nil => exact ⟨rfl, rfl⟩
  | cons item items ih => exact ih

/-- A batch runs through its items. -/
theorem run_batchOps : (run (step env) c (batchOps args)).store =
    (promoteCandidates env c.store args).1 := by
  unfold batchOps promoteCandidates
  rw [run_cons]
  split_ifs with hempty
  · rw [List.isEmpty_iff.mp hempty]
    rfl
  · exact (run_items args.extracted).1

theorem run_batches : (run (step env) c (batches.flatMap batchOps)).store =
    batches.foldl (fun s args => (promoteCandidates env s args).1) c.store := by
  induction batches generalizing c with
  | nil => rfl
  | cons args batches ih => rw [List.flatMap_cons, run_append, ih, run_batchOps, List.foldl_cons]

end Consolidation

/-! What a decision says about the memories that the batch has read. -/

section
variable {env : MemoryEnv} {batch : Batch}

theorem similarActive_mem {body : Text} {existing : List MemoryRow} {cfg : ConsolidateConfig}
    {r : MemoryRow} (h : similarActive env body existing cfg = some r) :
    r ∈ existing ∧ r.isActive = true := by
  unfold similarActive at h
  dsimp only at h
  split at h
  · exact absurd h (by simp)
  · next best score rest hscored =>
    have hbest : (best, score) ∈
        bm25Recall env.unicode env.floats (existing.filter MemoryRow.isActive) body := by
      rw [hscored]
      exact List.mem_cons_self
    unfold bm25Recall at hbest
    obtain ⟨m, hm, hscore⟩ := List.mem_filterMap.mp ((List.mem_insertionSort _).mp hbest)
    rw [Option.ite_none_right_eq_some] at h
    obtain rfl := Option.some.inj h.2
    simp only [Option.ite_none_right_eq_some, Option.some.injEq, Prod.mk.injEq] at hscore
    obtain rfl := hscore.2.1
    exact List.mem_filter.mp hm

/-- The four rules, in their order. -/
theorem decision_cases (env : MemoryEnv) (batch : Batch) (em : ExtractedMem) :
    (∃ r ∈ batch.existing, r.isLive = true ∧ r.sourceHash = some (memoryHash env em.body) ∧
      batch.decision env em = .duplicate r.id) ∨
    (∀ r ∈ batch.existing, r.isLive = true → r.sourceHash ≠ some (memoryHash env em.body)) ∧
      (((batch.cfg.trustHighRiskApprove && em.claimType.isHighRisk) = true ∧
          batch.decision env em = .promote .candidate) ∨
        (batch.cfg.trustHighRiskApprove && em.claimType.isHighRisk) = false ∧
          ((∃ r ∈ batch.existing, r.isActive = true ∧
              batch.decision env em = .supersede r.id) ∨
            (batch.cfg.autoPromoteThreshold ≤ em.conf ∧
              batch.decision env em = .promote .active) ∨
            (em.conf < batch.cfg.autoPromoteThreshold ∧
              batch.decision env em = .promote .candidate))) := by
  unfold Batch.decision decideCandidate Batch.candidate
  dsimp only
  cases hfind : batch.existing.find? fun m =>
      decide (m.sourceHash = some (memoryHash env em.body)) && m.isLive with
  | some m =>
    have hm := List.find?_some hfind
    obtain ⟨hhash, hlive⟩ := Bool.and_eq_true_iff.mp hm
    exact Or.inl ⟨m, List.mem_of_find?_eq_some hfind, hlive, of_decide_eq_true hhash, rfl⟩
  | none =>
    refine Or.inr ⟨fun r hr hlive hhash => ?_, ?_⟩
    · exact List.find?_eq_none.mp hfind r hr
        (Bool.and_eq_true_iff.mpr ⟨decide_eq_true hhash, hlive⟩)
    · cases hrisk : batch.cfg.trustHighRiskApprove && em.claimType.isHighRisk with
      | true => exact Or.inl ⟨rfl, rfl⟩
      | false =>
        refine Or.inr ⟨rfl, ?_⟩
        cases hsimilar : similarActive env em.body batch.existing batch.cfg with
        | some best =>
          obtain ⟨hmem, hactive⟩ := similarActive_mem hsimilar
          exact Or.inl ⟨best, hmem, hactive, rfl⟩
        | none =>
          refine Or.inr ?_
          by_cases hconf : batch.cfg.autoPromoteThreshold ≤ em.conf
          · exact Or.inl ⟨hconf, if_pos hconf⟩
          · exact Or.inr ⟨not_le.mp hconf, if_neg hconf⟩

theorem sourceHash_of_not_duplicate {em : ExtractedMem} {r : MemoryRow}
    (h : (batch.decision env em).isDuplicate = false) (hr : r ∈ batch.existing)
    (hlive : r.isLive = true) : r.sourceHash ≠ some (memoryHash env em.body) := by
  rcases decision_cases env batch em with ⟨r₀, -, -, -, hd⟩ | ⟨hnone, -⟩
  · rw [hd] at h
    exact absurd h (by simp [Decision.isDuplicate])
  · exact hnone r hr hlive

theorem decision_supersede {em : ExtractedMem} {oldId : Text}
    (h : batch.decision env em = .supersede oldId) :
    (batch.cfg.trustHighRiskApprove && em.claimType.isHighRisk) = false ∧
      ∃ r ∈ batch.existing, r.isActive = true ∧ r.id = oldId := by
  rcases decision_cases env batch em with ⟨r, -, -, -, hd⟩ | ⟨-, hrest⟩
  · exact absurd (h.symm.trans hd) (by simp)
  · rcases hrest with ⟨-, hd⟩ | ⟨hrisk, ⟨r, hr, hactive, hd⟩ | ⟨-, hd⟩ | ⟨-, hd⟩⟩
    · exact absurd (h.symm.trans hd) (by simp)
    · exact ⟨hrisk, r, hr, hactive, (Decision.supersede.inj (h.symm.trans hd)).symm⟩
    · exact absurd (h.symm.trans hd) (by simp)
    · exact absurd (h.symm.trans hd) (by simp)

end

/-! What an item writes. -/

variable {env : MemoryEnv} {batch : Batch} {s : MemoryStore} {stats : ConsolidateStats}
  {item : Extraction}

/-- The row of an item. -/
def itemRow (env : MemoryEnv) (batch : Batch) (item : Extraction) : MemoryRow :=
  (batch.newMemory env item.id item.mem (batch.itemStatus env item.mem)).row item.now

theorem successorStatus_live (batch : Batch) (em : ExtractedMem) :
    batch.successorStatus em = activeStatus ∨ batch.successorStatus em = candidateStatus := by
  unfold Batch.successorStatus
  split_ifs
  · exact Or.inr rfl
  · exact Or.inl rfl

theorem promoted_live {em : ExtractedMem} {status : MemoryStatus}
    (h : batch.decision env em = .promote status) :
    status.asStr = activeStatus ∨ status.asStr = candidateStatus := by
  rcases decision_cases env batch em with ⟨r, -, -, -, hd⟩ | ⟨-, hrest⟩
  · exact absurd (h.symm.trans hd) (by simp)
  · rcases hrest with ⟨-, hd⟩ | ⟨-, ⟨r, -, -, hd⟩ | ⟨-, hd⟩ | ⟨-, hd⟩⟩
    · exact Or.inr (congrArg MemoryStatus.asStr (Decision.promote.inj (h.symm.trans hd)))
    · exact absurd (h.symm.trans hd) (by simp)
    · exact Or.inl (congrArg MemoryStatus.asStr (Decision.promote.inj (h.symm.trans hd)))
    · exact Or.inr (congrArg MemoryStatus.asStr (Decision.promote.inj (h.symm.trans hd)))

theorem itemStatus_live (h : (batch.decision env item.mem).isDuplicate = false) :
    batch.itemStatus env item.mem = activeStatus ∨
      batch.itemStatus env item.mem = candidateStatus := by
  unfold Batch.itemStatus
  cases hdecision : batch.decision env item.mem with
  | duplicate existingId =>
    rw [hdecision] at h
    exact absurd h (by simp [Decision.isDuplicate])
  | supersede oldId => exact successorStatus_live batch item.mem
  | promote status => exact promoted_live hdecision

theorem promoteItem_supersede (stats : ConsolidateStats) {oldId : Text} {row : MemoryRow} {s' : MemoryStore}
    (hdecision : batch.decision env item.mem = .supersede oldId)
    (happend : s.appendFull item.now item.created
      (batch.newMemory env item.id item.mem (batch.successorStatus item.mem)) = (.ok row, s')) :
    (batch.promoteItem env (s, stats) item).1 =
      (s'.supersede env item.now item.replaced oldId row.id).2 ∧
    ((s'.supersede env item.now item.replaced oldId row.id).1 = .ok () →
      (batch.promoteItem env (s, stats) item).2.errors = stats.errors) := by
  unfold Batch.promoteItem
  simp only [hdecision, happend]
  split
  · next e s'' hs =>
    rw [hs]
    exact ⟨rfl, fun h => absurd h (by simp)⟩
  · next s'' hs =>
    rw [hs]
    split_ifs
    · exact ⟨rfl, fun _ => rfl⟩
    · exact ⟨rfl, fun _ => rfl⟩

/-- The memories behind an item: as before, because it is dropped or its row is rejected, with the
new row, or with a new row that also replaces an old one. -/
theorem promoteItem_rows (env : MemoryEnv) (batch : Batch) (s : MemoryStore)
    (stats : ConsolidateStats) (item : Extraction) :
    (((batch.decision env item.mem).isDuplicate = true ∨
        s.db.referencesProject batch.projectId = false ∨
        s.db.memories.insert (itemRow env batch item) = none) ∧
      (batch.promoteItem env (s, stats) item).1.db.memories = s.db.memories) ∨
    ∃ memories, (batch.decision env item.mem).isDuplicate = false ∧
      (s.db.referencesProject batch.projectId = true ∧
        s.db.memories.insert (itemRow env batch item) = some memories) ∧
      ((batch.promoteItem env (s, stats) item).1.db.memories = memories ∨
      ∃ oldId, batch.decision env item.mem = .supersede oldId ∧
        (batch.promoteItem env (s, stats) item).1.db.memories =
          memories.update (MemoryRow.isLiveAt oldId) (MemoryRow.superseded item.now item.id)
            (MemoryRow.superseded_id item.now item.id)) := by
  unfold itemRow Batch.itemStatus
  cases hdecision : batch.decision env item.mem with
  | duplicate existingId =>
    unfold Batch.promoteItem
    rw [hdecision]
    exact Or.inl ⟨Or.inl rfl, rfl⟩
  | supersede oldId =>
    rcases MemoryStore.appendFull_cases s item.now item.created
      (batch.newMemory env item.id item.mem (batch.successorStatus item.mem)) with
      ⟨hrejected, e, happend⟩ |
        ⟨memories, hinsert, ⟨event, events, -, -, happend⟩ | ⟨-, e, happend⟩⟩
    · refine Or.inl ⟨Or.inr hrejected, ?_⟩
      unfold Batch.promoteItem
      simp only [hdecision, happend]
    · rw [(promoteItem_supersede stats hdecision happend).1]
      refine Or.inr ⟨memories, rfl, hinsert, ?_⟩
      rcases MemoryStore.supersede_cases env
        ⟨{ s.db with memories := memories, events := events }, none⟩ item.now item.replaced
        oldId item.id with ⟨-, e, hsupersede⟩ | ⟨-, hrows, -⟩
      · exact Or.inl (congrArg (fun r => r.2.db.memories) hsupersede)
      · exact Or.inr ⟨oldId, rfl, hrows⟩
    · unfold Batch.promoteItem
      simp only [hdecision, happend]
      exact Or.inr ⟨memories, rfl, hinsert, Or.inl rfl⟩
  | promote status =>
    unfold Batch.promoteItem
    simp only [hdecision]
    rcases MemoryStore.appendFull_cases s item.now item.created
      (batch.newMemory env item.id item.mem status.asStr) with
      ⟨hrejected, e, happend⟩ |
        ⟨memories, hinsert, ⟨event, events, -, -, happend⟩ | ⟨-, e, happend⟩⟩
    · rw [happend]
      exact Or.inl ⟨Or.inr hrejected, rfl⟩
    · rw [happend]
      refine Or.inr ⟨memories, rfl, hinsert, Or.inl ?_⟩
      dsimp only
      split_ifs <;> rfl
    · rw [happend]
      exact Or.inr ⟨memories, rfl, hinsert, Or.inl rfl⟩

/-- An item leaves the projects alone. -/
theorem promoteItem_projects (env : MemoryEnv) (batch : Batch) (s : MemoryStore)
    (stats : ConsolidateStats) (item : Extraction) :
    (batch.promoteItem env (s, stats) item).1.db.projects = s.db.projects := by
  cases hdecision : batch.decision env item.mem with
  | duplicate existingId =>
    unfold Batch.promoteItem
    rw [hdecision]
  | supersede oldId =>
    rcases MemoryStore.appendFull_cases s item.now item.created
      (batch.newMemory env item.id item.mem (batch.successorStatus item.mem)) with
      ⟨-, e, happend⟩ | ⟨memories, -, ⟨event, events, -, -, happend⟩ | ⟨-, e, happend⟩⟩
    · unfold Batch.promoteItem
      simp only [hdecision, happend]
    · rw [(promoteItem_supersede stats hdecision happend).1]
      rcases MemoryStore.supersede_cases env
        ⟨{ s.db with memories := memories, events := events }, none⟩ item.now item.replaced
        oldId item.id with ⟨-, e, hsupersede⟩ | ⟨-, -, hprojects, -⟩
      · exact congrArg (fun r => r.2.db.projects) hsupersede
      · exact hprojects
    · unfold Batch.promoteItem
      simp only [hdecision, happend]
  | promote status =>
    unfold Batch.promoteItem
    simp only [hdecision]
    rcases MemoryStore.appendFull_cases s item.now item.created
      (batch.newMemory env item.id item.mem status.asStr) with
      ⟨-, e, happend⟩ | ⟨memories, -, ⟨event, events, -, -, happend⟩ | ⟨-, e, happend⟩⟩
    · rw [happend]
    · rw [happend]
      dsimp only
      split_ifs <;> rfl
    · rw [happend]

/-! The rows behind an insertion and behind a replacement. -/

variable {rows : List MemoryRow} {t t' : Table MemoryRow.id} {r : MemoryRow} {oldId newId now : Text}

theorem superseded_notLive (r : MemoryRow) : (r.superseded now newId).isLive = false := by
  change decide (supersededStatus = activeStatus ∨ supersededStatus = candidateStatus) = false
  decide

/-- What a replacement leaves live was live before, and was not the memory that it replaces. -/
theorem live_of_replaced (hr : r ∈ (t.update (MemoryRow.isLiveAt oldId)
      (MemoryRow.superseded now newId) (MemoryRow.superseded_id now newId)).rows)
    (hlive : r.isLive = true) : r ∈ t.rows := by
  obtain ⟨r₀, hr₀, hr⟩ := Table.mem_update.mp hr
  split_ifs at hr
  · rw [← hr, superseded_notLive] at hlive
    exact absurd hlive (by simp)
  · exact hr ▸ hr₀

theorem mem_replaced (hr : r ∈ t.rows) (h : r.isLiveAt oldId = false) :
    r ∈ (t.update (MemoryRow.isLiveAt oldId) (MemoryRow.superseded now newId)
      (MemoryRow.superseded_id now newId)).rows :=
  Table.mem_update.mpr ⟨r, hr, by rw [h]; rfl⟩

theorem OneLive.replaced (h : OneLive t.rows) : OneLive (t.update (MemoryRow.isLiveAt oldId)
    (MemoryRow.superseded now newId) (MemoryRow.superseded_id now newId)).rows :=
  fun projectId r hr r' hr' hlive hlive' =>
    h projectId r (live_of_replaced hr hlive) r' (live_of_replaced hr' hlive') hlive hlive'

theorem OneLive.inserted (h : OneLive t.rows) (hinsert : t.insert r = some t')
    (hnew : ∀ projectId : Text, ∀ r' ∈ t.rows, r'.isLive = true →
      r.visibleTo (some projectId) = true → r'.visibleTo (some projectId) = true →
      r'.sourceHash ≠ r.sourceHash) : OneLive t'.rows := by
  rw [(Table.insert_eq_some hinsert).1]
  intro projectId r₁ hr₁ r₂ hr₂ hlive₁ hlive₂ hseen₁ hseen₂ hsome hhash
  rcases List.mem_append.mp hr₁ with hold₁ | hnew₁
  · rcases List.mem_append.mp hr₂ with hold₂ | hnew₂
    · exact h projectId r₁ hold₁ r₂ hold₂ hlive₁ hlive₂ hseen₁ hseen₂ hsome hhash
    · obtain rfl := List.mem_singleton.mp hnew₂
      exact absurd hhash (hnew projectId r₁ hold₁ hlive₁ hseen₂ hseen₁)
  · obtain rfl := List.mem_singleton.mp hnew₁
    rcases List.mem_append.mp hr₂ with hold₂ | hnew₂
    · exact absurd hhash.symm (hnew projectId r₂ hold₂ hlive₂ hseen₁ hseen₂)
    · exact (List.mem_singleton.mp hnew₂).symm

theorem Chains.inserted (h : Chains t.rows) (hinsert : t.insert r = some t')
    (hstatus : r.status ≠ supersededStatus) (hnone : r.supersededBy = none) :
    Chains t'.rows := by
  rw [(Table.insert_eq_some hinsert).1]
  constructor
  · intro r₁ hr₁ hsuperseded
    rcases List.mem_append.mp hr₁ with hr₁ | hr₁
    · obtain ⟨r₂, hr₂, hnext⟩ := h.successor r₁ hr₁ hsuperseded
      exact ⟨r₂, List.mem_append_left _ hr₂, hnext⟩
    · rw [List.mem_singleton.mp hr₁] at hsuperseded
      exact absurd hsuperseded hstatus
  · have hsame : Supersedes (t.rows ++ [r]) = Supersedes t.rows := by
      funext a c
      refine propext ⟨?_, ?_⟩
      · rintro ⟨r₁, hr₁, ha, hc⟩
        rcases List.mem_append.mp hr₁ with hr₁ | hr₁
        · exact ⟨r₁, hr₁, ha, hc⟩
        · rw [List.mem_singleton.mp hr₁, hnone] at hc
          exact absurd hc (by simp)
      · rintro ⟨r₁, hr₁, ha, hc⟩
        exact ⟨r₁, List.mem_append_left _ hr₁, ha, hc⟩
    rw [hsame]
    exact h.acyclic

/-- The successor is there, and names no successor of its own. -/
theorem Chains.replaced (h : Chains t.rows) (hr : r ∈ t.rows) (hid : r.id = newId)
    (hne : newId ≠ oldId) (hnone : r.supersededBy = none) :
    Chains (t.update (MemoryRow.isLiveAt oldId) (MemoryRow.superseded now newId)
      (MemoryRow.superseded_id now newId)).rows := by
  have hkeys : ∀ r₁ ∈ t.rows, ∃ r₂ ∈ (t.update (MemoryRow.isLiveAt oldId)
      (MemoryRow.superseded now newId) (MemoryRow.superseded_id now newId)).rows,
      r₂.id = r₁.id := by
    intro r₁ hr₁
    refine ⟨_, Table.mem_update.mpr ⟨r₁, hr₁, rfl⟩, ?_⟩
    split_ifs <;> rfl
  constructor
  · intro r₁ hr₁ hsuperseded
    obtain ⟨r₀, hr₀, rfl⟩ := Table.mem_update.mp hr₁
    split_ifs with hlive
    · obtain ⟨r₂, hr₂, hid₂⟩ := hkeys r hr
      exact ⟨r₂, hr₂, congrArg some (hid.symm.trans hid₂.symm)⟩
    · rw [if_neg hlive] at hsuperseded
      obtain ⟨r', hr', hnext⟩ := h.successor r₀ hr₀ hsuperseded
      obtain ⟨r₂, hr₂, hid₂⟩ := hkeys r' hr'
      exact ⟨r₂, hr₂, by rw [hid₂, hnext]⟩
  · apply acyclic_of_sink newId h.acyclic
    · rintro a c ⟨r₁, hr₁, ha, hc⟩
      obtain ⟨r₀, hr₀, rfl⟩ := Table.mem_update.mp hr₁
      split_ifs at ha hc
      · exact Or.inr (Option.some.inj hc).symm
      · exact Or.inl ⟨r₀, hr₀, ha, hc⟩
    · rintro c ⟨r₁, hr₁, ha, hc⟩
      obtain ⟨r₀, hr₀, rfl⟩ := Table.mem_update.mp hr₁
      split_ifs at ha hc with hlive
      · have hold : r₀.id = oldId := of_decide_eq_true (Bool.and_eq_true_iff.mp hlive).1
        exact hne (ha.symm.trans hold)
      · rw [Table.eq_of_key hr₀ hr (ha.trans hid.symm), hnone] at hc
        exact absurd hc (by simp)

/-! The row that an item writes. -/

theorem itemRow_sourceHash :
    (itemRow env batch item).sourceHash = some (memoryHash env item.mem.body) := rfl

theorem itemRow_status (h : (batch.decision env item.mem).isDuplicate = false) :
    (itemRow env batch item).status ≠ supersededStatus := by
  change batch.itemStatus env item.mem ≠ supersededStatus
  rcases itemStatus_live h with hstatus | hstatus
  · rw [hstatus]
    decide
  · rw [hstatus]
    decide

/-- Whoever sees the new row sees at most what the batch has seen. -/
theorem visible_of_itemRow {projectId : Text}
    (h : (itemRow env batch item).visibleTo (some projectId) = true)
    (hr : r.visibleTo (some projectId) = true) : r.visibleTo batch.projectId = true := by
  have hproject : batch.projectId = none ∨ batch.projectId = some projectId := by
    rcases of_decide_eq_true h with hscope | hnone | hproject
    · change some batch.scope = some profileScope at hscope
      unfold Batch.scope at hscope
      split_ifs at hscope with hsome
      · exact absurd (Option.some.inj hscope) (by decide)
      · exact Or.inl (Option.not_isSome_iff_eq_none.mp hsome)
    · exact absurd hnone (by simp)
    · exact Or.inr hproject
  rcases hproject with hnone | hsome
  · rw [hnone]
    exact decide_eq_true (Or.inr (Or.inl rfl))
  · rw [hsome]
    exact hr

namespace Consolidation

variable {c : Consolidation} {op : ConsolidateOp} {ops : List ConsolidateOp}

/-- One copy of each claim, whatever the batch has written; what it has not written it has read,
and what it has read is still there unless it was replaced. -/
structure Kept (env : MemoryEnv) (c : Consolidation) : Prop where
  oneLive : OneLive c.rows
  seen : ∀ r ∈ c.rows, r.isLive = true → r.visibleTo c.batch.projectId = true →
    ∀ hash, r.sourceHash = some hash →
      (∃ r₀ ∈ c.batch.existing, r₀.isLive = true ∧ r₀.sourceHash = some hash) ∨
        ∃ em ∈ c.earlier, memoryHash env em.body = hash
  there : ∀ r ∈ c.batch.existing, r.isActive = true →
    r ∈ c.rows ∨ ∃ em ∈ c.earlier, c.batch.decision env em = .supersede r.id

theorem mem_existing {args : PromoteArgs} : r ∈ (loadBatch env s args).existing ↔
    r ∈ s.db.memories.rows ∧ r.visibleTo (loadBatch env s args).projectId = true ∧
      r.isLive = true := by
  unfold loadBatch MemoryDb.listMemoriesFiltered
  simp only [List.mem_filter, (env.listing.perm _).mem_iff, true_or, decide_true, Bool.and_true,
    and_assoc]

theorem kept_load {args : PromoteArgs} (h : OneLive s.db.memories.rows) :
    Kept env (load env s args) := by
  constructor
  · exact h
  · intro r hr hlive hseen hash hhash
    exact Or.inl ⟨r, mem_existing.mpr ⟨hr, hseen, hlive⟩, hlive, hhash⟩
  · intro r hr _
    exact Or.inl (mem_existing.mp hr).1

/-- A new row has a fingerprint that nothing it meets has. -/
theorem newRow_hash (h : Kept env c) (hguard : c.ItemInOrder env item)
    (hnew : (c.batch.decision env item.mem).isDuplicate = false) (projectId : Text)
    (hr : r ∈ c.rows) (hlive : r.isLive = true)
    (hseen : (itemRow env c.batch item).visibleTo (some projectId) = true)
    (hseen' : r.visibleTo (some projectId) = true) :
    r.sourceHash ≠ (itemRow env c.batch item).sourceHash := by
  rw [itemRow_sourceHash]
  intro hhash
  rcases h.seen r hr hlive (visible_of_itemRow hseen hseen') _ hhash with
    ⟨r₀, hr₀, hlive₀, hhash₀⟩ | ⟨em, hem, hhash₀⟩
  · exact sourceHash_of_not_duplicate hnew hr₀ hlive₀ hhash₀
  · exact hguard.newHash hnew em hem hhash₀

theorem inOrder_load {args : PromoteArgs} : c.InOrder env (.load args) :=
  fun _ h => absurd h (by simp)

theorem inOrder_duplicate (existingId : Text)
    (h : c.batch.decision env item.mem = .duplicate existingId) : c.InOrder env (.item item) := by
  intro item' hitem
  obtain rfl := ConsolidateOp.item.inj hitem
  constructor
  · intro hnew
    rw [h] at hnew
    exact absurd hnew (by simp [Decision.isDuplicate])
  · intro oldId hold
    exact absurd (h.symm.trans hold) (by simp)
  · intro oldId hold
    exact absurd (h.symm.trans hold) (by simp)

theorem inOrder_promote (status : MemoryStatus)
    (h : c.batch.decision env item.mem = .promote status)
    (hnew : ∀ em ∈ c.earlier, memoryHash env em.body ≠ memoryHash env item.mem.body) :
    c.InOrder env (.item item) := by
  intro item' hitem
  obtain rfl := ConsolidateOp.item.inj hitem
  constructor
  · exact fun _ => hnew
  · intro oldId hold
    exact absurd (h.symm.trans hold) (by simp)
  · intro oldId hold
    exact absurd (h.symm.trans hold) (by simp)

theorem rows_item : (c.step env (.item item)).rows =
    (c.batch.promoteItem env (c.store, c.stats) item).1.db.memories.rows := rfl

theorem kept_item (h : Kept env c) (hguard : c.ItemInOrder env item) :
    Kept env (c.step env (.item item)) := by
  rcases promoteItem_rows env c.batch c.store c.stats item with
    ⟨-, hsame⟩ | ⟨memories, hnew, ⟨-, hinsert⟩, hrows⟩
  · have hrows : (c.step env (.item item)).rows = c.rows := by rw [rows_item, hsame]; rfl
    constructor
    · rw [hrows]
      exact h.oneLive
    · intro r hr hlive hseen hash hhash
      rw [hrows] at hr
      exact (h.seen r hr hlive hseen hash hhash).imp id fun ⟨em, hem, he⟩ =>
        ⟨em, List.mem_append_left _ hem, he⟩
    · intro r hr hactive
      rw [hrows]
      exact (h.there r hr hactive).imp id fun ⟨em, hem, he⟩ =>
        ⟨em, List.mem_append_left _ hem, he⟩
  · have hone : OneLive memories.rows :=
      h.oneLive.inserted hinsert fun projectId r hr hlive hseen hseen' =>
        newRow_hash h hguard hnew projectId hr hlive hseen hseen'
    have hseen : ∀ r ∈ memories.rows, r.isLive = true → r.visibleTo c.batch.projectId = true →
        ∀ hash, r.sourceHash = some hash →
          (∃ r₀ ∈ c.batch.existing, r₀.isLive = true ∧ r₀.sourceHash = some hash) ∨
            ∃ em ∈ c.earlier ++ [item.mem], memoryHash env em.body = hash := by
      intro r hr hlive hseen hash hhash
      rw [(Table.insert_eq_some hinsert).1] at hr
      rcases List.mem_append.mp hr with hold | hitem
      · exact (h.seen r hold hlive hseen hash hhash).imp id fun ⟨em, hem, he⟩ =>
          ⟨em, List.mem_append_left _ hem, he⟩
      · rw [List.mem_singleton.mp hitem, itemRow_sourceHash] at hhash
        exact Or.inr ⟨item.mem, List.mem_append_right _ (List.mem_singleton_self _),
          Option.some.inj hhash⟩
    have hthere : ∀ r ∈ c.batch.existing, r.isActive = true → r ∈ memories.rows ∨
        ∃ em ∈ c.earlier ++ [item.mem], c.batch.decision env em = .supersede r.id := by
      intro r hr hactive
      rw [(Table.insert_eq_some hinsert).1]
      exact (h.there r hr hactive).imp (List.mem_append_left _) fun ⟨em, hem, he⟩ =>
        ⟨em, List.mem_append_left _ hem, he⟩
    rcases hrows with hrows | ⟨oldId, hold, hrows⟩
    · exact ⟨by rw [rows_item, hrows]; exact hone, by rw [rows_item, hrows]; exact hseen,
        by rw [rows_item, hrows]; exact hthere⟩
    · constructor
      · rw [rows_item, hrows]
        exact hone.replaced
      · rw [rows_item, hrows]
        intro r hr hlive
        exact hseen r (live_of_replaced hr hlive) hlive
      · rw [rows_item, hrows]
        intro r hr hactive
        by_cases hid : r.id = oldId
        · refine Or.inr ⟨item.mem, List.mem_append_right _ (List.mem_singleton_self _), ?_⟩
          rw [hid]
          exact hold
        · refine (hthere r hr hactive).imp (fun hmem => mem_replaced hmem ?_) id
          rw [MemoryRow.isLiveAt, decide_eq_false hid, Bool.false_and]

theorem kept_step (h : Kept env c) (hguard : c.InOrder env op) : Kept env (c.step env op) := by
  cases op with
  | load args => exact kept_load h.oneLive
  | item item => exact kept_item h (hguard item rfl)

theorem failsClean_step (h : Kept env c) (hguard : c.InOrder env op) : c.FailsClean env op := by
  intro item oldId hop hold herrors
  subst hop
  have horder := hguard item rfl
  obtain ⟨hcreated, hreplaced, hne⟩ := horder.newEvents oldId hold
  rcases MemoryStore.appendFull_cases c.store item.now item.created
    (c.batch.newMemory env item.id item.mem (c.batch.successorStatus item.mem)) with
    ⟨-, e, happend⟩ |
      ⟨memories, ⟨-, hinsert⟩, ⟨event, events, hevent, hevents, happend⟩ | ⟨htaken, -⟩⟩
  · rw [rows_item]
    unfold Batch.promoteItem
    simp only [hold, happend]
    rfl
  · -- The old memory is still there, so that the replacement goes through.
    exfalso
    obtain ⟨hstore, hok⟩ := promoteItem_supersede c.stats hold happend
    obtain ⟨-, r, hr, hactive, rfl⟩ := decision_supersede hold
    have hthere : r ∈ c.rows := (h.there r hr hactive).resolve_right fun ⟨em, hem, he⟩ =>
      horder.newOld r.id hold em hem he
    have hmem : r ∈ memories.rows := by
      rw [(Table.insert_eq_some hinsert).1]
      exact List.mem_append_left _ hthere
    have hlive : r.isLiveAt r.id = true :=
      Bool.and_eq_true_iff.mpr ⟨decide_eq_true rfl, MemoryRow.isLive_of_isActive hactive⟩
    have hfind : events.find item.replaced.id = none := by
      rw [Table.find_insert_of_ne hevents (hevent ▸ hne)]
      exact hreplaced
    rcases MemoryStore.supersede_cases env
      ⟨{ c.store.db with memories := memories, events := events }, none⟩ item.now
      item.replaced r.id item.id with ⟨hcount, -⟩ | ⟨-, -, -, hdone | htaken⟩
    · rw [Table.count_eq_zero.mp hcount r hmem] at hlive
      exact absurd hlive (by simp)
    · exact herrors (hok hdone)
    · exact htaken hfind
  · exact absurd hcreated htaken

/-! The chains of successors need no order of the items. -/

/-- Sound chains, and all that the batch has read is still in the table. -/
structure Linked (c : Consolidation) : Prop where
  chains : Chains c.rows
  ids : ∀ r ∈ c.batch.existing, ∃ r' ∈ c.rows, r'.id = r.id

theorem linked_load {args : PromoteArgs} (h : Chains s.db.memories.rows) :
    Linked (load env s args) :=
  ⟨h, fun r hr => ⟨r, (mem_existing.mp hr).1, rfl⟩⟩

theorem linked_item (h : Linked c) : Linked (c.step env (.item item)) := by
  rcases promoteItem_rows env c.batch c.store c.stats item with
    ⟨-, hsame⟩ | ⟨memories, hnew, ⟨-, hinsert⟩, hrows⟩
  · have hrows : (c.step env (.item item)).rows = c.rows := by rw [rows_item, hsame]; rfl
    exact ⟨by rw [hrows]; exact h.chains, by rw [hrows]; exact h.ids⟩
  · obtain ⟨happend, hfresh⟩ := Table.insert_eq_some hinsert
    have hinserted : Chains memories.rows :=
      Chains.inserted h.chains hinsert (itemRow_status hnew) rfl
    have hids : ∀ r ∈ c.batch.existing, ∃ r' ∈ memories.rows, r'.id = r.id := by
      intro r hr
      obtain ⟨r', hr', hid⟩ := h.ids r hr
      rw [happend]
      exact ⟨r', List.mem_append_left _ hr', hid⟩
    rcases hrows with hrows | ⟨oldId, hold, hrows⟩
    · exact ⟨by rw [rows_item, hrows]; exact hinserted, by rw [rows_item, hrows]; exact hids⟩
    · obtain ⟨-, r, hr, -, rfl⟩ := decision_supersede hold
      have hne : item.id ≠ r.id := by
        obtain ⟨r', hr', hid⟩ := h.ids r hr
        intro heq
        exact hfresh r' hr' (hid.trans heq.symm)
      have hrow : itemRow env c.batch item ∈ memories.rows := by
        rw [happend]
        exact List.mem_append_right _ (List.mem_singleton_self _)
      constructor
      · rw [rows_item, hrows]
        exact hinserted.replaced hrow rfl hne rfl
      · intro r₁ hr₁
        obtain ⟨r', hr', hid⟩ := hids r₁ hr₁
        rw [rows_item, hrows]
        refine ⟨_, Table.mem_update.mpr ⟨r', hr', rfl⟩, ?_⟩
        split_ifs
        · exact hid
        · exact hid

theorem linked_step (h : Linked c) : Linked (c.step env op) := by
  cases op with
  | load args => exact linked_load h.chains
  | item item => exact linked_item h

/-- A memory that was replaced stays as it is. -/
theorem superseded_step (hr : r ∈ c.rows) (hstatus : r.status = supersededStatus) :
    r ∈ (c.step env op).rows := by
  cases op with
  | load args => exact hr
  | item item =>
    rw [rows_item]
    rcases promoteItem_rows env c.batch c.store c.stats item with
      ⟨-, hsame⟩ | ⟨memories, -, ⟨-, hinsert⟩, hrows⟩
    · rw [hsame]
      exact hr
    · have hmem : r ∈ memories.rows := by
        rw [(Table.insert_eq_some hinsert).1]
        exact List.mem_append_left _ hr
      have hnotLive (oldId : Text) : r.isLiveAt oldId = false := by
        unfold MemoryRow.isLiveAt MemoryRow.isLive
        rw [hstatus, Bool.and_eq_false_iff]
        exact Or.inr (by decide)
      rcases hrows with hrows | ⟨oldId, -, hrows⟩
      · rw [hrows]
        exact hmem
      · rw [hrows]
        exact mem_replaced hmem (hnotLive oldId)

theorem superseded_run (hr : r ∈ c.rows) (hstatus : r.status = supersededStatus) :
    r ∈ (run (step env) c ops).rows := by
  have hstep : ∀ c op, r ∈ c.rows → True → r ∈ (step env c op).rows :=
    fun _ _ hr _ => superseded_step hr hstatus
  exact run_invariant hstep hr allSteps_true

end Consolidation

def emptyStore : MemoryStore := ⟨⟨Table.empty, Table.empty, []⟩, none⟩

def extraction (id body : String) : Extraction :=
  { mem := { body := body.toList }
    now := "10:00".toList
    id := id.toList
    created := ⟨("created-" ++ id).toList, "10:00".toList⟩
    replaced := ⟨("replaced-" ++ id).toList, "10:00".toList⟩ }

def batchOf (extracted : List Extraction) : PromoteArgs :=
  { extracted := extracted, projectId := none, evidence := [], cfg := {} }

/-- Two batches that keep the order: the item of the second one is a duplicate. -/
def twoBatches : List PromoteArgs :=
  [batchOf [extraction "m1" "Rust", extraction "m2" "Go"], batchOf [extraction "m3" "rust"]]

end DeepseekScience.Memory
