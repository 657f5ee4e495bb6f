import DeepseekScience.Memory.OneLiveCopy
import DeepseekScience.Memory.Recall

/-! The life cycle of a memory: the endpoints that change its status, the retention sweep, and what
stays final over a run of them. -/
namespace DeepseekScience.Memory

open Db Runs Tables

/-! The endpoints. -/

/-- What a request is refused with. -/
inductive ApiError where
  | badRequest (message : Text)
  | db (e : DbError)

def ApiError.status : ApiError → ℕ
  | .badRequest _ => 400
  | .db (.notFound _) => 404
  | .db (.conflict _) => 409
  | .db _ => 500

structure CreateBody where
  body : Text
  scope : Option Text := none
  projectId : Option Text := none
  claimType : Option Text := none
  confidence : Option ℚ := none

def mapDbErr {α : Type} (answer : Except DbError α × MemoryStore) :
    Except ApiError α × MemoryStore :=
  (answer.1.mapError .db, answer.2)

/-- `freshId` is the generated id. -/
def createMemory (env : MemoryEnv) (now freshId : Text) (audit : Audit) (b : CreateBody)
    (s : MemoryStore) : Except ApiError MemoryRow × MemoryStore :=
  if (trim b.body).isEmpty then (.error (.badRequest "body must not be empty".toList), s)
  else
    let scope := b.scope.or (if b.projectId.isSome then some "project".toList
      else some profileScope)
    mapDbErr (s.appendFull now audit
      { id := freshId
        body := b.body
        scope := scope
        projectId := b.projectId
        confidence := b.confidence
        claimType := b.claimType
        status := some activeStatus
        origin := some "explicit".toList
        sourceHash := some (memoryHash env b.body) })

def editMemory (env : MemoryEnv) (now : Text) (audit : Audit) (id body : Text) (s : MemoryStore) :
    Except ApiError Unit × MemoryStore :=
  if (trim body).isEmpty then (.error (.badRequest "body must not be empty".toList), s)
  else mapDbErr (s.editBody env now audit id body (some "user".toList))

def deleteMemory (now : Text) (audit : Audit) (id : Text) (s : MemoryStore) :
    Except ApiError Unit × MemoryStore :=
  mapDbErr (s.softDelete now audit id)

def approveMemory (now : Text) (audit : Audit) (id : Text) (s : MemoryStore) :
    Except ApiError Unit × MemoryStore :=
  mapDbErr (s.updateStatus now audit id activeStatus (some "user".toList))

def rejectMemory (now : Text) (audit : Audit) (id : Text) (s : MemoryStore) :
    Except ApiError Unit × MemoryStore :=
  mapDbErr (s.updateStatus now audit id deletedStatus (some "user".toList))

/-! Retention. -/

structure RetentionConfig where
  staleDays : ℤ := 90
  lowUsageConfidence : ℚ := 3 / 10

structure RetentionStats where
  expired : ℕ := 0
  demotedToCandidate : ℕ := 0
  errors : ℕ := 0
  deriving DecidableEq

def expiredStatus : Text := "expired".toList

/-- What the sweep does to an active memory. -/
def sweepAction (cfg : RetentionConfig) (nowIso staleCutoffIso : Text) (m : MemoryRow) :
    Option Text :=
  if m.validUntil.any fun until' => decide (until' < nowIso) then some expiredStatus
  else if (m.lastSurfacedAt.all fun t => decide (t < staleCutoffIso)) &&
      decide (m.confidence < cfg.lowUsageConfidence) then some candidateStatus
  else none

/-- One turn of the sweep. `stamp` has the time and the audit event of the update of a memory. -/
def sweepRow (cfg : RetentionConfig) (nowIso staleCutoffIso : Text) (stamp : Text → Text × Audit)
    (acc : MemoryStore × RetentionStats) (m : MemoryRow) : MemoryStore × RetentionStats :=
  let (s, stats) := acc
  match sweepAction cfg nowIso staleCutoffIso m with
  | none => (s, stats)
  | some status =>
    match s.updateStatus (stamp m.id).1 (stamp m.id).2 m.id status (some "retention".toList) with
    | (.error _, s') => (s', { stats with errors := stats.errors + 1 })
    | (.ok (), s') =>
      if status = expiredStatus then (s', { stats with expired := stats.expired + 1 })
      else (s', { stats with demotedToCandidate := stats.demotedToCandidate + 1 })

def sweep (env : MemoryEnv) (cfg : RetentionConfig) (nowIso staleCutoffIso : Text)
    (stamp : Text → Text × Audit) (s : MemoryStore) : MemoryStore × RetentionStats :=
  (s.db.listMemoriesFiltered env.listing none none (some activeStatus)).foldl
    (sweepRow cfg nowIso staleCutoffIso stamp) (s, {})

/-! Runs. -/

inductive LifeOp where
  | create (now freshId : Text) (audit : Audit) (b : CreateBody)
  | edit (now : Text) (audit : Audit) (id body : Text)
  | delete (now : Text) (audit : Audit) (id : Text)
  | approve (now : Text) (audit : Audit) (id : Text)
  | reject (now : Text) (audit : Audit) (id : Text)
  | consolidate (args : PromoteArgs)
  | sweep (cfg : RetentionConfig) (nowIso staleCutoffIso : Text) (stamp : Text → Text × Audit)
  | recallRows (now : Text) (order : HashOrder) (query : Text) (projectId : Option Text)
      (topN : ℕ)

def lifeStep (env : MemoryEnv) (s : MemoryStore) : LifeOp → MemoryStore
  | .create now freshId audit b => (createMemory env now freshId audit b s).2
  | .edit now audit id body => (editMemory env now audit id body s).2
  | .delete now audit id => (deleteMemory now audit id s).2
  | .approve now audit id => (approveMemory now audit id s).2
  | .reject now audit id => (rejectMemory now audit id s).2
  | .consolidate args => (promoteCandidates env s args).1
  | .sweep cfg nowIso staleCutoffIso stamp => (sweep env cfg nowIso staleCutoffIso stamp s).1
  | .recallRows now order query projectId topN =>
    (recallRows env now order s query projectId topN).2

/-- The time of deletion and the successor are set exactly for the status that has them. -/
structure StatusFields (r : MemoryRow) : Prop where
  deleted : r.status = deletedStatus ↔ r.deletedAt ≠ none
  superseded : r.status = supersededStatus ↔ r.supersededBy ≠ none

/-- Deleted or superseded. -/
def Finished (r : MemoryRow) : Prop :=
  r.status = deletedStatus ∨ r.status = supersededStatus

/-- Approval asks for a candidate, rejection for no memory at all, and deletion for no memory that
is superseded. -/
def StatusGuard (s : MemoryStore) (op : LifeOp) : Prop :=
  ∀ r ∈ s.db.memories.rows,
    (∀ now audit, op = .approve now audit r.id → r.status = candidateStatus) ∧
    (∀ now audit, op ≠ .reject now audit r.id) ∧
    (∀ now audit, op = .delete now audit r.id → r.status ≠ supersededStatus)

/-- An approval or a rejection changes nothing but a candidate. -/
def ReviewsCandidates (env : MemoryEnv) (s : MemoryStore) (op : LifeOp) : Prop :=
  ∀ r ∈ s.db.memories.rows,
    (∃ now audit, op = .approve now audit r.id ∨ op = .reject now audit r.id) →
    r ∈ (lifeStep env s op).db.memories.rows ∨ r.status = candidateStatus

/-! What an operation may do to a row, and to the table. -/

/-- The row keeps its place, the agreement of its fields, and its end. -/
structure Moves (r r' : MemoryRow) : Prop where
  id : r'.id = r.id
  fields : StatusFields r → StatusFields r'
  finished : Finished r → Finished r'

/-- No row goes away; each row is new or has moved. -/
structure RowsMove (before after : List MemoryRow) : Prop where
  keeps : ∀ r ∈ before, ∃ r' ∈ after, r'.id = r.id
  moves : ∀ r' ∈ after, (StatusFields r' ∧ ∀ r ∈ before, r.id ≠ r'.id) ∨ ∃ r ∈ before, Moves r r'

variable {env : MemoryEnv} {s : MemoryStore} {r r' : MemoryRow} {rows rows' rows'' : List MemoryRow}
  {t t' : Table MemoryRow.id}

theorem Moves.refl (r : MemoryRow) : Moves r r := ⟨rfl, fun h => h, fun h => h⟩

theorem RowsMove.refl (rows : List MemoryRow) : RowsMove rows rows :=
  ⟨fun r hr => ⟨r, hr, rfl⟩, fun r hr => Or.inr ⟨r, hr, Moves.refl r⟩⟩

theorem RowsMove.trans (h : RowsMove rows rows') (h' : RowsMove rows' rows'') :
    RowsMove rows rows'' := by
  constructor
  · intro r hr
    obtain ⟨r', hr', hid⟩ := h.keeps r hr
    obtain ⟨r'', hr'', hid'⟩ := h'.keeps r' hr'
    exact ⟨r'', hr'', hid'.trans hid⟩
  · intro r'' hr''
    rcases h'.moves r'' hr'' with ⟨hfields, hnew⟩ | ⟨r', hr', hmoves'⟩
    · refine Or.inl ⟨hfields, fun r hr hid => ?_⟩
      obtain ⟨r', hr', hid'⟩ := h.keeps r hr
      exact hnew r' hr' (hid'.trans hid)
    · rcases h.moves r' hr' with ⟨hfields, hnew⟩ | ⟨r, hr, hmoves⟩
      · exact Or.inl ⟨hmoves'.fields hfields, fun r hr => hmoves'.id ▸ hnew r hr⟩
      · exact Or.inr ⟨r, hr, hmoves'.id.trans hmoves.id, hmoves'.fields ∘ hmoves.fields,
          hmoves'.finished ∘ hmoves.finished⟩

theorem rowsMove_update {p : MemoryRow → Bool} {f : MemoryRow → MemoryRow}
    (hf : ∀ r, (f r).id = r.id) (h : ∀ r ∈ t.rows, p r = true → Moves r (f r)) :
    RowsMove t.rows (t.update p f hf).rows := by
  constructor
  · intro r hr
    refine ⟨_, Table.mem_update.mpr ⟨r, hr, rfl⟩, ?_⟩
    split_ifs
    · exact hf r
    · rfl
  · intro r' hr'
    obtain ⟨r, hr, rfl⟩ := Table.mem_update.mp hr'
    refine Or.inr ⟨r, hr, ?_⟩
    split_ifs with hp
    · exact h r hr hp
    · exact Moves.refl r

theorem rowsMove_insert (hfields : StatusFields r) (hinsert : t.insert r = some t') :
    RowsMove t.rows t'.rows := by
  obtain ⟨hrows, hfree⟩ := Table.insert_eq_some hinsert
  rw [hrows]
  constructor
  · exact fun r₀ hr₀ => ⟨r₀, List.mem_append_left _ hr₀, rfl⟩
  · intro r' hr'
    rcases List.mem_append.mp hr' with hr' | hr'
    · exact Or.inr ⟨r', hr', Moves.refl r'⟩
    · obtain rfl := List.mem_singleton.mp hr'
      exact Or.inl ⟨hfields, hfree⟩

/-! The assignments. -/

theorem statusFields_plain (hdeleted : r.status ≠ deletedStatus)
    (hsuperseded : r.status ≠ supersededStatus) (hat : r.deletedAt = none)
    (hby : r.supersededBy = none) : StatusFields r :=
  ⟨⟨fun h => absurd h hdeleted, fun h => absurd hat h⟩,
    ⟨fun h => absurd h hsuperseded, fun h => absurd hby h⟩⟩

theorem moves_surfaced {now : Text} : Moves r (r.surfaced now) :=
  ⟨rfl, fun h => ⟨h.deleted, h.superseded⟩, id⟩

theorem moves_withBody {now body : Text} {sourceHash : Option Text} :
    Moves r (r.withBody now body sourceHash) :=
  ⟨rfl, fun h => ⟨h.deleted, h.superseded⟩, id⟩

theorem moves_softDeleted {now : Text} (h : r.status ≠ supersededStatus) :
    Moves r (r.softDeleted now) := by
  constructor
  · rfl
  · intro hfields
    have hby : r.supersededBy = none := by
      by_contra hby
      exact h (hfields.superseded.mpr hby)
    exact ⟨⟨fun _ => by simp [MemoryRow.softDeleted], fun _ => rfl⟩,
      ⟨fun hstatus => absurd hstatus (show deletedStatus ≠ supersededStatus by decide),
        fun hne => absurd hby hne⟩⟩
  · exact fun _ => Or.inl rfl

/-- A memory that is not finished may get any status that is not final. -/
theorem moves_withStatus {now status : Text} (h : ¬ Finished r)
    (hdeleted : status ≠ deletedStatus) (hsuperseded : status ≠ supersededStatus) :
    Moves r (r.withStatus now status) := by
  constructor
  · rfl
  · intro hfields
    apply statusFields_plain hdeleted hsuperseded
    · by_contra hat
      exact h (Or.inl (hfields.deleted.mpr hat))
    · by_contra hby
      exact h (Or.inr (hfields.superseded.mpr hby))
  · exact fun hfinished => absurd hfinished h

theorem not_finished_of_live (h : r.isLive = true) : ¬ Finished r := by
  rintro (hstatus | hstatus)
  · rcases of_decide_eq_true h with h | h
    · exact absurd (hstatus.symm.trans h) (by decide)
    · exact absurd (hstatus.symm.trans h) (by decide)
  · rcases of_decide_eq_true h with h | h
    · exact absurd (hstatus.symm.trans h) (by decide)
    · exact absurd (hstatus.symm.trans h) (by decide)

theorem moves_superseded {now newId : Text} (h : r.isLive = true) :
    Moves r (r.superseded now newId) := by
  have hnot := not_finished_of_live h
  constructor
  · rfl
  · intro hfields
    have hat : r.deletedAt = none := by
      by_contra hat
      exact hnot (Or.inl (hfields.deleted.mpr hat))
    exact ⟨⟨fun hstatus => absurd hstatus (show supersededStatus ≠ deletedStatus by decide),
        fun hne => absurd hat hne⟩,
      ⟨fun _ => by simp [MemoryRow.superseded], fun _ => rfl⟩⟩
  · exact fun _ => Or.inr rfl

/-! The operations. -/

theorem rowsMove_appendFull {now : Text} {audit : Audit} {m : NewMemory}
    (h : StatusFields (m.row now)) :
    RowsMove s.db.memories.rows (s.appendFull now audit m).2.db.memories.rows := by
  unfold MemoryStore.appendFull
  rw [MemoryStore.audited_memories]
  rcases MemoryDb.appendMemoryFull_cases s.db now m with ⟨-, hw⟩ | ⟨memories, ⟨-, hinsert⟩, hw⟩
  · rw [hw]
    exact RowsMove.refl _
  · rw [hw]
    exact rowsMove_insert h hinsert

theorem updateStatus_memories (now : Text) (audit : Audit) (id status : Text)
    (actor : Option Text) : (s.updateStatus now audit id status actor).2.db.memories =
      s.db.memories.update (fun r => decide (r.id = id)) (MemoryRow.withStatus now status)
        (MemoryRow.withStatus_id now status) := by
  unfold MemoryStore.updateStatus
  rw [MemoryStore.audited_memories]
  exact MemoryDb.updateMemory_memories s.db _ _

theorem rowsMove_updateStatus {now : Text} {audit : Audit} {id status : Text}
    {actor : Option Text} (h : ∀ r ∈ s.db.memories.rows, r.id = id → ¬ Finished r)
    (hdeleted : status ≠ deletedStatus) (hsuperseded : status ≠ supersededStatus) :
    RowsMove s.db.memories.rows (s.updateStatus now audit id status actor).2.db.memories.rows := by
  rw [updateStatus_memories]
  exact rowsMove_update (MemoryRow.withStatus_id now status) fun r hr hp =>
    moves_withStatus (h r hr (of_decide_eq_true hp)) hdeleted hsuperseded

theorem rowsMove_promoteItem {batch : Batch} {stats : ConsolidateStats} {item : Extraction} :
    RowsMove s.db.memories.rows
      (batch.promoteItem env (s, stats) item).1.db.memories.rows := by
  rcases promoteItem_rows env batch s stats item with
    ⟨-, hsame⟩ | ⟨memories, hnew, ⟨-, hinsert⟩, hrows⟩
  · rw [hsame]
    exact RowsMove.refl _
  · have hdeleted : (itemRow env batch item).status ≠ deletedStatus := by
      change batch.itemStatus env item.mem ≠ deletedStatus
      rcases itemStatus_live hnew with hstatus | hstatus
      · rw [hstatus]
        decide
      · rw [hstatus]
        decide
    have hfields : StatusFields (itemRow env batch item) :=
      statusFields_plain hdeleted (itemRow_status hnew) rfl rfl
    have hinserted := rowsMove_insert hfields hinsert
    rcases hrows with hrows | ⟨oldId, -, hrows⟩
    · rw [hrows]
      exact hinserted
    · rw [hrows]
      exact hinserted.trans (rowsMove_update (MemoryRow.superseded_id item.now item.id) fun r _ hp =>
        moves_superseded (Bool.and_eq_true_iff.mp hp).2)

theorem rowsMove_promoteCandidates {args : PromoteArgs} :
    RowsMove s.db.memories.rows (promoteCandidates env s args).1.db.memories.rows := by
  have hfold : ∀ (items : List Extraction) (batch : Batch) (s : MemoryStore)
      (stats : ConsolidateStats), RowsMove s.db.memories.rows
        (items.foldl (batch.promoteItem env) (s, stats)).1.db.memories.rows := by
    intro items batch
    induction items with
    | nil => exact fun _ _ => RowsMove.refl _
    | cons item items ih => exact fun s stats => rowsMove_promoteItem.trans (ih _ _)
  unfold promoteCandidates
  split_ifs
  · exact RowsMove.refl _
  · exact hfold _ _ _ _

theorem rowsMove_recallRows {now query : Text} {order : HashOrder} {projectId : Option Text}
    {topN : ℕ} : RowsMove s.db.memories.rows
      (recallRows env now order s query projectId topN).2.db.memories.rows := by
  obtain ⟨ids, hstore⟩ := recallRows_store env s projectId now order query topN
  rw [hstore]
  unfold MemoryStore.touchSurfaced
  split_ifs
  · rw [loadIndex_db]
    exact RowsMove.refl _
  · dsimp only
    rw [loadIndex_db]
    exact rowsMove_update (MemoryRow.surfaced_id now) fun _ _ _ => moves_surfaced

/-! The sweep. -/

variable {cfg : RetentionConfig} {nowIso staleCutoffIso : Text} {stamp : Text → Text × Audit}

theorem sweepAction_status {m : MemoryRow} {status : Text}
    (h : sweepAction cfg nowIso staleCutoffIso m = some status) :
    status = expiredStatus ∨ status = candidateStatus := by
  unfold sweepAction at h
  split_ifs at h
  · exact Or.inl (Option.some.inj h).symm
  · exact Or.inr (Option.some.inj h).symm

/-- The memories behind one turn of the sweep. -/
theorem sweepRow_memories (cfg : RetentionConfig) (nowIso staleCutoffIso : Text)
    (stamp : Text → Text × Audit) (acc : MemoryStore × RetentionStats) (m : MemoryRow) :
    (sweepAction cfg nowIso staleCutoffIso m = none ∧
      sweepRow cfg nowIso staleCutoffIso stamp acc m = acc) ∨
    ∃ status, (status = expiredStatus ∨ status = candidateStatus) ∧
      (sweepRow cfg nowIso staleCutoffIso stamp acc m).1.db.memories =
        acc.1.db.memories.update (fun r => decide (r.id = m.id))
          (MemoryRow.withStatus (stamp m.id).1 status)
          (MemoryRow.withStatus_id (stamp m.id).1 status) := by
  obtain ⟨s, stats⟩ := acc
  unfold sweepRow
  cases haction : sweepAction cfg nowIso staleCutoffIso m with
  | none => exact Or.inl ⟨rfl, rfl⟩
  | some status =>
    refine Or.inr ⟨status, sweepAction_status haction, ?_⟩
    rw [← updateStatus_memories (stamp m.id).1 (stamp m.id).2 m.id status
      (some "retention".toList)]
    dsimp only
    split
    · next e s' hs => rw [hs]
    · next s' hs =>
      rw [hs]
      split_ifs <;> rfl

theorem withStatus_not_finished (r : MemoryRow) (now : Text) {status : Text}
    (h : status = expiredStatus ∨ status = candidateStatus) :
    status ≠ deletedStatus ∧ status ≠ supersededStatus ∧
      ¬ Finished (r.withStatus now status) := by
  have hdeleted : status ≠ deletedStatus := by rcases h with rfl | rfl <;> decide
  have hsuperseded : status ≠ supersededStatus := by rcases h with rfl | rfl <;> decide
  exact ⟨hdeleted, hsuperseded, fun hfinished => hfinished.elim hdeleted hsuperseded⟩

theorem rowsMove_sweepRows (ms : List MemoryRow) (acc : MemoryStore × RetentionStats)
    (h : ∀ r ∈ acc.1.db.memories.rows, ∀ m ∈ ms, r.id = m.id → ¬ Finished r) :
    RowsMove acc.1.db.memories.rows
      (ms.foldl (sweepRow cfg nowIso staleCutoffIso stamp) acc).1.db.memories.rows := by
  induction ms generalizing acc with
  | nil => exact RowsMove.refl _
  | cons m ms ih =>
    rw [List.foldl_cons]
    have hrest : ∀ r ∈ acc.1.db.memories.rows, ∀ m' ∈ ms, r.id = m'.id → ¬ Finished r :=
      fun r hr m' hm' => h r hr m' (List.mem_cons_of_mem _ hm')
    rcases sweepRow_memories cfg nowIso staleCutoffIso stamp acc m with
      ⟨-, hsame⟩ | ⟨status, hstatus, hrows⟩
    · rw [hsame]
      exact ih acc hrest
    · obtain ⟨hdeleted, hsuperseded, -⟩ := withStatus_not_finished m nowIso hstatus
      have hfirst : RowsMove acc.1.db.memories.rows
          (sweepRow cfg nowIso staleCutoffIso stamp acc m).1.db.memories.rows := by
        rw [hrows]
        exact rowsMove_update _ fun r hr hp => moves_withStatus
          (h r hr m List.mem_cons_self (of_decide_eq_true hp)) hdeleted hsuperseded
      refine hfirst.trans (ih _ ?_)
      intro r hr m' hm' hid
      rw [hrows] at hr
      obtain ⟨r₀, hr₀, rfl⟩ := Table.mem_update.mp hr
      split_ifs at hid ⊢
      · exact (withStatus_not_finished _ _ hstatus).2.2
      · exact hrest r₀ hr₀ m' hm' hid

theorem mem_swept : r ∈ s.db.listMemoriesFiltered env.listing none none (some activeStatus) ↔
    r ∈ s.db.memories.rows ∧ r.isActive = true := by
  unfold MemoryDb.listMemoriesFiltered MemoryRow.visibleTo MemoryRow.isActive
  simp only [(env.listing.perm _).mem_iff, List.mem_filter, true_or, or_true, decide_true,
    Bool.true_and, reduceCtorEq, false_or, Option.some.injEq]

theorem rowsMove_sweep : RowsMove s.db.memories.rows
    (sweep env cfg nowIso staleCutoffIso stamp s).1.db.memories.rows := by
  apply rowsMove_sweepRows _ (s, {})
  intro r hr m hm hid
  obtain ⟨hm, hactive⟩ := mem_swept.mp hm
  rw [Table.eq_of_key hr hm hid]
  exact not_finished_of_live (MemoryRow.isLive_of_isActive hactive)

/-- What a sweep leaves active was active before, and the sweep had nothing to do about it. -/
theorem sweepRows_active (ms : List MemoryRow) (acc : MemoryStore × RetentionStats) :
    ∀ r ∈ (ms.foldl (sweepRow cfg nowIso staleCutoffIso stamp) acc).1.db.memories.rows,
      r.isActive = true → r ∈ acc.1.db.memories.rows ∧
        ∀ m ∈ ms, m.id = r.id → sweepAction cfg nowIso staleCutoffIso m = none := by
  induction ms generalizing acc with
  | nil => exact fun r hr _ => ⟨hr, fun m hm => absurd hm List.not_mem_nil⟩
  | cons m ms ih =>
    intro r hr hactive
    rw [List.foldl_cons] at hr
    obtain ⟨hr', hms⟩ := ih _ r hr hactive
    rcases sweepRow_memories cfg nowIso staleCutoffIso stamp acc m with
      ⟨hnone, hsame⟩ | ⟨status, hstatus, hrows⟩
    · rw [hsame] at hr'
      exact ⟨hr', List.forall_mem_cons.mpr ⟨fun _ => hnone, hms⟩⟩
    · rw [hrows] at hr'
      obtain ⟨r₀, hr₀, rfl⟩ := Table.mem_update.mp hr'
      split_ifs at hactive hms ⊢ with hid
      · have hactive' : status = activeStatus := of_decide_eq_true hactive
        rcases hstatus with rfl | rfl
        · exact absurd hactive' (by decide)
        · exact absurd hactive' (by decide)
      · have hne : r₀.id ≠ m.id := by simpa using hid
        exact ⟨hr₀, List.forall_mem_cons.mpr ⟨fun heq => absurd heq.symm hne, hms⟩⟩

theorem sweepRows_none (ms : List MemoryRow) (acc : MemoryStore × RetentionStats)
    (h : ∀ m ∈ ms, sweepAction cfg nowIso staleCutoffIso m = none) :
    ms.foldl (sweepRow cfg nowIso staleCutoffIso stamp) acc = acc := by
  induction ms with
  | nil => rfl
  | cons m ms ih =>
    obtain ⟨hm, hms⟩ := List.forall_mem_cons.mp h
    rw [List.foldl_cons, sweepRow, hm]
    exact ih hms

/-- A second sweep at the same times changes nothing. -/
theorem sweep_again (env : MemoryEnv) (cfg : RetentionConfig) (nowIso staleCutoffIso : Text)
    (stamp stamp' : Text → Text × Audit) (s : MemoryStore) :
    sweep env cfg nowIso staleCutoffIso stamp'
        (sweep env cfg nowIso staleCutoffIso stamp s).1 =
      ((sweep env cfg nowIso staleCutoffIso stamp s).1, {}) := by
  refine sweepRows_none _ _ fun m hm => ?_
  obtain ⟨hm, hactive⟩ := mem_swept.mp hm
  obtain ⟨hbefore, hnone⟩ := sweepRows_active _ _ m hm hactive
  exact hnone m (mem_swept.mpr ⟨hbefore, hactive⟩) rfl

/-! Runs of the operations. -/

theorem statusFields_create {now freshId : Text} {b : CreateBody} {scope : Option Text} :
    StatusFields (NewMemory.row now
      { id := freshId, body := b.body, scope := scope, projectId := b.projectId,
        confidence := b.confidence, claimType := b.claimType, status := some activeStatus,
        origin := some "explicit".toList, sourceHash := some (memoryHash env b.body) }) :=
  statusFields_plain (show activeStatus ≠ deletedStatus by decide)
    (show activeStatus ≠ supersededStatus by decide) rfl rfl

theorem rowsMove_step {op : LifeOp} (h : StatusGuard s op) :
    RowsMove s.db.memories.rows (lifeStep env s op).db.memories.rows := by
  cases op with
  | create now freshId audit b =>
    unfold lifeStep createMemory
    dsimp only
    split_ifs
    · exact RowsMove.refl _
    all_goals exact rowsMove_appendFull statusFields_create
  | edit now audit id body =>
    unfold lifeStep editMemory
    dsimp only
    split_ifs
    · exact RowsMove.refl _
    · unfold mapDbErr MemoryStore.editBody
      dsimp only
      rw [MemoryStore.audited_memories]
      unfold MemoryDb.updateMemoryBody
      rw [MemoryDb.updateMemory_memories]
      exact rowsMove_update _ fun _ _ _ => moves_withBody
  | delete now audit id =>
    unfold lifeStep deleteMemory mapDbErr MemoryStore.softDelete
    dsimp only
    rw [MemoryStore.audited_memories]
    unfold MemoryDb.softDeleteMemory
    rw [MemoryDb.updateMemory_memories]
    refine rowsMove_update _ fun r hr hp => moves_softDeleted ?_
    have hid : r.id = id := of_decide_eq_true hp
    exact (h r hr).2.2 now audit (by rw [hid])
  | approve now audit id =>
    refine rowsMove_updateStatus ?_ (by decide) (by decide)
    intro r hr hid
    have hstatus := (h r hr).1 now audit (by rw [hid])
    exact not_finished_of_live (decide_eq_true (Or.inr hstatus))
  | reject now audit id =>
    unfold lifeStep rejectMemory mapDbErr
    dsimp only
    rw [updateStatus_memories]
    refine rowsMove_update _ fun r hr hp => ?_
    have hid : r.id = id := of_decide_eq_true hp
    exact absurd (by rw [hid]) ((h r hr).2.1 now audit)
  | consolidate args => exact rowsMove_promoteCandidates
  | sweep cfg nowIso staleCutoffIso stamp => exact rowsMove_sweep
  | recallRows now order query projectId topN => exact rowsMove_recallRows

theorem StatusFields.step {op : LifeOp} (h : ∀ r ∈ s.db.memories.rows, StatusFields r)
    (hguard : StatusGuard s op) :
    ∀ r ∈ (lifeStep env s op).db.memories.rows, StatusFields r := by
  intro r' hr'
  rcases (rowsMove_step hguard).moves r' hr' with ⟨hfields, -⟩ | ⟨r, hr, hmoves⟩
  · exact hfields
  · exact hmoves.fields (h r hr)

theorem reviews_step {op : LifeOp} (hguard : StatusGuard s op) : ReviewsCandidates env s op := by
  rintro r hr ⟨now, audit, hop | hop⟩
  · exact Or.inr ((hguard r hr).1 now audit hop)
  · exact absurd hop ((hguard r hr).2.1 now audit)

theorem rowsMove_run {ops : List LifeOp} (hguard : AllSteps (lifeStep env) StatusGuard s ops) :
    RowsMove s.db.memories.rows (run (lifeStep env) s ops).db.memories.rows := by
  induction ops generalizing s with
  | nil => exact RowsMove.refl _
  | cons op ops ih => exact (rowsMove_step hguard.1).trans (ih hguard.2)

theorem RowsMove.finished (h : RowsMove t.rows rows') (hr : r ∈ t.rows) (hfinished : Finished r)
    (hr' : r' ∈ rows') (hid : r'.id = r.id) : Finished r' := by
  rcases h.moves r' hr' with ⟨-, hnew⟩ | ⟨r₀, hr₀, hmoves⟩
  · exact absurd hid.symm (hnew r hr)
  · rw [Table.eq_of_key hr₀ hr (hmoves.id.symm.trans hid)] at hmoves
    exact hmoves.finished hfinished

/-- The statuses of deleted and superseded memories are final in a run that keeps the guard, and
the time of deletion and the successor agree with the status all the way. -/
theorem lifecycle_oneWay (env : MemoryEnv) (s : MemoryStore) (ops : List LifeOp)
    (hfields : ∀ r ∈ s.db.memories.rows, StatusFields r)
    (hguard : AllSteps (lifeStep env) StatusGuard s ops) :
    Always (lifeStep env) (fun s => ∀ r ∈ s.db.memories.rows, StatusFields r) s ops ∧
      AllSteps (lifeStep env) (ReviewsCandidates env) s ops ∧
      (∀ done rest, done ++ rest = ops →
        ∀ r ∈ (run (lifeStep env) s done).db.memories.rows, Finished r →
          (∀ r' ∈ (run (lifeStep env) s ops).db.memories.rows, r'.id = r.id → Finished r') ∧
          ∀ now order query projectId topN, ∀ r' ∈ (recallRows env now order
            (run (lifeStep env) s ops) query projectId topN).1, r'.id ≠ r.id) ∧
      AllSteps (lifeStep env) (fun s _ => ∀ cfg nowIso staleCutoffIso stamp stamp',
        sweep env cfg nowIso staleCutoffIso stamp'
            (sweep env cfg nowIso staleCutoffIso stamp s).1 =
          ((sweep env cfg nowIso staleCutoffIso stamp s).1, {})) s ops := by
  refine ⟨?_, ?_, ?_, ?_⟩
  · exact always_of_guarded (fun _ _ => StatusFields.step) (fun _ h => h) hfields hguard
  · exact allSteps_of_guarded (fun _ _ => StatusFields.step) (fun _ _ _ => reviews_step) hfields
      hguard
  · intro done rest hops r hr hfinished
    rw [← hops, allSteps_append] at hguard
    have hmove := rowsMove_run hguard.2
    rw [← run_append, hops] at hmove
    refine ⟨fun r' hr' hid => hmove.finished hr hfinished hr' hid, ?_⟩
    intro now order query projectId topN r' hr' hid
    obtain ⟨hrow, hactive⟩ := recallRows_active r' hr'
    exact not_finished_of_live (MemoryRow.isLive_of_isActive hactive)
      (hmove.finished hr hfinished hrow hid)
  · exact allSteps_of_forall fun s _ _ _ _ _ _ => sweep_again env _ _ _ _ _ s

/-! A memory that is deleted, and approved afterwards. -/

def lifeAudit (id : String) : Audit := ⟨id.toList, "10:00".toList⟩

/-- A memory is created, edited and deleted. -/
def deletedMemory : List LifeOp :=
  [.create "10:00".toList "m1".toList (lifeAudit "e1") { body := "Rust".toList },
    .edit "10:01".toList (lifeAudit "e2") "m1".toList "Go".toList,
    .delete "10:02".toList (lifeAudit "e3") "m1".toList]

theorem lifecycle_oneWay_deletedMemory :
    Always (lifeStep asciiEnv) (fun s => ∀ r ∈ s.db.memories.rows, StatusFields r) emptyStore
        deletedMemory ∧
      (run (lifeStep asciiEnv) emptyStore deletedMemory).db.memories.rows.map
        (fun r => (r.status, r.deletedAt)) = [(deletedStatus, some "10:02".toList)] := by
  constructor
  · refine (lifecycle_oneWay asciiEnv emptyStore deletedMemory
      (fun _ hr => absurd hr List.not_mem_nil) ⟨?_, ?_, ?_, trivial⟩).1
    · exact fun _ hr => absurd hr List.not_mem_nil
    · intro r _
      exact ⟨fun _ _ h => absurd h (by simp), fun _ _ h => absurd h (by simp),
        fun _ _ h => absurd h (by simp)⟩
    · have hactive : ∀ r ∈ (run (lifeStep asciiEnv) emptyStore
          (deletedMemory.take 2)).db.memories.rows, r.status ≠ supersededStatus := by
        decide +kernel
      intro r hr
      exact ⟨fun _ _ h => absurd h (by simp), fun _ _ h => absurd h (by simp),
        fun _ _ _ => hactive r hr⟩
  · decide +kernel

/-- The approval makes the deleted memory active, with its time of deletion. -/
theorem approve_deletedMemory :
    ¬ Always (lifeStep asciiEnv) (fun s => ∀ r ∈ s.db.memories.rows, StatusFields r) emptyStore
        (deletedMemory ++ [.approve "10:03".toList (lifeAudit "e4") "m1".toList]) ∧
      (run (lifeStep asciiEnv) emptyStore
        (deletedMemory ++ [.approve "10:03".toList (lifeAudit "e4") "m1".toList])).db.memories.rows.map
          (fun r => (r.status, r.deletedAt)) = [(activeStatus, some "10:02".toList)] := by
  constructor
  · rintro ⟨-, -, -, -, h⟩
    have hbad : ∃ r ∈ (run (lifeStep asciiEnv) emptyStore (deletedMemory ++
        [.approve "10:03".toList (lifeAudit "e4") "m1".toList])).db.memories.rows,
        r.status = activeStatus ∧ r.deletedAt ≠ none := by
      decide +kernel
    obtain ⟨r, hr, hstatus, hat⟩ := hbad
    have hdeleted := (h r hr).deleted.mpr hat
    exact absurd (hstatus.symm.trans hdeleted) (by decide)
  · decide +kernel

end DeepseekScience.Memory
