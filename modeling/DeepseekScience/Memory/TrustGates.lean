import DeepseekScience.Memory.OneLiveCopy

/-! The trust gates of a batch: which of its rows become active, and by what an active memory is
replaced. -/
namespace DeepseekScience.Memory

open Db Tables

/-- Confidence and claim type allow a row to be active without approval. -/
def Trusted (cfg : ConsolidateConfig) (r : MemoryRow) : Prop :=
  cfg.autoPromoteThreshold ≤ r.confidence ∧ (cfg.trustHighRiskApprove = true →
    r.claimType ≠ ClaimType.preference.asStr ∧ r.claimType ≠ ClaimType.decision.asStr)

/-- A row that was not in the table before. -/
def IsNew (before : List MemoryRow) (r : MemoryRow) : Prop := ∀ r₀ ∈ before, r₀.id ≠ r.id

/-- Every row that is written as active is trusted, and an active memory is replaced by such a row
only. -/
structure TrustGates (cfg : ConsolidateConfig) (before after : List MemoryRow) : Prop where
  active : ∀ r ∈ after, IsNew before r → r.isActive = true → Trusted cfg r
  successor : ∀ r ∈ after, ∀ r₀ ∈ before, r₀.id = r.id → r₀.isActive = true →
    r.status = supersededStatus →
      ∃ r' ∈ after, r.supersededBy = some r'.id ∧ IsNew before r' ∧ r'.isActive = true ∧
        Trusted cfg r'

/-- The row of an item goes into the table: the item is no duplicate, its project can be referred
to, and its id is neither taken nor that of an earlier item with a row. -/
structure Accepted (env : MemoryEnv) (batch : Batch) (db : MemoryDb) (pre : List Extraction)
    (item : Extraction) : Prop where
  written : (batch.decision env item.mem).isDuplicate = false
  references : db.referencesProject batch.projectId = true
  fresh : ∀ r ∈ db.memories.rows, r.id ≠ item.id
  first : ∀ e ∈ pre, (batch.decision env e.mem).isDuplicate = false → e.id ≠ item.id

/-- An item below the threshold that is written because it resembles an active memory. -/
def LowReplacement (env : MemoryEnv) (s : MemoryStore) (args : PromoteArgs) : Prop :=
  ∃ pre item post oldId, args.extracted = pre ++ item :: post ∧
    (loadBatch env s args).decision env item.mem = .supersede oldId ∧
    Accepted env (loadBatch env s args) s.db pre item ∧
    item.mem.conf < args.cfg.autoPromoteThreshold

variable {env : MemoryEnv} {batch : Batch} {s s₀ : MemoryStore} {stats : ConsolidateStats}
  {item : Extraction} {done : List Extraction} {args : PromoteArgs}

/-! What a decision says about trust. -/

theorem candidate_ne_active : candidateStatus ≠ activeStatus := by decide

theorem superseded_ne_active : supersededStatus ≠ activeStatus := by decide

theorem asStr_of_not_highRisk {ct : ClaimType} (h : ct.isHighRisk = false) :
    ct.asStr ≠ ClaimType.preference.asStr ∧ ct.asStr ≠ ClaimType.decision.asStr := by
  cases ct with
  | preference => exact absurd h (by simp [ClaimType.isHighRisk])
  | decision => exact absurd h (by simp [ClaimType.isHighRisk])
  | fact => decide
  | procedure => decide
  | repo => decide
  | note => decide

/-- A row that is written as active has passed the gates, unless it replaces a memory. -/
theorem itemRow_trusted (h : (batch.decision env item.mem).isDuplicate = false)
    (hactive : (itemRow env batch item).isActive = true) :
    Trusted batch.cfg (itemRow env batch item) ∨
      ∃ oldId, batch.decision env item.mem = .supersede oldId ∧
        item.mem.conf < batch.cfg.autoPromoteThreshold := by
  have hstatus : batch.itemStatus env item.mem = activeStatus := of_decide_eq_true hactive
  unfold Batch.itemStatus at hstatus
  rcases decision_cases env batch item.mem with ⟨r, -, -, -, hd⟩ | ⟨-, hrest⟩
  · rw [hd] at h
    exact absurd h (by simp [Decision.isDuplicate])
  · rcases hrest with ⟨-, hd⟩ | ⟨hrisk, hrest⟩
    · rw [hd] at hstatus
      exact absurd hstatus candidate_ne_active
    · have htype : batch.cfg.trustHighRiskApprove = true →
          item.mem.claimType.asStr ≠ ClaimType.preference.asStr ∧
            item.mem.claimType.asStr ≠ ClaimType.decision.asStr := by
        intro htrust
        rw [htrust, Bool.true_and] at hrisk
        exact asStr_of_not_highRisk hrisk
      rcases hrest with ⟨r, -, -, hd⟩ | ⟨hconf, -⟩ | ⟨-, hd⟩
      · rcases le_or_gt batch.cfg.autoPromoteThreshold item.mem.conf with hconf | hconf
        · exact Or.inl ⟨hconf, htype⟩
        · exact Or.inr ⟨r.id, hd, hconf⟩
      · exact Or.inl ⟨hconf, htype⟩
      · rw [hd] at hstatus
        exact absurd hstatus candidate_ne_active

/-- The successor of a memory is active. -/
theorem itemRow_active {oldId : Text} (h : batch.decision env item.mem = .supersede oldId) :
    (itemRow env batch item).isActive = true := by
  have hrisk := (decision_supersede h).1
  refine decide_eq_true ?_
  change batch.itemStatus env item.mem = activeStatus
  unfold Batch.itemStatus Batch.successorStatus
  rw [h, Bool.and_comm, hrisk]
  rfl

/-! The rows of a batch, item by item. -/

/-- Behind some items of a batch on the table `db`: the new rows are those of the accepted items,
and an old row is as it was or is replaced by such a row. -/
structure Written (env : MemoryEnv) (batch : Batch) (db : MemoryDb) (done : List Extraction)
    (rows : List MemoryRow) : Prop where
  persists : ∀ r₀ ∈ db.memories.rows, ∃ r ∈ rows, r.id = r₀.id
  taken : ∀ item ∈ done, (batch.decision env item.mem).isDuplicate = false →
    db.referencesProject batch.projectId = true → ∃ r ∈ rows, r.id = item.id
  new : ∀ r ∈ rows, IsNew db.memories.rows r → ∃ pre item post, done = pre ++ item :: post ∧
    Accepted env batch db pre item ∧ r = itemRow env batch item
  old : ∀ r ∈ rows, ∀ r₀ ∈ db.memories.rows, r₀.id = r.id → r = r₀ ∨
    ∃ item, batch.decision env item.mem = .supersede r.id ∧ r.supersededBy = some item.id ∧
      itemRow env batch item ∈ rows ∧ IsNew db.memories.rows (itemRow env batch item)
  accepted : ∀ pre item post, done = pre ++ item :: post → Accepted env batch db pre item →
    itemRow env batch item ∈ rows

theorem written_start (db : MemoryDb) : Written env batch db [] db.memories.rows := by
  constructor
  · exact fun r₀ hr₀ => ⟨r₀, hr₀, rfl⟩
  · exact fun item hitem => absurd hitem List.not_mem_nil
  · exact fun r hr hnew => absurd rfl (hnew r hr)
  · intro r hr r₀ hr₀ hid
    exact Or.inl (Table.eq_of_key hr hr₀ hid.symm)
  · intro pre item post hdone
    exact absurd hdone.symm (by simp)

/-- The last item of a list that ends with it, or one of the items before it. -/
theorem append_singleton_split {α : Type*} {done pre post : List α} {x y : α}
    (h : done ++ [x] = pre ++ y :: post) :
    (pre = done ∧ y = x) ∨ ∃ post', post = post' ++ [x] ∧ done = pre ++ y :: post' := by
  rcases List.eq_nil_or_concat post with rfl | ⟨post', z, rfl⟩
  · obtain ⟨hpre, hy⟩ := List.append_inj' h rfl
    exact Or.inl ⟨hpre.symm, (List.singleton_inj.mp hy).symm⟩
  · rw [List.concat_eq_append, ← List.cons_append, ← List.append_assoc] at h
    obtain ⟨hdone, hz⟩ := List.append_inj' h rfl
    refine Or.inr ⟨post', ?_, hdone⟩
    rw [List.concat_eq_append, List.singleton_inj.mp hz]

/-- The id of an accepted item is not taken. -/
theorem Written.id_free {rows : List MemoryRow} (h : Written env batch s.db done rows)
    (haccepted : Accepted env batch s.db done item) : ∀ r ∈ rows, r.id ≠ item.id := by
  intro r hr hid
  by_cases hnew : IsNew s.db.memories.rows r
  · obtain ⟨pre, e, post, hdone, he, rfl⟩ := h.new r hr hnew
    refine haccepted.first e ?_ he.written hid
    rw [hdone]
    exact List.mem_append_right _ List.mem_cons_self
  · unfold IsNew at hnew
    push Not at hnew
    obtain ⟨r₀, hr₀, hid₀⟩ := hnew
    exact haccepted.fresh r₀ hr₀ (hid₀.trans hid)

theorem Written.split {rows : List MemoryRow} {r : MemoryRow}
    (h : Written env batch s₀.db done rows) (hr : r ∈ rows) (hnew : IsNew s₀.db.memories.rows r) :
    ∃ pre e post, done ++ [item] = pre ++ e :: post ∧ Accepted env batch s₀.db pre e ∧
      r = itemRow env batch e := by
  obtain ⟨pre, e, post, rfl, he, hrow⟩ := h.new r hr hnew
  exact ⟨pre, e, post ++ [item], by simp, he, hrow⟩

/-- An item without a row. -/
theorem Written.rejected {rows : List MemoryRow} (h : Written env batch s₀.db done rows)
    (hrejected : (batch.decision env item.mem).isDuplicate = true ∨
      s₀.db.referencesProject batch.projectId = false ∨ ∃ r ∈ rows, r.id = item.id) :
    Written env batch s₀.db (done ++ [item]) rows := by
  constructor
  · exact h.persists
  · intro e he hwritten hreferences
    rcases List.mem_append.mp he with he | he
    · exact h.taken e he hwritten hreferences
    · obtain rfl := List.mem_singleton.mp he
      rcases hrejected with hduplicate | hreferences' | htaken
      · exact absurd (hwritten.symm.trans hduplicate) (by simp)
      · exact absurd (hreferences.symm.trans hreferences') (by simp)
      · exact htaken
  · exact fun r hr hnew => h.split hr hnew
  · exact h.old
  · intro pre e post hdone haccepted
    rcases append_singleton_split hdone with ⟨rfl, rfl⟩ | ⟨post', -, hdone'⟩
    · rcases hrejected with hduplicate | hreferences | ⟨r, hr, hid⟩
      · exact absurd (haccepted.written.symm.trans hduplicate) (by simp)
      · exact absurd (haccepted.references.symm.trans hreferences) (by simp)
      · exact absurd hid (h.id_free haccepted r hr)
    · exact h.accepted pre e post' hdone' haccepted

/-- An item whose row goes into the table. -/
theorem Written.inserted {t t' : Table MemoryRow.id} (h : Written env batch s₀.db done t.rows)
    (hwritten : (batch.decision env item.mem).isDuplicate = false)
    (hreferences : s₀.db.referencesProject batch.projectId = true)
    (hinsert : t.insert (itemRow env batch item) = some t') :
    Accepted env batch s₀.db done item ∧ Written env batch s₀.db (done ++ [item]) t'.rows := by
  obtain ⟨hrows, hfree⟩ := Table.insert_eq_some hinsert
  have hmem : itemRow env batch item ∈ t'.rows := by
    rw [hrows]
    exact List.mem_append_right _ (List.mem_singleton_self _)
  have hkeep : ∀ r ∈ t.rows, r ∈ t'.rows := by
    intro r hr
    rw [hrows]
    exact List.mem_append_left _ hr
  have haccepted : Accepted env batch s₀.db done item := by
    constructor
    · exact hwritten
    · exact hreferences
    · intro r₀ hr₀
      obtain ⟨r, hr, hid⟩ := h.persists r₀ hr₀
      rw [← hid]
      exact hfree r hr
    · intro e he hwritten'
      obtain ⟨r, hr, hid⟩ := h.taken e he hwritten' hreferences
      rw [← hid]
      exact hfree r hr
  refine ⟨haccepted, ?_⟩
  constructor
  · intro r₀ hr₀
    obtain ⟨r, hr, hid⟩ := h.persists r₀ hr₀
    exact ⟨r, hkeep r hr, hid⟩
  · intro e he hwritten' hreferences'
    rcases List.mem_append.mp he with he | he
    · obtain ⟨r, hr, hid⟩ := h.taken e he hwritten' hreferences'
      exact ⟨r, hkeep r hr, hid⟩
    · exact ⟨_, hmem, by rw [List.mem_singleton.mp he]; rfl⟩
  · intro r hr hnew
    rw [hrows] at hr
    rcases List.mem_append.mp hr with hr | hr
    · exact h.split hr hnew
    · exact ⟨done, item, [], rfl, haccepted, List.mem_singleton.mp hr⟩
  · intro r hr r₀ hr₀ hid
    rw [hrows] at hr
    rcases List.mem_append.mp hr with hr | hr
    · refine (h.old r hr r₀ hr₀ hid).imp id ?_
      rintro ⟨e, hdecision, hby, hrow, hnew⟩
      exact ⟨e, hdecision, hby, hkeep _ hrow, hnew⟩
    · rw [List.mem_singleton.mp hr] at hid
      exact absurd hid (haccepted.fresh r₀ hr₀)
  · intro pre e post hdone he
    rcases append_singleton_split hdone with ⟨rfl, rfl⟩ | ⟨post', -, hdone'⟩
    · exact hmem
    · exact hkeep _ (h.accepted pre e post' hdone' he)

/-- The last item also replaces a memory that the batch has read. -/
theorem Written.replaced {t : Table MemoryRow.id} {oldId : Text}
    (h : Written env batch s₀.db (done ++ [item]) t.rows)
    (haccepted : Accepted env batch s₀.db done item)
    (hdecision : batch.decision env item.mem = .supersede oldId)
    (hold : ∃ r₀ ∈ s₀.db.memories.rows, r₀.id = oldId) :
    Written env batch s₀.db (done ++ [item]) (t.update (MemoryRow.isLiveAt oldId)
      (MemoryRow.superseded item.now item.id) (MemoryRow.superseded_id item.now item.id)).rows := by
  obtain ⟨rOld, hrOld, hidOld⟩ := hold
  have hkeys : ∀ r ∈ t.rows, ∃ r' ∈ (t.update (MemoryRow.isLiveAt oldId)
      (MemoryRow.superseded item.now item.id) (MemoryRow.superseded_id item.now item.id)).rows,
      r'.id = r.id := by
    intro r hr
    refine ⟨_, Table.mem_update.mpr ⟨r, hr, rfl⟩, ?_⟩
    split_ifs <;> rfl
  have hkeep : ∀ r ∈ t.rows, IsNew s₀.db.memories.rows r →
      r ∈ (t.update (MemoryRow.isLiveAt oldId) (MemoryRow.superseded item.now item.id)
        (MemoryRow.superseded_id item.now item.id)).rows := by
    intro r hr hnew
    refine mem_replaced hr ?_
    rw [MemoryRow.isLiveAt, Bool.and_eq_false_iff]
    refine Or.inl (decide_eq_false fun hid => hnew rOld hrOld (hidOld.trans hid.symm))
  have hnewRow : ∀ pre e post, done ++ [item] = pre ++ e :: post →
      Accepted env batch s₀.db pre e → IsNew s₀.db.memories.rows (itemRow env batch e) :=
    fun _ _ _ _ he r hr => he.fresh r hr
  constructor
  · intro r₀ hr₀
    obtain ⟨r, hr, hid⟩ := h.persists r₀ hr₀
    obtain ⟨r', hr', hid'⟩ := hkeys r hr
    exact ⟨r', hr', hid'.trans hid⟩
  · intro e he hwritten hreferences
    obtain ⟨r, hr, hid⟩ := h.taken e he hwritten hreferences
    obtain ⟨r', hr', hid'⟩ := hkeys r hr
    exact ⟨r', hr', hid'.trans hid⟩
  · intro r hr hnew
    obtain ⟨r₁, hr₁, rfl⟩ := Table.mem_update.mp hr
    split_ifs at hnew ⊢ with hlive
    · have hid : r₁.id = oldId := of_decide_eq_true (Bool.and_eq_true_iff.mp hlive).1
      exact absurd (hidOld.trans hid.symm) (hnew rOld hrOld)
    · exact h.new r₁ hr₁ hnew
  · intro r hr r₀ hr₀ hid
    obtain ⟨r₁, hr₁, rfl⟩ := Table.mem_update.mp hr
    have hrow := h.accepted done item [] rfl haccepted
    split_ifs at hid ⊢ with hlive
    · have hid₁ : r₁.id = oldId := of_decide_eq_true (Bool.and_eq_true_iff.mp hlive).1
      refine Or.inr ⟨item, ?_, rfl, hkeep _ hrow (hnewRow done item [] rfl haccepted),
        hnewRow done item [] rfl haccepted⟩
      rw [MemoryRow.superseded_id, hid₁]
      exact hdecision
    · refine (h.old r₁ hr₁ r₀ hr₀ hid).imp id ?_
      rintro ⟨e, hdecision', hby, hrow', hnew⟩
      exact ⟨e, hdecision', hby, hkeep _ hrow' hnew, hnew⟩
  · intro pre e post hdone he
    exact hkeep _ (h.accepted pre e post hdone he) (hnewRow pre e post hdone he)

theorem written_item (h : Written env batch s₀.db done s.db.memories.rows)
    (hprojects : s.db.projects = s₀.db.projects)
    (hexisting : ∀ r ∈ batch.existing, r ∈ s₀.db.memories.rows) :
    Written env batch s₀.db (done ++ [item])
      (batch.promoteItem env (s, stats) item).1.db.memories.rows := by
  have hreferences : s.db.referencesProject batch.projectId =
      s₀.db.referencesProject batch.projectId := by
    unfold MemoryDb.referencesProject
    rw [hprojects]
  rcases promoteItem_rows env batch s stats item with
    ⟨hrejected, hsame⟩ | ⟨memories, hwritten, ⟨href, hinsert⟩, hrows⟩
  · rw [hsame]
    refine h.rejected (hrejected.imp id (Or.imp (hreferences ▸ ·) fun hnone => ?_))
    rw [Table.insert_eq_none, ne_eq, Table.find_eq_none] at hnone
    push Not at hnone
    exact hnone
  · obtain ⟨haccepted, hinserted⟩ := h.inserted hwritten (hreferences ▸ href) hinsert
    rcases hrows with hrows | ⟨oldId, hdecision, hrows⟩
    · rw [hrows]
      exact hinserted
    · rw [hrows]
      obtain ⟨-, r, hr, -, hid⟩ := decision_supersede hdecision
      exact hinserted.replaced haccepted hdecision ⟨r, hexisting r hr, hid⟩

theorem written_items (items : List Extraction)
    (h : Written env batch s₀.db done s.db.memories.rows)
    (hprojects : s.db.projects = s₀.db.projects)
    (hexisting : ∀ r ∈ batch.existing, r ∈ s₀.db.memories.rows) :
    Written env batch s₀.db (done ++ items)
      (items.foldl (batch.promoteItem env) (s, stats)).1.db.memories.rows := by
  induction items generalizing done s stats with
  | nil =>
    rw [List.append_nil]
    exact h
  | cons item items ih =>
    rw [List.append_cons, List.foldl_cons]
    exact ih (written_item h hprojects hexisting)
      ((promoteItem_projects env batch s stats item).trans hprojects)

theorem written_promoteCandidates (env : MemoryEnv) (s : MemoryStore) (args : PromoteArgs) :
    Written env (loadBatch env s args) s.db args.extracted
      (promoteCandidates env s args).1.db.memories.rows := by
  unfold promoteCandidates
  split_ifs with hempty
  · rw [List.isEmpty_iff.mp hempty]
    exact written_start s.db
  · have hexisting : ∀ r ∈ (loadBatch env s args).existing, r ∈ s.db.memories.rows :=
      fun r hr => (Consolidation.mem_existing.mp hr).1
    exact written_items args.extracted (written_start s.db) rfl hexisting

/-- The gates hold for a batch exactly when no item below the threshold replaces a memory. -/
theorem promoteCandidates_trustGates (env : MemoryEnv) (s : MemoryStore) (args : PromoteArgs) :
    TrustGates args.cfg s.db.memories.rows (promoteCandidates env s args).1.db.memories.rows ↔
      ¬ LowReplacement env s args := by
  have hwritten := written_promoteCandidates env s args
  have htrusted : ¬ LowReplacement env s args → ∀ pre item post,
      args.extracted = pre ++ item :: post → Accepted env (loadBatch env s args) s.db pre item →
      (itemRow env (loadBatch env s args) item).isActive = true →
      Trusted args.cfg (itemRow env (loadBatch env s args) item) := by
    intro hlow pre item post hitems haccepted hactive
    rcases itemRow_trusted haccepted.written hactive with htrusted | ⟨oldId, hdecision, hconf⟩
    · exact htrusted
    · exact absurd ⟨pre, item, post, oldId, hitems, hdecision, haccepted, hconf⟩ hlow
  constructor
  · rintro hgates ⟨pre, item, post, oldId, hitems, hdecision, haccepted, hconf⟩
    have hmem := hwritten.accepted pre item post hitems haccepted
    have hactive : (itemRow env (loadBatch env s args) item).isActive = true :=
      itemRow_active hdecision
    have hthreshold := (hgates.active _ hmem haccepted.fresh hactive).1
    exact absurd hthreshold (not_le.mpr hconf)
  · intro hlow
    constructor
    · intro r hr hnew hactive
      obtain ⟨pre, item, post, hitems, haccepted, rfl⟩ := hwritten.new r hr hnew
      exact htrusted hlow pre item post hitems haccepted hactive
    · intro r hr r₀ hr₀ hid hactive hstatus
      rcases hwritten.old r hr r₀ hr₀ hid with rfl | ⟨item, hdecision, hby, hrow, hnew⟩
      · have hactive' : r.status = activeStatus := of_decide_eq_true hactive
        exact absurd (hstatus.symm.trans hactive') superseded_ne_active
      · have hactive' : (itemRow env (loadBatch env s args) item).isActive = true :=
          itemRow_active hdecision
        obtain ⟨pre, e, post, hitems, haccepted, he⟩ := hwritten.new _ hrow hnew
        refine ⟨_, hrow, hby, hnew, hactive', ?_⟩
        rw [he] at hactive' ⊢
        exact htrusted hlow pre e post hitems haccepted hactive'

/-! A batch of one item with a low confidence, on a store with a similar active memory. -/

def rustStore : MemoryStore :=
  (promoteCandidates asciiEnv emptyStore (batchOf [extraction "m1" "Rust"])).1

def lowConfidence : PromoteArgs :=
  { extracted :=
      [{ extraction "m2" "Rust!" with
          mem := { body := "Rust!".toList, confidence := some (1 / 10) } }]
    projectId := none
    evidence := []
    cfg := {} }

/-- The item becomes active, although its confidence is below the threshold, and replaces the
memory. -/
theorem promoteCandidates_lowConfidence :
    ¬ TrustGates lowConfidence.cfg rustStore.db.memories.rows
      (promoteCandidates asciiEnv rustStore lowConfidence).1.db.memories.rows := by
  intro hgates
  have hactive : ∃ r ∈ (promoteCandidates asciiEnv rustStore lowConfidence).1.db.memories.rows,
      (∀ r₀ ∈ rustStore.db.memories.rows, r₀.id ≠ r.id) ∧ r.isActive = true ∧
        r.confidence = 1 / 10 := by
    decide +kernel
  obtain ⟨r, hr, hnew, hr', hconf⟩ := hactive
  have hthreshold := (hgates.active r hr hnew hr').1
  rw [hconf] at hthreshold
  exact absurd hthreshold (by decide +kernel)

end DeepseekScience.Memory
