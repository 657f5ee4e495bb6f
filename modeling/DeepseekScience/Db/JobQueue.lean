import DeepseekScience.Db.BotJobs

/-! The discipline of the bot job queue: who may claim a job, what becomes of its row, and in
which order the queued jobs of a session are handed out. -/
namespace DeepseekScience.Db

open Tables Runs

/-- Queued, or claimed and not finished. -/
def BotJobRow.Live (r : BotJobRow) : Prop := r.status = .queued ∨ r.status = .running

/-- The claim order of jobs with the same priority. -/
def BotJobRow.Before (a b : BotJobRow) : Prop :=
  a.position < b.position ∨ a.position = b.position ∧ a.createdAt < b.createdAt

/-- Two versions of a row with the same place in the queue. -/
structure SameSlot (r r' : BotJobRow) : Prop where
  id : r'.id = r.id
  sessionId : r'.sessionId = r.sessionId
  priority : r'.priority = r.priority
  position : r'.position = r.position
  createdAt : r'.createdAt = r.createdAt

theorem SameSlot.refl (r : BotJobRow) : SameSlot r r := ⟨rfl, rfl, rfl, rfl, rfl⟩

theorem SameSlot.before {a a' b b' : BotJobRow} (ha : SameSlot a a') (hb : SameSlot b b') :
    a'.Before b' ↔ a.Before b := by
  unfold BotJobRow.Before
  rw [ha.position, hb.position, ha.createdAt, hb.createdAt]

theorem claimKey_lt_iff {a b : BotJobRow} (h : a.priority = b.priority) :
    claimKey a < claimKey b ↔ a.Before b := by
  unfold claimKey BotJobRow.Before
  rw [Prod.Lex.lt_iff, Prod.Lex.lt_iff]
  simp [h]

/-! What an operation makes of the rows. -/

/-- The moves of a job's status that need no restart. -/
inductive Moves : JobStatus → JobStatus → Prop
  | stays (status : JobStatus) : Moves status status
  | claimed : Moves .queued .running
  | completed : Moves .running .completed
  | failed : Moves .running .failed

section
variable {t t' : BotJobs} {first : FirstRow}

theorem jobStep_edit (now id : Text) (revision : ℤ) (prompt : Text) (mode : Bool) :
    jobStep first t (.edit now id revision prompt mode) =
      t.update (BotJobs.isQueuedAt id revision) (BotJobRow.edited now prompt mode)
        (BotJobRow.edited_id now prompt mode) := by
  unfold jobStep BotJobs.editBotJob
  dsimp only
  split_ifs <;> rfl

theorem jobStep_claim (now id : Text) (revision : ℤ) (runId : Text) :
    jobStep first t (.claim now id revision runId) =
      t.update (BotJobs.isQueuedAt id revision) (BotJobRow.claimed now runId)
        (BotJobRow.claimed_id now runId) := by
  unfold jobStep BotJobs.claimBotJob
  dsimp only
  split_ifs <;> rfl

theorem jobStep_finish (now id runId : Text) (succeeded : Bool) (error : Option Text) :
    jobStep first t (.finish now id runId succeeded error) =
      t.update (BotJobs.isOwnedBy id runId) (BotJobRow.finished now succeeded error)
        (BotJobRow.finished_id now succeeded error) := by
  unfold jobStep BotJobs.finishBotJob
  dsimp only
  split <;> rfl

theorem jobStep_delete (id : Text) (revision : ℤ) :
    jobStep first t (.delete id revision) = t.delete (BotJobs.isDeletableAt id revision) := by
  unfold jobStep BotJobs.deleteBotJob
  dsimp only
  split_ifs <;> rfl

theorem claimNext_of_pick {now sessionId runId : Text} {next : BotJobRow}
    (hpick : first.pick (t.queuedIn sessionId) = some next) :
    t.claimNextBotJob first now sessionId runId =
      (.ok ((t.update (fun r => decide (r.id = next.id ∧ r.status = .queued))
          (BotJobRow.claimed now runId) (BotJobRow.claimed_id now runId)).find next.id),
        t.update (fun r => decide (r.id = next.id ∧ r.status = .queued))
          (BotJobRow.claimed now runId) (BotJobRow.claimed_id now runId)) := by
  unfold BotJobs.claimNextBotJob
  rw [hpick]

theorem claimNext_idle {now sessionId runId : Text}
    (hpick : first.pick (t.queuedIn sessionId) = none) :
    t.claimNextBotJob first now sessionId runId = (.ok none, t) := by
  unfold BotJobs.claimNextBotJob
  rw [hpick]

theorem jobStep_of_pick {now sessionId runId : Text} {next : BotJobRow}
    (hpick : first.pick (t.queuedIn sessionId) = some next) :
    jobStep first t (.claimNext now sessionId runId) =
      t.update (fun r => decide (r.id = next.id ∧ r.status = .queued))
        (BotJobRow.claimed now runId) (BotJobRow.claimed_id now runId) :=
  congrArg Prod.snd (claimNext_of_pick hpick)

theorem jobStep_claimNext (t : BotJobs) (first : FirstRow) (now sessionId runId : Text) :
    jobStep first t (.claimNext now sessionId runId) = t ∨
      ∃ next, first.pick (t.queuedIn sessionId) = some next ∧
        jobStep first t (.claimNext now sessionId runId) =
          t.update (fun r => decide (r.id = next.id ∧ r.status = .queued))
            (BotJobRow.claimed now runId) (BotJobRow.claimed_id now runId) := by
  cases hpick : first.pick (t.queuedIn sessionId) with
  | none => exact Or.inl (congrArg Prod.snd (claimNext_idle hpick))
  | some next => exact Or.inr ⟨next, rfl, jobStep_of_pick hpick⟩

/-- Every row keeps its slot, and its status moves forward at most. -/
def Forward (t t' : BotJobs) : Prop :=
  ∃ g : BotJobRow → BotJobRow, t'.rows = t.rows.map g ∧
    ∀ r, SameSlot r (g r) ∧ Moves r.status (g r).status

theorem Forward.refl (t : BotJobs) : Forward t t :=
  ⟨id, (List.map_id _).symm, fun r => ⟨.refl r, .stays _⟩⟩

theorem forward_update {p : BotJobRow → Bool} {f : BotJobRow → BotJobRow}
    {hf : ∀ r, (f r).id = r.id}
    (h : ∀ r, p r = true → SameSlot r (f r) ∧ Moves r.status (f r).status) :
    Forward t (t.update p f hf) := by
  refine ⟨_, rfl, fun r => ?_⟩
  split_ifs with hp
  · exact h r hp
  · exact ⟨.refl r, .stays _⟩

theorem forward_edit (now id : Text) (revision : ℤ) (prompt : Text) (mode : Bool) :
    Forward t (jobStep first t (.edit now id revision prompt mode)) := by
  rw [jobStep_edit]
  apply forward_update
  exact fun r _ => ⟨⟨rfl, rfl, rfl, rfl, rfl⟩, .stays _⟩

theorem forward_claim (now id : Text) (revision : ℤ) (runId : Text) :
    Forward t (jobStep first t (.claim now id revision runId)) := by
  rw [jobStep_claim]
  apply forward_update
  intro r hr
  refine ⟨⟨rfl, rfl, rfl, rfl, rfl⟩, ?_⟩
  rw [(of_decide_eq_true hr).2.2]
  exact .claimed

theorem forward_claimNext (now sessionId runId : Text) :
    Forward t (jobStep first t (.claimNext now sessionId runId)) := by
  rcases jobStep_claimNext t first now sessionId runId with hstep | ⟨next, -, hstep⟩
  · rw [hstep]
    exact .refl t
  · rw [hstep]
    apply forward_update
    intro r hr
    refine ⟨⟨rfl, rfl, rfl, rfl, rfl⟩, ?_⟩
    rw [(of_decide_eq_true hr).2]
    exact .claimed

theorem forward_finish (now id runId : Text) (succeeded : Bool) (error : Option Text) :
    Forward t (jobStep first t (.finish now id runId succeeded error)) := by
  rw [jobStep_finish]
  apply forward_update
  intro r hr
  refine ⟨⟨rfl, rfl, rfl, rfl, rfl⟩, ?_⟩
  unfold BotJobRow.finished
  rw [(of_decide_eq_true hr).2.2]
  cases succeeded
  · exact .failed
  · exact .completed

/-! What the queue hands out first. -/

theorem mem_queuedIn {sessionId : Text} {r : BotJobRow} : r ∈ t.queuedIn sessionId ↔
    r ∈ t.rows ∧ r.sessionId = sessionId ∧ r.status = .queued := by
  simp only [BotJobs.queuedIn, List.mem_filter, decide_eq_true_eq]

theorem position_le_maxPosition {r : BotJobRow} (hr : r ∈ t.rows) (hstatus : r.status = .queued) :
    r.position ≤ t.maxPosition r.sessionId := by
  have hmem : r.position ∈ (t.queuedIn r.sessionId).map BotJobRow.position :=
    List.mem_map_of_mem (mem_queuedIn.mpr ⟨hr, rfl, hstatus⟩)
  unfold BotJobs.maxPosition
  cases hmax : ((t.queuedIn r.sessionId).map BotJobRow.position).max? with
  | none =>
    rw [List.max?_eq_none_iff] at hmax
    rw [hmax] at hmem
    cases hmem
  | some m => exact (List.max?_eq_some_iff.mp hmax).2 _ hmem

/-! The reorder. -/

/-- One row behind one entry of a reorder. -/
def placeRow (now sessionId : Text) (r : BotJobRow) (entry : Text × ℕ) : BotJobRow :=
  if r.id = entry.1 ∧ r.sessionId = sessionId ∧ r.status = .queued then
    r.placed now entry.2
  else r

/-- Two versions of a row that differ in what a reorder sets. -/
structure SamePlaced (r r' : BotJobRow) : Prop where
  id : r'.id = r.id
  botId : r'.botId = r.botId
  sessionId : r'.sessionId = r.sessionId
  prompt : r'.prompt = r.prompt
  requestedPlanMode : r'.requestedPlanMode = r.requestedPlanMode
  priority : r'.priority = r.priority
  status : r'.status = r.status
  runId : r'.runId = r.runId
  lastError : r'.lastError = r.lastError
  createdAt : r'.createdAt = r.createdAt

theorem SamePlaced.refl (r : BotJobRow) : SamePlaced r r :=
  ⟨rfl, rfl, rfl, rfl, rfl, rfl, rfl, rfl, rfl, rfl⟩

theorem SamePlaced.trans {r r' r'' : BotJobRow} (h : SamePlaced r r') (h' : SamePlaced r' r'') :
    SamePlaced r r'' :=
  ⟨h'.id.trans h.id, h'.botId.trans h.botId, h'.sessionId.trans h.sessionId,
    h'.prompt.trans h.prompt, h'.requestedPlanMode.trans h.requestedPlanMode,
    h'.priority.trans h.priority, h'.status.trans h.status, h'.runId.trans h.runId,
    h'.lastError.trans h.lastError, h'.createdAt.trans h.createdAt⟩

theorem placeRow_same (now sessionId : Text) (r : BotJobRow) (entry : Text × ℕ) :
    SamePlaced r (placeRow now sessionId r entry) := by
  unfold placeRow
  split_ifs
  · exact ⟨rfl, rfl, rfl, rfl, rfl, rfl, rfl, rfl, rfl, rfl⟩
  · exact .refl r

section
variable (now sessionId : Text) (entries : List (Text × ℕ)) (r : BotJobRow)

def placeAll : BotJobRow := entries.foldl (placeRow now sessionId) r

theorem placeAll_same : SamePlaced r (placeAll now sessionId entries r) := by
  induction entries generalizing r with
  | nil => exact .refl r
  | cons e entries ih => exact (placeRow_same now sessionId r e).trans (ih _)

theorem setPosition_rows (t : BotJobs) :
    (entries.foldl (BotJobs.setPosition now sessionId) t).rows =
      t.rows.map (placeAll now sessionId entries) := by
  induction entries generalizing t with
  | nil => exact (List.map_id _).symm
  | cons e entries ih =>
    rw [List.foldl_cons, ih]
    unfold BotJobs.setPosition Table.update
    rw [List.map_map]
    refine List.map_congr_left fun r _ => ?_
    simp only [Function.comp_apply, placeAll, List.foldl_cons, placeRow, decide_eq_true_eq]

variable {r}

/-- A row that no entry names keeps its position. -/
theorem placeAll_of_not (h : ∀ e ∈ entries, ¬ (r.id = e.1 ∧ r.sessionId = sessionId ∧
    r.status = .queued)) : placeAll now sessionId entries r = r := by
  induction entries with
  | nil => rfl
  | cons e entries ih =>
    have hfirst : placeRow now sessionId r e = r := if_neg (h e List.mem_cons_self)
    rw [placeAll, List.foldl_cons, hfirst]
    exact ih fun e' he' => h e' (List.mem_cons_of_mem _ he')

/-- A queued job of the session takes the position of its entry. -/
theorem placeAll_position {k : ℕ} (hnodup : (entries.map Prod.fst).Nodup)
    (hentry : (r.id, k) ∈ entries) (hsession : r.sessionId = sessionId)
    (hstatus : r.status = .queued) : (placeAll now sessionId entries r).position = k + 1 := by
  induction entries with
  | nil => cases hentry
  | cons e entries ih =>
    rw [List.map_cons, List.nodup_cons] at hnodup
    rw [placeAll, List.foldl_cons]
    rcases List.mem_cons.mp hentry with rfl | hrest
    · have hplaced : placeRow now sessionId r (r.id, k) = _ := if_pos ⟨rfl, hsession, hstatus⟩
      rw [hplaced]
      have hkeeps := placeAll_of_not now sessionId entries
        (r := r.placed now k)
        fun e he h => hnodup.1 (List.mem_map.mpr ⟨e, he, h.1.symm⟩)
      exact congrArg BotJobRow.position hkeeps
    · have hne : ¬ (r.id = e.1 ∧ r.sessionId = sessionId ∧ r.status = .queued) := by
        rintro ⟨he, -⟩
        exact hnodup.1 (List.mem_map.mpr ⟨_, hrest, he⟩)
      rw [show placeRow now sessionId r e = r from if_neg hne]
      exact ih hnodup.2 hrest

end

/-- An accepted reorder lists every queued job of the session exactly once. -/
theorem reorder_perm {now sessionId : Text} {orderedIds : List Text} {listed : List BotJobRow}
    (h : (t.reorderBotJobs now sessionId orderedIds).1 = .ok listed) :
    orderedIds.Perm ((t.queuedIn sessionId).map BotJobRow.id) ∧
      (t.reorderBotJobs now sessionId orderedIds).2.rows =
        t.rows.map (placeAll now sessionId orderedIds.zipIdx) := by
  unfold BotJobs.reorderBotJobs at h ⊢
  dsimp only at h ⊢
  split_ifs at h ⊢ with hrefused
  have hsame := not_ne_iff.mp (not_or.mp hrefused).1
  have hlength := not_ne_iff.mp (not_or.mp hrefused).2
  have hsorted : (orderedIds.insertionSort (· ≤ ·)).destutter (· ≠ ·) =
      orderedIds.insertionSort (· ≤ ·) := by
    apply (List.destutter_sublist (· ≠ ·) _).eq_of_length
    rw [hlength, List.length_insertionSort]
  rw [hsorted] at hsame
  refine ⟨?_, setPosition_rows now sessionId _ t⟩
  exact (List.perm_insertionSort (· ≤ ·) orderedIds).symm.trans
    (hsame ▸ List.perm_insertionSort (· ≤ ·) _)

theorem reorder_refused {now sessionId : Text} {orderedIds : List Text} {e : DbError}
    (h : (t.reorderBotJobs now sessionId orderedIds).1 = .error e) :
    (t.reorderBotJobs now sessionId orderedIds).2 = t := by
  unfold BotJobs.reorderBotJobs at h ⊢
  dsimp only at h ⊢
  split_ifs at h ⊢
  rfl

/-! What becomes of a row. -/

/-- The job that an operation has claimed. -/
def claimedJob (first : FirstRow) (t : BotJobs) : JobOp → Option Text
  | .claim now id revision runId =>
    match (t.claimBotJob now id revision runId).1 with
    | .ok r => some r.id
    | .error _ => none
  | .claimNext now sessionId runId =>
    match (t.claimNextBotJob first now sessionId runId).1 with
    | .ok (some r) => some r.id
    | _ => none
  | _ => none

/-- The job that an operation has finished. -/
def finishedJob (t : BotJobs) : JobOp → Option Text
  | .finish now id runId succeeded error =>
    match (t.finishBotJob now id runId succeeded error).1 with
    | .ok r => some r.id
    | .error _ => none
  | _ => none

/-- The job that an operation has deleted. -/
def deletedJob (t : BotJobs) : JobOp → Option Text
  | .delete id revision =>
    match (t.deleteBotJob id revision).1 with
    | .ok _ => some id
    | .error _ => none
  | _ => none

def JobOp.isRestart : JobOp → Prop
  | .restart _ => True
  | _ => False

/-- The status of a job behind an operation. -/
inductive StatusStep (first : FirstRow) (t : BotJobs) (op : JobOp) (r : BotJobRow) :
    JobStatus → Prop
  | stays : StatusStep first t op r r.status
  | claimed : r.status = .queued → claimedJob first t op = some r.id →
      StatusStep first t op r .running
  | finished (status : JobStatus) : r.status = .running → finishedJob t op = some r.id →
      status = .completed ∨ status = .failed → StatusStep first t op r status
  | requeued : r.status = .running → op.isRestart → StatusStep first t op r .queued

/-- A row is still there, with the next status of its job. -/
def Continues (first : FirstRow) (t : BotJobs) (op : JobOp) (r : BotJobRow) : Prop :=
  ∃ r' ∈ (jobStep first t op).rows, r'.id = r.id ∧ StatusStep first t op r r'.status

theorem getBotJob_of_mem {r : BotJobRow} (hr : r ∈ t.rows) : t.getBotJob r.id = .ok r := by
  rw [BotJobs.getBotJob, Table.find_eq_some.mpr ⟨hr, rfl⟩]

theorem count_ne_zero {p : BotJobRow → Bool} {r : BotJobRow} (hr : r ∈ t.rows) (hp : p r = true) :
    t.count p ≠ 0 := by
  intro h
  rw [Table.count_eq_zero.mp h r hr] at hp
  cases hp

variable {r : BotJobRow}

theorem continues_enqueue (hr : r ∈ t.rows) (now freshId : Text) (belongs : Bool)
    (requestedId : Option Text) (botId sessionId prompt : Text) (mode : Bool) :
    Continues first t (.enqueue now freshId belongs requestedId botId sessionId prompt mode) r := by
  refine ⟨r, ?_, rfl, .stays⟩
  unfold jobStep BotJobs.enqueueBotJob
  dsimp only
  split_ifs
  · split
    · exact hr
    · rename_i t' hinsert
      have hrows := (Table.insert_eq_some hinsert).1
      split
      all_goals
        dsimp only
        rw [hrows]
        exact List.mem_append_left _ hr
  · exact hr

/-- A selected row is there behind the update, under its id. -/
theorem getBotJob_update {p : BotJobRow → Bool} {f : BotJobRow → BotJobRow}
    {hf : ∀ r, (f r).id = r.id} (hr : r ∈ t.rows) (hp : p r = true) :
    BotJobs.getBotJob (t.update p f hf) r.id = .ok (f r) := by
  have hmem : f r ∈ (t.update p f hf).rows := Table.mem_update.mpr ⟨r, hr, if_pos hp⟩
  rw [← hf r]
  exact getBotJob_of_mem hmem

/-- An update that keeps the status of the rows that it does not select. -/
theorem continues_update {op : JobOp} {p : BotJobRow → Bool} {f : BotJobRow → BotJobRow}
    {hf : ∀ r, (f r).id = r.id} (hop : jobStep first t op = t.update p f hf) (hr : r ∈ t.rows)
    (h : p r = true → StatusStep first t op r (f r).status) : Continues first t op r := by
  by_cases hp : p r = true
  · refine ⟨f r, ?_, hf r, h hp⟩
    rw [hop]
    exact Table.mem_update.mpr ⟨r, hr, if_pos hp⟩
  · refine ⟨r, ?_, rfl, .stays⟩
    rw [hop]
    exact Table.mem_update.mpr ⟨r, hr, if_neg hp⟩

theorem claimed_of_queuedAt {now id : Text} {revision : ℤ} {runId : Text} (hr : r ∈ t.rows)
    (hp : BotJobs.isQueuedAt id revision r = true) :
    claimedJob first t (.claim now id revision runId) = some r.id := by
  obtain ⟨rfl, -, -⟩ := of_decide_eq_true hp
  unfold claimedJob BotJobs.claimBotJob
  dsimp only
  rw [if_neg (count_ne_zero hr hp)]
  dsimp only
  rw [getBotJob_update hr hp]
  rfl

theorem continues_claim (hr : r ∈ t.rows) (now id : Text) (revision : ℤ) (runId : Text) :
    Continues first t (.claim now id revision runId) r :=
  continues_update (jobStep_claim now id revision runId) hr fun hp =>
    .claimed (of_decide_eq_true hp).2.2 (claimed_of_queuedAt hr hp)

theorem continues_edit (hr : r ∈ t.rows) (now id : Text) (revision : ℤ) (prompt : Text)
    (mode : Bool) : Continues first t (.edit now id revision prompt mode) r :=
  continues_update (jobStep_edit now id revision prompt mode) hr fun _ => .stays

theorem finished_of_ownedBy {now id runId : Text} {succeeded : Bool} {error : Option Text}
    (hr : r ∈ t.rows) (hp : BotJobs.isOwnedBy id runId r = true) :
    finishedJob t (.finish now id runId succeeded error) = some r.id := by
  obtain ⟨rfl, -, -⟩ := of_decide_eq_true hp
  unfold finishedJob BotJobs.finishBotJob
  dsimp only
  rw [if_neg (count_ne_zero hr hp)]
  dsimp only
  rw [getBotJob_update hr hp]
  rfl

theorem continues_finish (hr : r ∈ t.rows) (now id runId : Text) (succeeded : Bool)
    (error : Option Text) : Continues first t (.finish now id runId succeeded error) r := by
  refine continues_update (jobStep_finish now id runId succeeded error) hr fun hp =>
    .finished _ (of_decide_eq_true hp).2.2 (finished_of_ownedBy hr hp) ?_
  cases succeeded
  · exact Or.inr rfl
  · exact Or.inl rfl

theorem continues_restart (hr : r ∈ t.rows) (now : Text) : Continues first t (.restart now) r := by
  have hstep : jobStep first t (.restart now) = t.update (fun r => decide (r.status = .running))
      (BotJobRow.requeued now) (BotJobRow.requeued_id now) := rfl
  exact continues_update hstep hr fun hp => .requeued (of_decide_eq_true hp) trivial

theorem continues_claimNext (hr : r ∈ t.rows) (now sessionId runId : Text) :
    Continues first t (.claimNext now sessionId runId) r := by
  rcases jobStep_claimNext t first now sessionId runId with
    hstep | ⟨next, hpick, hstep⟩
  · refine ⟨r, ?_, rfl, .stays⟩
    rw [hstep]
    exact hr
  · refine continues_update hstep hr fun hp => ?_
    obtain ⟨hid, hstatus⟩ := of_decide_eq_true hp
    refine .claimed hstatus ?_
    have hfind : (t.update (fun r => decide (r.id = next.id ∧ r.status = .queued))
        (BotJobRow.claimed now runId) (BotJobRow.claimed_id now runId)).find next.id =
          some (r.claimed now runId) :=
      Table.find_eq_some.mpr ⟨Table.mem_update.mpr ⟨r, hr, if_pos hp⟩, hid⟩
    unfold claimedJob
    dsimp only
    rw [claimNext_of_pick hpick, hfind]
    rfl

theorem continues_reorder (hr : r ∈ t.rows) (now sessionId : Text) (orderedIds : List Text) :
    Continues first t (.reorder now sessionId orderedIds) r := by
  unfold Continues jobStep
  cases hreply : (t.reorderBotJobs now sessionId orderedIds).1 with
  | error e =>
    dsimp only
    rw [reorder_refused hreply]
    exact ⟨r, hr, rfl, .stays⟩
  | ok listed =>
    have hsame := placeAll_same now sessionId orderedIds.zipIdx r
    refine ⟨placeAll now sessionId orderedIds.zipIdx r, ?_, hsame.id, ?_⟩
    · dsimp only
      rw [(reorder_perm hreply).2]
      exact List.mem_map_of_mem hr
    · rw [hsame.status]
      exact .stays

/-- A row is removed only by a delete that expects its revision, and a delete removes neither a
claimed job nor a completed one. -/
theorem continues_delete (hr : r ∈ t.rows) (id : Text) (revision : ℤ) :
    Continues first t (.delete id revision) r ∨
      (deletedJob t (.delete id revision) = some r.id ∧ r.revision = revision ∧
        (r.status = .queued ∨ r.status = .failed)) := by
  by_cases hp : BotJobs.isDeletableAt id revision r = true
  · right
    obtain ⟨rfl, hrevision, hstatus⟩ := of_decide_eq_true hp
    refine ⟨?_, hrevision, hstatus⟩
    unfold deletedJob BotJobs.deleteBotJob
    dsimp only
    rw [if_neg (count_ne_zero hr hp)]
  · left
    refine ⟨r, ?_, rfl, .stays⟩
    rw [jobStep_delete]
    exact Table.mem_delete.mpr ⟨hr, Bool.eq_false_iff.mpr hp⟩

/-- What an operation can do to a row. -/
theorem jobStep_row (first : FirstRow) (hr : r ∈ t.rows) (op : JobOp) : Continues first t op r ∨
    (deletedJob t op = some r.id ∧ (r.status = .queued ∨ r.status = .failed)) := by
  cases op with
  | enqueue => exact Or.inl (continues_enqueue hr ..)
  | edit => exact Or.inl (continues_edit hr ..)
  | delete => exact (continues_delete hr ..).imp_right fun h => ⟨h.1, h.2.2⟩
  | reorder => exact Or.inl (continues_reorder hr ..)
  | claim => exact Or.inl (continues_claim hr ..)
  | claimNext => exact Or.inl (continues_claimNext hr ..)
  | finish => exact Or.inl (continues_finish hr ..)
  | restart => exact Or.inl (continues_restart hr ..)

/-! The discipline of one operation. -/

/-- An edit, delete or claim that expects another revision than that of its job changes nothing. -/
def StaleChangesNothing (first : FirstRow) (t : BotJobs) (op : JobOp) : Prop :=
  match op with
  | .edit _ id revision _ _ | .delete id revision | .claim _ id revision _ =>
    (∀ r ∈ t.rows, r.id = id → r.revision ≠ revision) → jobStep first t op = t
  | _ => True

theorem stale_changesNothing (op : JobOp) : StaleChangesNothing first t op := by
  have hqueued : ∀ {id revision}, (∀ r ∈ t.rows, r.id = id → r.revision ≠ revision) →
      t.count (BotJobs.isQueuedAt id revision) = 0 := by
    intro id revision hstale
    refine Table.count_eq_zero.mpr fun r hr => decide_eq_false ?_
    rintro ⟨hid, hrevision, -⟩
    exact hstale r hr hid hrevision
  have hdeletable : ∀ {id revision}, (∀ r ∈ t.rows, r.id = id → r.revision ≠ revision) →
      t.count (BotJobs.isDeletableAt id revision) = 0 := by
    intro id revision hstale
    refine Table.count_eq_zero.mpr fun r hr => decide_eq_false ?_
    rintro ⟨hid, hrevision, -⟩
    exact hstale r hr hid hrevision
  cases op with
  | edit =>
    intro hstale
    rw [jobStep_edit]
    exact Table.update_of_count_eq_zero (hqueued hstale)
  | delete =>
    intro hstale
    rw [jobStep_delete]
    exact Table.delete_of_count_eq_zero (hdeletable hstale)
  | claim =>
    intro hstale
    rw [jobStep_claim]
    exact Table.update_of_count_eq_zero (hqueued hstale)
  | _ => trivial

/-- A reorder changes nothing, or gives the queued jobs of the session the positions of the list,
which names each of them once. -/
def ReorderPermutes (t : BotJobs) (op : JobOp) : Prop :=
  match op with
  | .reorder now sessionId orderedIds =>
    (t.reorderBotJobs now sessionId orderedIds).2 = t ∨
      (orderedIds.Nodup ∧ orderedIds.Perm ((t.queuedIn sessionId).map BotJobRow.id) ∧
        ∃ g, (t.reorderBotJobs now sessionId orderedIds).2.rows = t.rows.map g ∧
          ∀ r ∈ t.rows, SamePlaced r (g r) ∧
            (r ∉ t.queuedIn sessionId → g r = r) ∧
            ∀ k : ℕ, orderedIds[k]? = some r.id → (g r).position = k + 1)
  | _ => True

theorem queuedIds_nodup (t : BotJobs) (sessionId : Text) :
    ((t.queuedIn sessionId).map BotJobRow.id).Nodup :=
  t.unique.sublist (List.filter_sublist.map BotJobRow.id)

/-- The listed ids of an accepted reorder are those of queued jobs. -/
theorem queuedIn_of_listed {sessionId : Text} {orderedIds : List Text}
    (hperm : orderedIds.Perm ((t.queuedIn sessionId).map BotJobRow.id)) (hr : r ∈ t.rows)
    (hlisted : r.id ∈ orderedIds) : r ∈ t.queuedIn sessionId := by
  obtain ⟨r', hr', hid⟩ := List.mem_map.mp (hperm.mem_iff.mp hlisted)
  rw [← Table.eq_of_key (mem_queuedIn.mp hr').1 hr hid]
  exact hr'

theorem placeAll_position_of_listed {now sessionId : Text} {orderedIds : List Text} {k : ℕ}
    (hnodup : orderedIds.Nodup) (hr : r ∈ t.queuedIn sessionId) (hk : orderedIds[k]? = some r.id) :
    (placeAll now sessionId orderedIds.zipIdx r).position = k + 1 := by
  obtain ⟨-, hsession, hstatus⟩ := mem_queuedIn.mp hr
  apply placeAll_position now sessionId _ _ _ hsession hstatus
  · rw [List.zipIdx_map_fst]
    exact hnodup
  · exact List.mk_mem_zipIdx_iff_getElem?.mpr hk

theorem reorder_permutes (op : JobOp) : ReorderPermutes t op := by
  cases op with
  | reorder now sessionId orderedIds =>
    cases hreply : (t.reorderBotJobs now sessionId orderedIds).1 with
    | error e => exact Or.inl (reorder_refused hreply)
    | ok listed =>
      obtain ⟨hperm, hrows⟩ := reorder_perm hreply
      have hnodup := hperm.nodup_iff.mpr (queuedIds_nodup t sessionId)
      refine Or.inr ⟨hnodup, hperm, _, hrows, fun r hr =>
        ⟨placeAll_same now sessionId _ r, fun hnot => ?_, fun k hk => ?_⟩⟩
      · apply placeAll_of_not
        rintro e - ⟨-, hsession, hstatus⟩
        exact hnot (mem_queuedIn.mpr ⟨hr, hsession, hstatus⟩)
      · exact placeAll_position_of_listed hnodup
          (queuedIn_of_listed hperm hr (List.mem_of_getElem? hk)) hk
  | _ => trivial

theorem exists_of_count_ne_zero {p : BotJobRow → Bool} (h : t.count p ≠ 0) :
    ∃ r ∈ t.rows, p r = true := by
  by_contra hnone
  push Not at hnone
  exact h (Table.count_eq_zero.mpr fun r hr => Bool.eq_false_iff.mpr (hnone r hr))

theorem claimedJob_of_pick {now sessionId runId id : Text} {next : BotJobRow}
    (hpick : first.pick (t.queuedIn sessionId) = some next)
    (h : claimedJob first t (.claimNext now sessionId runId) = some id) : id = next.id := by
  unfold claimedJob at h
  dsimp only at h
  rw [claimNext_of_pick hpick] at h
  dsimp only at h
  split at h
  · rename_i r hfind
    rw [← Option.some.inj h]
    exact (Table.find_eq_some.mp (Except.ok.inj hfind)).2
  · cases h

/-- A claimed job was queued, and is running behind the claim. -/
theorem claimedJob_spec {op : JobOp} {id : Text} (h : claimedJob first t op = some id) :
    (∃ r ∈ t.rows, r.id = id ∧ r.status = .queued) ∧
      ∃ r ∈ (jobStep first t op).rows, r.id = id ∧ r.status = .running := by
  cases op with
  | claim now id' revision runId =>
    by_cases hcount : t.count (BotJobs.isQueuedAt id' revision) = 0
    · unfold claimedJob BotJobs.claimBotJob at h
      dsimp only at h
      rw [if_pos hcount] at h
      cases h
    · obtain ⟨r, hr, hp⟩ := exists_of_count_ne_zero hcount
      rw [claimed_of_queuedAt hr hp] at h
      obtain rfl := Option.some.inj h
      refine ⟨⟨r, hr, rfl, (of_decide_eq_true hp).2.2⟩, r.claimed now runId, ?_, rfl, rfl⟩
      rw [jobStep_claim]
      exact Table.mem_update.mpr ⟨r, hr, if_pos hp⟩
  | claimNext now sessionId runId =>
    cases hpick : first.pick (t.queuedIn sessionId) with
    | none =>
      unfold claimedJob at h
      dsimp only at h
      rw [claimNext_idle hpick] at h
      cases h
    | some next =>
      obtain ⟨hnext, -, hqueued⟩ := mem_queuedIn.mp (first.mem hpick)
      have hclaimed : next.claimed now runId ∈
          (jobStep first t (.claimNext now sessionId runId)).rows := by
        rw [jobStep_of_pick hpick]
        exact Table.mem_update.mpr ⟨next, hnext, if_pos (decide_eq_true ⟨rfl, hqueued⟩)⟩
      have hid := claimedJob_of_pick hpick h
      exact ⟨⟨next, hnext, hid.symm, hqueued⟩, _, hclaimed, hid.symm, rfl⟩
  | _ => cases h

/-! Runs of operations. -/

/-- What ends a claim. -/
def Releases (t : BotJobs) (op : JobOp) (id : Text) : Prop :=
  op.isRestart ∨ finishedJob t op = some id

/-- The job is claimed and not finished. -/
def Held (id : Text) (t : BotJobs) : Prop := ∃ r ∈ t.rows, r.id = id ∧ r.status = .running

/-- A queued job stays queued, or is claimed. -/
theorem statusStep_queued {op : JobOp} {status : JobStatus} (hstep : StatusStep first t op r status)
    (hqueued : r.status = .queued) : status = .queued ∨ claimedJob first t op = some r.id := by
  cases hstep with
  | stays => exact Or.inl hqueued
  | claimed _ hclaimed => exact Or.inr hclaimed
  | finished _ hrunning _ _ =>
    rw [hqueued] at hrunning
    cases hrunning
  | requeued _ _ => exact Or.inl rfl

theorem held_step {op : JobOp} {id : Text} (hheld : Held id t) (hop : ¬ Releases t op id) :
    Held id (jobStep first t op) := by
  obtain ⟨r, hr, rfl, hstatus⟩ := hheld
  rcases jobStep_row first hr op with ⟨r', hr', hid, hstep⟩ | ⟨-, hremoved⟩
  · refine ⟨r', hr', hid, ?_⟩
    generalize r'.status = status at hstep
    cases hstep with
    | stays => exact hstatus
    | claimed => rfl
    | finished _ _ hfinished => exact absurd (Or.inr hfinished) hop
    | requeued _ hrestart => exact absurd (Or.inl hrestart) hop
  · rw [hstatus] at hremoved
    rcases hremoved with h | h <;> cases h

/-- Between a claim and the next finish of the job or restart, no operation claims it again. -/
theorem claimed_once {op : JobOp} {id : Text} {mid : List JobOp}
    (hclaim : claimedJob first t op = some id)
    (hmid : AllSteps (jobStep first) (fun t op => ¬ Releases t op id) (jobStep first t op) mid)
    (op' : JobOp) :
    claimedJob first (run (jobStep first) (jobStep first t op) mid) op' ≠ some id := by
  have hheld : Held id (run (jobStep first) (jobStep first t op) mid) :=
    run_invariant (fun _ _ => held_step) (claimedJob_spec hclaim).2 hmid
  intro hagain
  obtain ⟨r, hr, hid, hrunning⟩ := hheld
  obtain ⟨r', hr', hid', hqueued⟩ := (claimedJob_spec hagain).1
  rw [Table.eq_of_key hr hr' (hid.trans hid'.symm), hqueued] at hrunning
  cases hrunning

def BotJobRow.Finished (r : BotJobRow) : Prop := r.status = .completed ∨ r.status = .failed

theorem finished_step {op : JobOp} {id : Text} {status : JobStatus}
    (hstatus : status = .completed ∨ status = .failed)
    (h : ∃ r ∈ t.rows, r.id = id ∧ r.status = status) (hop : deletedJob t op ≠ some id) :
    ∃ r ∈ (jobStep first t op).rows, r.id = id ∧ r.status = status := by
  obtain ⟨r, hr, rfl, rfl⟩ := h
  rcases jobStep_row first hr op with ⟨r', hr', hid, hstep⟩ | ⟨hremoved, -⟩
  · refine ⟨r', hr', hid, ?_⟩
    generalize r'.status = status at hstep
    cases hstep with
    | stays => rfl
    | claimed hqueued _ => rw [hqueued] at hstatus; rcases hstatus with h | h <;> cases h
    | finished _ hrunning _ _ => rw [hrunning] at hstatus; rcases hstatus with h | h <;> cases h
    | requeued hrunning _ => rw [hrunning] at hstatus; rcases hstatus with h | h <;> cases h
  · exact absurd hremoved hop

/-- Until it is deleted, a finished job keeps its status, and no operation claims it. -/
theorem finished_stays {mid : List JobOp} (hr : r ∈ t.rows) (hfinished : r.Finished)
    (hmid : AllSteps (jobStep first) (fun t op => deletedJob t op ≠ some r.id) t mid) :
    (∃ r' ∈ (run (jobStep first) t mid).rows, r'.id = r.id ∧ r'.status = r.status) ∧
      ∀ op', claimedJob first (run (jobStep first) t mid) op' ≠ some r.id := by
  have hstays : ∃ r' ∈ (run (jobStep first) t mid).rows, r'.id = r.id ∧ r'.status = r.status :=
    run_invariant (fun _ _ => finished_step hfinished) ⟨r, hr, rfl, rfl⟩ hmid
  refine ⟨hstays, fun op' hclaim => ?_⟩
  obtain ⟨r', hr', hid, hstatus⟩ := hstays
  obtain ⟨r'', hr'', hid', hqueued⟩ := (claimedJob_spec hclaim).1
  rw [Table.eq_of_key hr' hr'' (hid.trans hid'.symm), hqueued] at hstatus
  unfold BotJobRow.Finished at hfinished
  rw [← hstatus] at hfinished
  rcases hfinished with h | h <;> cases h

end
end DeepseekScience.Db
