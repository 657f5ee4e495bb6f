import DeepseekScience.Api.Persistence

/-! Memory and database agree behind every run of a session, whichever of its transactions fail,
and the client is shown the Runner's own terminal event only for a run that was stored. -/
namespace DeepseekScience.Api

open Tables Tools Agent Db Memory Transactions Runs

/-- The session in memory is the stored one. -/
structure Synced (serde : RowSerde) (s : Text) (st : ServerState) : Prop where
  shape : InShape s st.db
  row : ∃ r ∈ st.db.sessions.rows, r.id = s
  messages : serializeMessages serde st.active.session.messages =
    .ok ((transcript s st.db).map Prod.snd)
  cursor : st.active.persistedCount = st.active.session.messages.length
  plan : st.db.getSessionPlan s = st.active.session.plan.map serde.plan

/-- The part `ms` of the history that a run has checkpointed is what is stored, and the snapshot of
the last checkpoint says which plan is stored with it. -/
structure Checkpointed (serde : RowSerde) (s : Text) (start : Session) (ms : List ChatMessage)
    (w : CheckpointWorker) : Prop where
  shape : InShape s w.db
  row : ∃ r ∈ w.db.sessions.rows, r.id = s
  messages : serializeMessages serde ms = .ok ((transcript s w.db).map Prod.snd)
  cursor : w.persistedCount = ms.length
  expected : w.expectedCount = ms.length
  begins : start.messages <+: ms
  snapshot : (ms = start.messages ∧ w.db.getSessionPlan s = start.plan.map serde.plan) ∨
    (start.messages.length < ms.length ∧ ∃ checkpoint, w.durableCheckpoint = some checkpoint ∧
      checkpoint.messagesLen = ms.length ∧
      w.db.getSessionPlan s = checkpoint.plan.map serde.plan)

section
variable {serde : RowSerde} {s : Text} {db db' : SessionDb}

theorem serializeMessages_append {a b : List ChatMessage} {x y : List PersistMessage}
    (ha : serializeMessages serde a = .ok x) (hb : serializeMessages serde b = .ok y) :
    serializeMessages serde (a ++ b) = .ok (x ++ y) := by
  induction a generalizing x with
  | nil =>
    cases ha
    exact hb
  | cons m rest ih =>
    obtain ⟨first, hfirst, ha⟩ := bind_eq_ok.mp ha
    obtain ⟨tail, htail, ha⟩ := bind_eq_ok.mp ha
    cases ha
    refine bind_eq_ok.mpr ⟨first, hfirst, bind_eq_ok.mpr ⟨tail ++ y, ih htail, rfl⟩⟩

theorem serializeMessages_length {ms : List ChatMessage} {x : List PersistMessage}
    (h : serializeMessages serde ms = .ok x) : x.length = ms.length := by
  induction ms generalizing x with
  | nil =>
    cases h
    rfl
  | cons m rest ih =>
    obtain ⟨first, hfirst, h⟩ := bind_eq_ok.mp h
    obtain ⟨tail, htail, h⟩ := bind_eq_ok.mp h
    cases h
    simp only [List.length_cons, ih htail]

/-! The plan that the transactions store. -/

theorem find_update {f : SessionRow → SessionRow} (hf : ∀ r, (f r).id = r.id)
    {t : Table SessionRow.id} (h : ∃ r ∈ t.rows, r.id = s) :
    ∃ r ∈ t.rows, r.id = s ∧ (t.update (fun r => decide (r.id = s)) f hf).find s = some (f r) := by
  obtain ⟨r, hr, hid⟩ := h
  refine ⟨r, hr, hid, Table.find_eq_some.mpr ⟨Table.mem_update.mpr ⟨r, hr, ?_⟩, (hf r).trans hid⟩⟩
  rw [if_pos (decide_eq_true hid)]

theorem exists_row_update {f : SessionRow → SessionRow} (hf : ∀ r, (f r).id = r.id)
    {t : Table SessionRow.id} (h : ∃ r ∈ t.rows, r.id = s) :
    ∃ r ∈ (t.update (fun r => decide (r.id = s)) f hf).rows, r.id = s := by
  obtain ⟨r, -, -, hfind⟩ := find_update hf h
  exact ⟨f r, Table.find_eq_some.mp hfind⟩

theorem persistSession_stores {now : Text} {title : Option Text} {planMode : Bool} {status : Text}
    {planData : Option Text}
    (h : db.persistSession now s title planMode status planData = .ok db') :
    (∃ r ∈ db'.sessions.rows, r.id = s) ∧ db'.getSessionPlan s = planData := by
  obtain ⟨-, -, hrow, hsessions⟩ := persistSession_ok h
  have hf : ∀ r : SessionRow, (r.persisted now title planMode status planData).id = r.id :=
    fun _ => rfl
  obtain ⟨r, -, -, hfind⟩ := find_update hf hrow
  refine ⟨hsessions ▸ exists_row_update hf hrow, ?_⟩
  unfold SessionDb.getSessionPlan
  rw [hsessions, hfind]
  rfl

theorem appendHistoryCheckpoint_stores {now : Text} {request : PersistCheckpointRequest} {n : ℕ}
    (h : db.appendHistoryCheckpoint now request = .ok (n, db')) :
    (∃ r ∈ db'.sessions.rows, r.id = request.sessionId) ∧
      db'.getSessionPlan request.sessionId = request.planData := by
  obtain ⟨-, -, db₁, db₂, -, -, hsession⟩ := appendHistoryCheckpoint_ok h
  exact persistSession_stores hsession

theorem persistRun_stores {now : Text} {request : PersistRunRequest} {result : PersistRunResult}
    (h : db.persistRun now request = .ok (result, db')) :
    (∃ r ∈ db'.sessions.rows, r.id = request.sessionId) ∧
      db'.getSessionPlan request.sessionId = request.planData := by
  obtain ⟨session, db₁, written, db₂, db₃, -, -, -, -, -, -, hpersist, rfl, -⟩ := persistRun_ok h
  obtain ⟨-, -, hsame⟩ := touchProject_frame db₃ now session
  have hstores := persistSession_stores hpersist
  unfold SessionDb.getSessionPlan at hstores ⊢
  rw [hsame]
  exact hstores

theorem commit_eq_ok {α : Type} {failure : Option DbError}
    {tx : Except DbError (α × SessionDb)} {a : α × SessionDb} :
    commit failure tx = .ok a ↔ failure = none ∧ tx = .ok a := by
  unfold commit
  cases failure with
  | none => exact ⟨fun h => ⟨rfl, h⟩, fun h => h.2⟩
  | some e => exact ⟨fun h => absurd h (by simp), fun h => absurd h.1 (by simp)⟩

/-! The checkpoints of a run. -/

/-- The checkpoint worker stores what it is given just when it reports success. -/
theorem checkpointed_step {ctx : CheckpointWorkerContext} (hctx : ctx.sessionId = s)
    {start : Session} {ms new : List ChatMessage} {w : CheckpointWorker}
    (state : HistoryCheckpointState) (hnew : new ≠ []) (h : Checkpointed serde s start ms w) :
    match persistHistoryCheckpoint serde ctx w new state with
    | (.ok (), w') => Checkpointed serde s start (ms ++ new) w'
    | (.error _, w') => Checkpointed serde s start ms w' := by
  have hsame : ∀ w' : CheckpointWorker, w'.db = w.db → w'.persistedCount = w.persistedCount →
      w'.durableCheckpoint = w.durableCheckpoint → w'.expectedCount = w.expectedCount →
      Checkpointed serde s start ms w' := by
    intro w' hdb hcount hcheckpoint hexpected
    refine ⟨hdb ▸ h.shape, hdb ▸ h.row, hdb ▸ h.messages, hcount.trans h.cursor,
      hexpected.trans h.expected, h.begins, ?_⟩
    rw [hdb, hcheckpoint]
    exact h.snapshot
  unfold persistHistoryCheckpoint
  cases hstopped : w.stopped with
  | true => exact h
  | false =>
    cases hserialized : serializeMessages serde new with
    | error e => exact hsame _ rfl rfl rfl rfl
    | ok serialized =>
      simp only [Bool.false_eq_true, if_false]
      rcases htx : commit (ctx.failure w.attempts) (w.db.appendHistoryCheckpoint ctx.now
        (checkpointRequest serde ctx w state serialized)) with e | ⟨n, db'⟩
      · exact hsame _ rfl rfl rfl rfl
      · have happend := (commit_eq_ok.mp htx).2
        obtain ⟨hshape, htranscript⟩ :=
          inShape_extends (appendHistoryCheckpoint_extends happend) h.shape
        obtain ⟨hrow, hplan⟩ := appendHistoryCheckpoint_stores happend
        obtain ⟨hn, -⟩ := appendHistoryCheckpoint_ok happend
        have hlength : n = (ms ++ new).length := by
          rw [hn, List.length_append, ← serializeMessages_length hserialized, ← h.expected]
          rfl
        have hpos := List.length_pos_of_ne_nil hnew
        refine ⟨hshape, hctx ▸ hrow, ?_, hlength, hlength,
          h.begins.trans (List.prefix_append ..), Or.inr ⟨?_, _, rfl, hlength, hctx ▸ hplan⟩⟩
        · rw [serializeMessages_append h.messages hserialized, htranscript,
            if_pos (show (checkpointRequest serde ctx w state serialized).sessionId = s from hctx),
            List.map_append, List.map_map]
          simp only [Function.comp_def, checkpointRequest, List.map_id']
        · have := h.begins.length_le
          rw [List.length_append]
          omega

theorem durable_checkpoints (serde : RowSerde) (req : RunRequest CheckpointWorker) {ctx : CheckpointWorkerContext}
    (hctx : ctx.sessionId = s) (start : Session) :
    Durable { req with historyCheckpoint := some (persistHistoryCheckpoint serde ctx) }
      fun _ => Checkpointed serde s start := by
  intro _ ms new w state hnew h
  have hstep := checkpointed_step hctx state hnew h
  rcases hr : persistHistoryCheckpoint serde ctx w new state with ⟨_ | _, w'⟩
  · rw [hr] at hstep
    exact hstep
  · rw [hr] at hstep
    exact hstep

/-- What a run leaves behind is what it has checkpointed, and messages behind it. -/
theorem execute_checkpointed (input : RunInput) (initialPlan : Option PlanState)
    {session : Session} {w : CheckpointWorker}
    (h : Checkpointed serde s session session.messages w) :
    ∃ ms, ms <+: (execute serde s input initialPlan session w).session.messages ∧
      Checkpointed serde s session ms (execute serde s input initialPlan session w).worker := by
  unfold execute
  split_ifs
  · have hdurable := durable_checkpoints serde input.request
      (show (workerContext s input).sessionId = s from rfl) session
    obtain ⟨sent, added, -, hmessages, -, -, ⟨ms, hbegins, hms⟩, -⟩ :=
      run_ended hdurable session { plan := initialPlan } { openFor := input.openFor } w h
    rw [← hmessages] at hbegins
    exact ⟨ms, hbegins, hms⟩
  · exact ⟨session.messages, List.prefix_append .., h⟩

/-! The end of a run. -/

theorem take_of_begins {a b : List ChatMessage} (h : a <+: b) : b.take a.length = a :=
  (List.prefix_iff_eq_take.mp h).symm

/-- The rolled back session is the one that the last checkpoint has stored. -/
theorem rollback_synced {start session : Session} {ms : List ChatMessage} {w : CheckpointWorker}
    (h : Checkpointed serde s start ms w) (hms : ms <+: session.messages) :
    Synced serde s ⟨w.db, ⟨rollbackFailedRun session (DurableSessionSnapshot.capture start)
      w.persistedCount w.durableCheckpoint, w.persistedCount⟩⟩ := by
  have hsession : (rollbackFailedRun session (DurableSessionSnapshot.capture start)
      w.persistedCount w.durableCheckpoint).messages = ms ∧
      w.db.getSessionPlan s = (rollbackFailedRun session (DurableSessionSnapshot.capture start)
        w.persistedCount w.durableCheckpoint).plan.map serde.plan := by
    unfold rollbackFailedRun
    rw [h.cursor, show (DurableSessionSnapshot.capture start).messagesLen =
      start.messages.length from rfl]
    rcases h.snapshot with ⟨rfl, hplan⟩ | ⟨hlt, checkpoint, hcheckpoint, hlen, hplan⟩
    · rw [if_pos (le_refl _)]
      exact ⟨take_of_begins hms, hplan⟩
    · rw [if_neg (not_le.mpr hlt), hcheckpoint]
      refine ⟨?_, hplan⟩
      simp only [DurableToolCheckpointSnapshot.restore, hlen]
      rw [if_pos hms.length_le]
      exact take_of_begins hms
  refine ⟨h.shape, h.row, ?_, ?_, hsession.2⟩
  · rw [hsession.1]
    exact h.messages
  · rw [hsession.1]
    exact h.cursor

/-- The terminal transaction stores the messages behind the last checkpoint. -/
theorem terminalTransaction_ok {input : RunInput} {setInitialTitle : Bool} {start : Session}
    {persistedBefore : ℕ} {e : Executed} {ms : List ChatMessage} {result : PersistRunResult}
    (h : Checkpointed serde s start ms e.worker) (hms : ms <+: e.session.messages)
    (hok : terminalTransaction serde s input setInitialTitle persistedBefore e =
      .ok (result, db')) :
    ∃ rest messages, ms ++ rest = e.session.messages ∧
      serializeMessages serde rest = .ok messages ∧
      e.worker.db.persistRun input.now
        (persistRequest serde s input setInitialTitle persistedBefore e messages) =
        .ok (result, db') := by
  obtain ⟨rest, hrest⟩ := hms
  have hdrop : e.session.messages.drop e.worker.persistedCount = rest := by
    rw [h.cursor, ← hrest, List.drop_left]
  unfold terminalTransaction at hok
  rw [hdrop] at hok
  cases hserialized : serializeMessages serde rest with
  | error e =>
    rw [hserialized] at hok
    cases hok
  | ok messages =>
    rw [hserialized] at hok
    exact ⟨rest, messages, hrest, hserialized, (commit_eq_ok.mp hok).2⟩

/-- A run ends stored or rolled back, and is reported as stored just when it is. -/
theorem finalizeRun_synced (input : RunInput) (setInitialTitle : Bool) {start : Session}
    (persistedBefore runMessageStart : ℕ) {e : Executed} {ms : List ChatMessage}
    (h : Checkpointed serde s start ms e.worker) (hms : ms <+: e.session.messages) :
    Synced serde s (finalizeRun serde s input setInitialTitle
      (DurableSessionSnapshot.capture start) persistedBefore runMessageStart e).2 ∧
    ((finalizeRun serde s input setInitialTitle (DurableSessionSnapshot.capture start)
      persistedBefore runMessageStart e).1.persistence = .committed ↔
      (finalizeRun serde s input setInitialTitle (DurableSessionSnapshot.capture start)
        persistedBefore runMessageStart e).1.persisted.isSome = true) := by
  unfold finalizeRun
  rcases htx : terminalTransaction serde s input setInitialTitle persistedBefore e with
    error | ⟨result, db'⟩
  · exact ⟨rollback_synced h hms, by simp [RunPersistenceState.setError]⟩
  · obtain ⟨rest, messages, hrest, hserialized, hpersist⟩ := terminalTransaction_ok h hms htx
    obtain ⟨hshape, htranscript⟩ :=
      inShape_extends (persistRun_extends h.shape.1 hpersist) h.shape
    obtain ⟨hrow, hplan⟩ := persistRun_stores hpersist
    refine ⟨⟨hshape, hrow, ?_, rfl, hplan⟩, by simp [RunPersistenceState.markCommitted]⟩
    dsimp only
    rw [← hrest, serializeMessages_append h.messages hserialized, htranscript,
      if_pos (show (persistRequest serde s input setInitialTitle persistedBefore e
        messages).sessionId = s from rfl), List.map_append, List.map_map]
    simp only [Function.comp_def, persistRequest, List.map_id']

/-- The worker of a run that begins. -/
def freshWorker (st : ServerState) (input : RunInput) : CheckpointWorker where
  db := st.db
  persistedCount := st.active.persistedCount
  expectedCount := st.active.persistedCount
  title := some (input.request.prompt.take 60)

/-- How a run of a session whose cursor is right is finalized. -/
def finalized (serde : RowSerde) (s : Text) (input : RunInput) (initialPlan : Option PlanState)
    (setInitialTitle : Bool) (st : ServerState) : RunReport × ServerState :=
  finalizeRun serde s input setInitialTitle (DurableSessionSnapshot.capture st.active.session)
    st.active.persistedCount st.active.session.messages.length
    (execute serde s input initialPlan st.active.session (freshWorker st input))

theorem runTask_eq {input : RunInput} {initialPlan : Option PlanState} {setInitialTitle : Bool}
    {st : ServerState} (h : st.active.persistedCount = st.active.session.messages.length) :
    runTask serde s input initialPlan setInitialTitle st =
      (some (finalized serde s input initialPlan setInitialTitle st).1,
        (finalized serde s input initialPlan setInitialTitle st).2) := by
  have hcursor : validatedPersistenceCursor st.active.persistedCount
      (DurableSessionSnapshot.capture st.active.session) = .ok st.active.persistedCount :=
    if_pos h
  unfold runTask
  dsimp only
  rw [hcursor]
  rfl

theorem Synced.checkpointed {input : RunInput} {st : ServerState} (h : Synced serde s st) :
    Checkpointed serde s st.active.session st.active.session.messages (freshWorker st input) :=
  ⟨h.shape, h.row, h.messages, h.cursor, h.cursor, List.prefix_refl _, Or.inl ⟨rfl, h.plan⟩⟩

variable (serde) in
/-- A session in memory that is the stored one passes the check of its cursor, and its run ends
with a session in memory that is the stored one. -/
theorem runTask_synced {input : RunInput} {initialPlan : Option PlanState} {setInitialTitle : Bool}
    {st : ServerState} (h : Synced serde s st) :
    Synced serde s (runTask serde s input initialPlan setInitialTitle st).2 ∧
      ∃ report, (runTask serde s input initialPlan setInitialTitle st).1 = some report ∧
        (report.persistence = .committed ↔ report.persisted.isSome = true) := by
  rw [runTask_eq h.cursor]
  obtain ⟨ms, hms, hchecked⟩ := execute_checkpointed input initialPlan (h.checkpointed)
  obtain ⟨hsynced, hreport⟩ := finalizeRun_synced input setInitialTitle st.active.persistedCount
    st.active.session.messages.length hchecked hms
  exact ⟨hsynced, _, rfl, hreport⟩

/-! The acceptance of a run. -/

/-- What changes neither messages nor runs changes no transcript. -/
theorem sameTranscript_of_eq (hruns : db'.runs = db.runs) (hmessages : db'.messages = db.messages) :
    SameTranscript db db' s := by
  refine ⟨?_, by rw [hmessages], id, ⟨fun _ => rfl, fun _ => rfl, fun _ => rfl⟩, ?_,
    fun _ _ => ⟨rfl, rfl⟩⟩
  · unfold SessionDb.messagesOf
    rw [hmessages]
  · rw [hruns, List.map_id]

theorem clearPlan_synced {st : ServerState} (input : RunInput) (h : Synced serde s st) :
    Synced serde s (clearPlan s st input) := by
  unfold clearPlan
  split_ifs
  · have hsame : SameTranscript st.db (st.db.setSessionPlan input.now s none) s :=
      sameTranscript_of_eq rfl rfl
    have hf : ∀ r : SessionRow, (r.withPlan input.now none).id = r.id := fun _ => rfl
    have hshape := hsame.intact h.shape.2
    refine ⟨⟨hsame.foreignKeys h.shape.1, hshape⟩, exists_row_update hf h.row, ?_, h.cursor, ?_⟩
    · rw [transcript_eq hshape, hsame.messages, ← transcript_eq h.shape.2]
      exact h.messages
    · obtain ⟨r, -, -, hfind⟩ := find_update hf h.row
      unfold SessionDb.getSessionPlan SessionDb.setSessionPlan
      rw [hfind]
      rfl
  · exact h

theorem markProcessing_synced {st : ServerState} (input : RunInput) (h : Synced serde s st) :
    Synced serde s (markProcessing s st input) := by
  unfold markProcessing
  split_ifs
  · have hsame : SameTranscript st.db
        (st.db.setSessionStatus input.now s "processing".toList) s := sameTranscript_of_eq rfl rfl
    have hf : ∀ r : SessionRow, (r.withStatus input.now "processing".toList).id = r.id :=
      fun _ => rfl
    have hshape := hsame.intact h.shape.2
    refine ⟨⟨hsame.foreignKeys h.shape.1, hshape⟩, exists_row_update hf h.row, ?_, h.cursor, ?_⟩
    · rw [transcript_eq hshape, hsame.messages, ← transcript_eq h.shape.2]
      exact h.messages
    · obtain ⟨r, hr, hid, hfind⟩ := find_update hf h.row
      have hplan := h.plan
      unfold SessionDb.getSessionPlan at hplan ⊢
      unfold SessionDb.setSessionStatus
      rw [Table.find_eq_some.mpr ⟨hr, hid⟩] at hplan
      rw [hfind]
      exact hplan
  · exact h

/-- A request to run is refused, or its task runs behind the clearing of an old plan and the mark of
the session. -/
theorem streamSse_runs (serde : RowSerde) (s : Text) (st : ServerState) (input : RunInput) :
    streamSse serde s st input = (none, st) ∨
      streamSse serde s st input = (none, clearPlan s st input) ∨
      ∃ initialPlan setInitialTitle,
        selectRunPlan st.active.session.plan input.request.planMode input.executePlan =
          .ok initialPlan ∧
        streamSse serde s st input =
          runTask serde s { input with runId := trim input.runId } initialPlan setInitialTitle
            (markProcessing s (clearPlan s st input) input) := by
  unfold streamSse
  dsimp only
  by_cases hid : (trim input.runId).isEmpty = true ∨ 128 < byteLen (trim input.runId)
  · exact Or.inl (if_pos hid)
  rw [if_neg hid]
  cases selectRunPlan st.active.session.plan input.request.planMode input.executePlan with
  | error _ => exact Or.inl rfl
  | ok initialPlan =>
    dsimp only
    split_ifs
    · exact Or.inl rfl
    · exact Or.inr (Or.inl rfl)
    · exact Or.inr (Or.inr ⟨initialPlan, _, rfl, rfl⟩)

theorem streamSse_accepted {st : ServerState} {input : RunInput} {initialPlan : Option PlanState}
    (hid : ¬ ((trim input.runId).isEmpty = true ∨ 128 < byteLen (trim input.runId)))
    (hplan : selectRunPlan st.active.session.plan input.request.planMode input.executePlan =
      .ok initialPlan)
    (haccepted : (!input.accepted || (clearsPlan st input && input.clearPlanFailure.isSome)) = false)
    (hstatus : (input.executePlan && input.setStatusFailure.isSome) = false) :
    streamSse serde s st input =
      runTask serde s { input with runId := trim input.runId } initialPlan
        (((markProcessing s (clearPlan s st input) input).db.sessions.find s).any
          fun row => row.title.isNone) (markProcessing s (clearPlan s st input) input) := by
  unfold streamSse
  dsimp only
  rw [if_neg hid, hplan]
  dsimp only
  rw [haccepted, hstatus]
  rfl

theorem finalizeRun_ok {input : RunInput} {setInitialTitle : Bool} {e : Executed}
    {persistedBefore : ℕ} {result : PersistRunResult} (durableSnapshot : DurableSessionSnapshot)
    (runMessageStart : ℕ)
    (htx : terminalTransaction serde s input setInitialTitle persistedBefore e =
      .ok (result, db')) :
    finalizeRun serde s input setInitialTitle durableSnapshot persistedBefore runMessageStart e =
      ({ outcome := e.outcome
         persistence := RunPersistenceState.markCommitted .pending
         persisted := some result
         evidence := evidenceOf s input persistedBefore runMessageStart e
         sent := e.sent },
        ⟨db', ⟨e.session, e.session.messages.length⟩⟩) := by
  unfold finalizeRun
  rw [htx]

/-- A request to run is refused, or its task begins; in both cases with a session in memory that
is the stored one. -/
theorem streamSse_cases {st : ServerState} (input : RunInput) (h : Synced serde s st) :
    (∃ st₁, Synced serde s st₁ ∧ streamSse serde s st input = (none, st₁)) ∨
      ∃ st₁ initialPlan setInitialTitle, Synced serde s st₁ ∧
        streamSse serde s st input =
          runTask serde s { input with runId := trim input.runId } initialPlan setInitialTitle
            st₁ := by
  have hcleared := clearPlan_synced input h
  rcases streamSse_runs serde s st input with heq | heq | ⟨initialPlan, setInitialTitle, -, heq⟩
  · exact Or.inl ⟨st, h, heq⟩
  · exact Or.inl ⟨_, hcleared, heq⟩
  · exact Or.inr ⟨_, initialPlan, setInitialTitle, markProcessing_synced input hcleared, heq⟩

theorem streamSse_synced {st : ServerState} (input : RunInput) (h : Synced serde s st) :
    Synced serde s (streamSse serde s st input).2 ∧
      ∀ report ∈ (streamSse serde s st input).1,
        (report.persistence = .committed ↔ report.persisted.isSome = true) := by
  rcases streamSse_cases input h with ⟨st₁, hst, heq⟩ | ⟨st₁, plan, title, hst, heq⟩
  · rw [heq]
    exact ⟨hst, fun report hreport => absurd hreport (by simp)⟩
  · rw [heq]
    obtain ⟨hsynced, report, hreport, hiff⟩ := runTask_synced serde hst
    rw [hreport]
    refine ⟨hsynced, fun r hr => ?_⟩
    rw [← Option.mem_some_iff.mp hr]
    exact hiff

/-- The client is shown the Runner's own terminal event for a run that was stored, and an error for
one that was not. -/
def ShowsStored (report : RunReport) : Prop :=
  match report.persisted with
  | some _ => ∀ event, relayTerminal true report.persistence event = some event
  | none =>
    (∀ event, ∃ message, relayTerminal true report.persistence event = some (.error message)) ∧
      ∃ message, relayClosed report.persistence = some (.error message)

theorem showsStored_of_iff {report : RunReport}
    (h : report.persistence = .committed ↔ report.persisted.isSome = true) :
    ShowsStored report := by
  unfold ShowsStored
  cases hpersisted : report.persisted with
  | some result =>
    rw [hpersisted] at h
    rw [h.mpr rfl]
    exact fun event => rfl
  | none =>
    have hmessage : ∃ message, persistenceFailureMessage report.persistence = some message := by
      cases hstate : report.persistence with
      | committed =>
        rw [hpersisted] at h
        exact absurd (h.mp hstate) (by simp)
      | pending => exact ⟨_, rfl⟩
      | failed message => exact ⟨message, rfl⟩
    obtain ⟨message, hmessage⟩ := hmessage
    refine ⟨fun event => ⟨message, ?_⟩, message, ?_⟩
    · unfold relayTerminal
      rw [hmessage]
      rfl
    · unfold relayClosed
      rw [hmessage]
      rfl

/-- A session that was just created is stored as it is. -/
theorem synced_created (serde : RowSerde) {session : Session} {row : SessionRow}
    (hkeys : ForeignKeys db) (hmessages : db.messagesOf s = []) (hruns : db.runsOf s = [])
    (hrow : db.sessions.find s = some row) (hplan : row.planData = none)
    (hsession : session.messages = []) (hnone : session.plan = none) :
    Synced serde s ⟨db, ⟨session, 0⟩⟩ := by
  have hshape := inShape_empty hkeys hmessages hruns
  refine ⟨hshape, ⟨row, Table.find_eq_some.mp hrow⟩, ?_, ?_, ?_⟩
  · rw [transcript_eq hshape.2, hmessages, hsession]
    rfl
  · rw [hsession]
    rfl
  · unfold SessionDb.getSessionPlan
    rw [hrow, hnone]
    exact hplan

/-- Whatever the runs of a session do and whichever of their transactions fail: behind each of them
the messages in memory are the stored ones, the cursor counts them, the plan is the stored one, the
next run passes the check of its cursor, and the client is shown what was stored. -/
theorem memory_matches_database (serde : RowSerde) (s : Text) (st : ServerState)
    (h : Synced serde s st) (inputs : List RunInput) :
    Always (fun st input => (streamSse serde s st input).2)
        (fun st => Synced serde s st ∧
          validatedPersistenceCursor st.active.persistedCount
            (DurableSessionSnapshot.capture st.active.session) =
            .ok st.active.session.messages.length) st inputs ∧
      AllSteps (fun st input => (streamSse serde s st input).2)
        (fun st input => ∀ report ∈ (streamSse serde s st input).1, ShowsStored report)
        st inputs := by
  have hstep : ∀ st input, Synced serde s st → True →
      Synced serde s (streamSse serde s st input).2 := fun st input h _ =>
    (streamSse_synced input h).1
  constructor
  · refine always_of_guarded hstep (fun st h => ⟨h, ?_⟩) h allSteps_true
    rw [← h.cursor]
    exact if_pos h.cursor
  · refine allSteps_of_guarded hstep (fun st input h _ report hreport => ?_) h allSteps_true
    exact showsStored_of_iff ((streamSse_synced input h).2 report hreport)

end

/-! A sample: the model answers at once. -/

def helloItems : List (Except Text StreamEvent) := [.ok (.text "hi".toList), .ok (.finish none)]

theorem sorted_nil : ([] : List Tool).Pairwise fun t u => t.name < u.name := List.Pairwise.nil

def helloRequest : RunRequest CheckpointWorker where
  model := "deepseek-chat".toList
  prompt := "hello".toList
  tools := ⟨[], sorted_nil⟩
  maxIterations := 1
  contextWindow := 128000
  runContext := []
  planMode := false
  memoryBlock := none
  historyCheckpoint := none
  freshFrameId := "frame-2".toList
  parseExplicitIterationLimit := fun _ => none
  microcompact := id
  json := ⟨fun _ => none, fun _ => []⟩
  ratios := ⟨fun n => n * 3 / 4, fun n => n * 9 / 10, fun n => n * 7 / 10, fun n => n * 7 / 10⟩
  turns := fun _ =>
    { stream := .ok helloItems
      callIds := natText
      tasks := fun _ ctx _ => ⟨.withoutResult, ctx⟩ }

def sampleSerde : RowSerde where
  message := fun m => .ok (m.content.getD [])
  plan := fun _ => []
  pendingAsk := fun _ => []

def helloInput : RunInput where
  runId := "r1".toList
  executePlan := false
  request := helloRequest

def helloState : ServerState := ⟨freshDb, ⟨sampleSession [], 0⟩⟩

theorem helloState_synced : Synced sampleSerde "s1".toList helloState :=
  synced_created sampleSerde (fun _ h => absurd h List.not_mem_nil) rfl rfl rfl rfl rfl rfl

/-- The transaction of the second of two runs fails. -/
theorem memory_matches_database_hello :
    Always (fun st input => (streamSse sampleSerde "s1".toList st input).2)
        (fun st => Synced sampleSerde "s1".toList st ∧
          validatedPersistenceCursor st.active.persistedCount
            (DurableSessionSnapshot.capture st.active.session) =
            .ok st.active.session.messages.length) helloState
        [helloInput, { helloInput with persistFailure := some (.other []) }] ∧
      AllSteps (fun st input => (streamSse sampleSerde "s1".toList st input).2)
        (fun st input => ∀ report ∈ (streamSse sampleSerde "s1".toList st input).1,
          ShowsStored report) helloState
        [helloInput, { helloInput with persistFailure := some (.other []) }] :=
  memory_matches_database sampleSerde "s1".toList helloState helloState_synced _

end DeepseekScience.Api
