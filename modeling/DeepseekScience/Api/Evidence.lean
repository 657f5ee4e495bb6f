import DeepseekScience.Api.Durability
import DeepseekScience.Agent.PlanExecution

/-! The evidence of a run names a range of messages that is not the one that was stored for it. -/
namespace DeepseekScience.Api

open Tables Tools Agent Dsml Db Memory Transactions Runs Exits

section
variable {serde : RowSerde} {s now : Text} {db db' : SessionDb}

theorem mem_updateRun {runId : Text} {f : RunRow → RunRow} {hf : ∀ r, (f r).runId = r.runId}
    {run : RunRow} (hmem : run ∈ db.runs.rows) (hid : run.runId = runId) :
    f run ∈ (db.updateRun runId f hf).runs.rows :=
  List.mem_map.mpr ⟨run, hmem, if_pos (decide_eq_true hid)⟩

/-- The row that the terminal transaction writes has the block that it reports. -/
theorem persistRun_row {request : PersistRunRequest} {result : PersistRunResult}
    (hok : db.persistRun now request = .ok (result, db')) :
    ∃ row, db'.runs.find request.runId = some row ∧ row.runId = request.runId ∧
      row.startSeq = result.startSeq ∧ row.endSeq = result.endSeq := by
  obtain ⟨session, db₁, written, db₂, db₃, -, -, -, hrun, -, hmessages, hpersist, rfl, hstart,
    hend⟩ := persistRun_ok hok
  obtain ⟨-, hruns, -⟩ := insertMessages_ok hmessages
  obtain ⟨-, hruns', -⟩ := persistSession_ok hpersist
  rw [(touchProject_frame db₃ now session).2.1, hruns', hruns]
  have hrow : ∃ row ∈ db₁.runs.rows, row.runId = request.runId ∧
      row.startSeq = result.startSeq ∧ row.endSeq = result.endSeq := by
    rw [hstart, hend]
    unfold SessionDb.terminateRun at hrun
    cases hfind : db.runs.find request.runId with
    | none =>
      rw [hfind] at hrun
      rw [(insertRun_ok hrun).1]
      exact ⟨_, List.mem_append_right _ (List.mem_singleton_self _), rfl, rfl, rfl⟩
    | some run =>
      rw [hfind] at hrun
      cases hrun
      obtain ⟨hmem, hid⟩ := Table.find_eq_some.mp hfind
      exact ⟨_, mem_updateRun hmem hid, hid, rfl, rfl⟩
  obtain ⟨row, hmem, hid, hrest⟩ := hrow
  exact ⟨row, Table.find_eq_some.mpr ⟨hmem, hid⟩, hid, hrest⟩

/-- The block of a run ends with the last message; without checkpoints it begins behind the messages
that were there. -/
theorem persistRun_block {request : PersistRunRequest} {result : PersistRunResult}
    (h : InShape s db) (hs : request.sessionId = s)
    (hok : db.persistRun now request = .ok (result, db')) :
    (request.checkpointStartSeq = none → ∀ a ∈ result.startSeq, a = db.maxSeq s + 1) ∧
      ∀ b ∈ result.endSeq, b = db.maxSeq s + request.messages.length := by
  obtain ⟨session, db₁, written, db₂, db₃, -, hordinal, hensure, hrun, hwritten, -, -, -, hstart,
    hend⟩ := persistRun_ok hok
  subst hs
  rw [hstart, hend]
  unfold terminalStart terminalEnd
  unfold SessionDb.ensureCheckpoint at hensure
  unfold SessionDb.terminalOrdinal at hordinal
  cases hfind : db.runs.find request.runId with
  | none =>
    have hsame : db₁.messagesOf request.sessionId = db.messagesOf request.sessionId := by
      unfold SessionDb.messagesOf
      rw [(terminateRun_ok hrun).1]
    have hnone : request.checkpointStartSeq = none := by
      apply checkpointMessages_none h.1 hfind (n := written)
      unfold SessionDb.checkpointMessages at hwritten ⊢
      rw [hsame] at hwritten
      exact hwritten
    rw [hnone]
    by_cases hempty : request.messages.isEmpty = true
    · simp [hempty]
    · simp [hempty]
  | some run =>
    rw [hfind] at hensure hordinal
    obtain ⟨hsession, -⟩ := ensure_bind_eq_ok.mp hordinal
    obtain ⟨hrunStart, hensure⟩ := ensure_bind_eq_ok.mp hensure
    have hrunEnd := ensure_eq_ok.mp hensure
    have hmem := mem_runsOf.mpr ⟨(Table.find_eq_some.mp hfind).1, hsession⟩
    obtain ⟨a, ha, -⟩ := (h.2.spans run hmem).bounded hrunEnd
    refine ⟨fun hnone => ?_, ?_⟩
    · rw [← hrunStart, ha] at hnone
      cases hnone
    · by_cases hempty : request.messages.isEmpty = true
      · simp [hrunEnd, List.isEmpty_iff.mp hempty]
      · simp [hempty]

/-- The stored messages are as many as the checkpointed ones. -/
theorem Checkpointed.maxSeq {start : Session} {ms : List ChatMessage} {w : CheckpointWorker}
    (h : Checkpointed serde s start ms w) : w.db.maxSeq s = ms.length := by
  have hlength := serializeMessages_length h.messages
  rw [transcript_eq h.shape.2, List.length_map, List.length_map] at hlength
  rw [h.shape.2.maxSeq, hlength]

/-- The evidence counts from the first checkpointed message, or from the start of the session, and
ends one too far. -/
theorem evidenceOf_eq {start : Session} {ms : List ChatMessage} {input : RunInput} {e : Executed}
    (h : Checkpointed serde s start ms e.worker) {evidence : EvidenceRef}
    (he : evidenceOf s input start.messages.length start.messages.length e = some evidence) :
    evidence.runId = some input.runId ∧
      evidence.seqStart = (if start.messages.length < ms.length then start.messages.length + 1 else 1) ∧
      evidence.seqEnd =
        evidence.seqStart + ((e.session.messages.length - start.messages.length : ℕ) : ℤ) := by
  unfold evidenceOf at he
  split_ifs at he
  obtain rfl := Option.some.inj he
  refine ⟨rfl, ?_, ?_⟩
  · show max ((checkpointStartSeq e.worker.persistedCount start.messages.length).getD 1) 1 = _
    rw [h.cursor]
    unfold checkpointStartSeq
    split_ifs
    · simp only [Option.getD_some]
      omega
    · rfl
  · simp only [List.length_drop]
    omega

/-- The evidence of a run is not the block that the run has in the database: its end is one too
far, or, without checkpoints, it counts from the start of the session. -/
theorem evidenceOf_misses {start : Session} {ms : List ChatMessage} {input : RunInput}
    {setInitialTitle : Bool} {e : Executed} (h : Checkpointed serde s start ms e.worker)
    (hms : ms <+: e.session.messages) {result : PersistRunResult}
    (htx : terminalTransaction serde s input setInitialTitle start.messages.length e =
      .ok (result, db')) {evidence : EvidenceRef}
    (he : evidenceOf s input start.messages.length start.messages.length e = some evidence) :
    ∃ row, db'.runs.find input.runId = some row ∧ evidence.runId = some row.runId ∧
      ¬ (row.startSeq = some evidence.seqStart ∧ row.endSeq = some evidence.seqEnd) := by
  obtain ⟨rest, messages, hrest, hserialized, hpersist⟩ := terminalTransaction_ok h hms htx
  obtain ⟨row, hrow, hid, hstart, hend⟩ := persistRun_row hpersist
  obtain ⟨hfirst, hlast⟩ := persistRun_block h.shape rfl hpersist
  obtain ⟨hrun, hseqStart, hseqEnd⟩ := evidenceOf_eq h he
  refine ⟨row, hrow, hrun.trans (congrArg some hid.symm), ?_⟩
  rw [hstart, hend]
  rintro ⟨hstart, hend⟩
  have hend' : evidence.seqEnd = e.worker.db.maxSeq s + messages.length := hlast _ hend
  have hlength : messages.length = rest.length := serializeMessages_length hserialized
  have htotal : ms.length + rest.length = e.session.messages.length := by
    rw [← hrest, List.length_append]
  have hbegins := h.begins.length_le
  rw [h.maxSeq] at hend' hfirst
  by_cases hlt : start.messages.length < ms.length
  · rw [if_pos hlt] at hseqStart
    omega
  · rw [if_neg hlt] at hseqStart
    have hnone : checkpointStartSeq e.worker.persistedCount start.messages.length = none := by
      rw [h.cursor]
      exact if_neg hlt
    have hstart' := hfirst hnone _ hstart
    omega

/-- A run whose evidence there is has been stored. -/
theorem finalized_misses {input : RunInput} {initialPlan : Option PlanState}
    {setInitialTitle : Bool} {st : ServerState} (h : Synced serde s st) {evidence : EvidenceRef}
    (he : (finalized serde s input initialPlan setInitialTitle st).1.evidence = some evidence) :
    ∃ row, (finalized serde s input initialPlan setInitialTitle st).2.db.runs.find input.runId =
        some row ∧ evidence.runId = some row.runId ∧
      ¬ (row.startSeq = some evidence.seqStart ∧ row.endSeq = some evidence.seqEnd) := by
  obtain ⟨ms, hms, hchecked⟩ := execute_checkpointed input initialPlan (h.checkpointed)
  unfold finalized finalizeRun at he ⊢
  rw [h.cursor] at he ⊢
  rcases htx : terminalTransaction serde s input setInitialTitle st.active.session.messages.length
    (execute serde s input initialPlan st.active.session (freshWorker st input)) with
    error | ⟨result, db'⟩
  · rw [htx] at he
    cases he
  · rw [htx] at he
    exact evidenceOf_misses hchecked hms htx he

/-- What the memories of a run are told about where it is stored is wrong. -/
def EvidenceMisses (runId : Text) (report : RunReport) (db : SessionDb) : Prop :=
  ∀ evidence ∈ report.evidence, ∃ row, db.runs.find runId = some row ∧
    evidence.runId = some row.runId ∧
    ¬ (row.startSeq = some evidence.seqStart ∧ row.endSeq = some evidence.seqEnd)

theorem streamSse_misses {st : ServerState} (input : RunInput) (h : Synced serde s st) :
    ∀ report ∈ (streamSse serde s st input).1,
      EvidenceMisses (trim input.runId) report (streamSse serde s st input).2.db := by
  rcases streamSse_cases input h with ⟨st₁, hst, heq⟩ | ⟨st₁, plan, title, hst, heq⟩
  · rw [heq]
    exact fun report hreport => absurd hreport (by simp)
  · rw [heq, runTask_eq hst.cursor]
    intro report hreport evidence hevidence
    rw [← Option.mem_some_iff.mp hreport] at hevidence
    exact finalized_misses hst hevidence

/-- In every history of a session, no run whose memories have evidence has the block of messages
that the evidence names. -/
theorem evidence_never_names_stored_block (serde : RowSerde) (s : Text) (st : ServerState)
    (h : Synced serde s st) (inputs : List RunInput) :
    AllSteps (fun st input => (streamSse serde s st input).2)
      (fun st input => ∀ report ∈ (streamSse serde s st input).1,
        EvidenceMisses (trim input.runId) report (streamSse serde s st input).2.db) st inputs := by
  have hstep : ∀ st input, Synced serde s st → True →
      Synced serde s (streamSse serde s st input).2 := fun st input h _ =>
    (streamSse_synced input h).1
  exact allSteps_of_guarded hstep (fun st input h _ => streamSse_misses input h) h allSteps_true

end

theorem evidence_never_names_stored_block_hello :
    AllSteps (fun st input => (streamSse sampleSerde "s1".toList st input).2)
      (fun st input => ∀ report ∈ (streamSse sampleSerde "s1".toList st input).1,
        EvidenceMisses (trim input.runId) report
          (streamSse sampleSerde "s1".toList st input).2.db) helloState [helloInput] :=
  evidence_never_names_stored_block sampleSerde "s1".toList helloState helloState_synced _

/-! The sample's run, up to its evidence. -/

/-- The server in front of the run, which it has marked. -/
def helloMarked : ServerState := markProcessing "s1".toList helloState helloInput

def checkpointedRequest : RunRequest CheckpointWorker :=
  { helloRequest with
    historyCheckpoint := some (persistHistoryCheckpoint sampleSerde
      (workerContext "s1".toList helloInput)) }

def helloSetup : RunSetup := runSetup checkpointedRequest (sampleSession []) {}

def helloStart : RunState CheckpointWorker :=
  (startRun checkpointedRequest (sampleSession []) {} {} (freshWorker helloMarked helloInput)).2

def helloIteration : IterationSetup := ⟨1, false, false⟩

def helloOpened (requests : List ChatRequest) : RunState CheckpointWorker :=
  { helloStart with
    tx := (helloStart.tx.offer (.iteration 1)).2
    progress := helloStart.progress.beginIteration
    requests := requests }

def helloConsumed (requests : List ChatRequest) : Except RunOutcome StreamState × RunState CheckpointWorker :=
  outcome (consumeStream {} helloItems) (helloOpened requests)

theorem helloSetup_limit : helloSetup.iterationLimit = 1 ∧
    helloSetup.userIterationCapActive = false := by
  have h : ∀ policy : Text, effectiveIterationLimit ([checkpointedRequest.prompt, policy].filterMap
      fun _ => (none : Option ℕ)).min? 1 = (1, false) := fun _ => rfl
  have hsetup := h scienceExecutionPolicy
  exact ⟨congrArg Prod.fst hsetup, congrArg Prod.snd hsetup⟩

theorem hello_begins : outcome (beginIteration helloSetup) helloStart =
    (.ok helloIteration, helloOpened []) := by
  have hbegin : outcome (beginIteration helloSetup) helloStart =
      (.ok ⟨1, helloSetup.userIterationCapActive && (1 == helloSetup.iterationLimit), false⟩,
        helloOpened []) := rfl
  rw [hbegin, helloSetup_limit.2]
  rfl

theorem hello_view : viewTokens checkpointedRequest helloSetup helloIteration
    helloStart.session ≤ 2000 := by
  have htext : checkpointedRequest.json.toText (.array
      ((toolDefs checkpointedRequest helloIteration).map ToolDef.toJson)) = [] := rfl
  have hschema : toolSchemaTokens checkpointedRequest helloIteration = 0 := by
    rw [toolSchemaTokens, htext]
    decide
  have hview : buildView checkpointedRequest helloSetup helloStart.session =
      [harnessNotice scienceExecutionPolicy, ChatMessage.ofUser "hello".toList] := rfl
  exact viewTokens_le hschema hview scienceExecutionPolicy_length_le
    userFinalIterationNotice_length_le

theorem hello_asks : ∃ requests, outcome (askProvider checkpointedRequest helloSetup
    helloIteration) (helloOpened []) = (.ok helloItems, helloOpened requests) := by
  have hview : viewTokens checkpointedRequest helloSetup helloIteration
      (helloOpened []).session ≤ 2000 := hello_view
  have htrigger : Compact.compactionTriggerTokens checkpointedRequest.ratios
      checkpointedRequest.contextWindow = 96000 := by
    change min (128000 * 3 / 4) 300000 = 96000
    decide
  have hwall : Compact.hardWallTokens checkpointedRequest.ratios
      checkpointedRequest.contextWindow = 115200 := by
    change min (128000 * 9 / 10) 300000 = 115200
    decide
  apply askProvider_outcome rfl rfl _ _ rfl
  · rw [Compact.isOverTrigger, htrigger]
    simp only [OfNat.ofNat_ne_zero, if_false, decide_eq_false_iff_not]
    omega
  · rw [hwall]
    omega

def helloAnswer : StreamState where
  finishReason := none
  sawFinish := true
  textGuard := ⟨"hi".toList, .streamingPlain, 2, 2, false, false⟩

/-- The turn of the answer, published. -/
def helloSettled (requests : List ChatRequest) : RunState CheckpointWorker :=
  (outcome (closedOrCancel >>= fun _ => flushTurn ⟨[], [], [], true⟩)
    (helloConsumed requests).2).2

theorem hello_consumed (requests : List ChatRequest) :
    outcome (consumeStream {} helloItems) (helloOpened requests) =
      (.ok helloAnswer, (helloConsumed requests).2) := rfl

theorem hello_parsed : parseTurn checkpointedRequest.json
    (checkpointedRequest.turns helloIteration.n).callIds helloAnswer = .ok ⟨[], [], [], true⟩ := by
  unfold parseTurn
  rw [show helloAnswer.thinkingGuard = {} from rfl, finish_nil,
    finish_of_notMem (g := helloAnswer.textGuard) _ (by decide) (by decide)]
  rfl

theorem hello_settles (requests : List ChatRequest) :
    outcome (settleStream checkpointedRequest helloSetup helloIteration helloAnswer)
      (helloConsumed requests).2 = (.ok ⟨[], [], [], true⟩, helloSettled requests) := by
  unfold settleStream
  rw [hello_parsed]
  rfl

/-- What the run leaves behind: the prompt and the answer, with none of them checkpointed. -/
def helloDecided (requests : List ChatRequest) : Except RunOutcome Unit × RunState CheckpointWorker :=
  outcome (decideTurn checkpointedRequest helloSetup helloIteration helloAnswer ⟨[], [], [], true⟩)
    (helloSettled requests)



theorem hello_decided (requests : List ChatRequest) :
    ∃ o, (helloDecided requests).1 = .error o ∧ o.kind = .natural :=
  ⟨_, rfl, rfl⟩

theorem hello_messages (requests : List ChatRequest) : ∃ prompt answer,
    (helloDecided requests).2.session.messages = [prompt, answer] :=
  ⟨_, _, rfl⟩

theorem hello_store (requests : List ChatRequest) :
    (helloDecided requests).2.store = freshWorker helloMarked helloInput :=
  rfl

theorem hello_executes : ∃ e, execute sampleSerde "s1".toList helloInput none
      helloMarked.active.session (freshWorker helloMarked helloInput) = e ∧
    e.outcome.kind = .natural ∧
    (∃ prompt answer, e.session.messages = [prompt, answer]) ∧
    e.worker = freshWorker helloMarked helloInput := by
  obtain ⟨requests, hask⟩ := hello_asks
  have hiteration := iteration_of_turn hello_begins hask (hello_consumed requests)
    (hello_settles requests)
  have hdecided := hello_decided requests
  have hmessages := hello_messages requests
  have hstore := hello_store requests
  have hloop : outcome (iteration checkpointedRequest helloSetup) helloStart =
      helloDecided requests := hiteration
  generalize helloDecided requests = p at *
  obtain ⟨o, hexit, hkind⟩ := hdecided
  have hrun : run checkpointedRequest (sampleSession []) {} {} (freshWorker helloMarked helloInput) =
      (o, p.2) :=
    run_of_exit rfl helloSetup_limit.1 (hloop.trans (Prod.ext hexit rfl : p = (.error o, p.2)))
  have hexecute : execute sampleSerde "s1".toList helloInput none helloMarked.active.session
      (freshWorker helloMarked helloInput) =
        let result := run checkpointedRequest (sampleSession []) {} {}
          (freshWorker helloMarked helloInput)
        ⟨result.1, result.2.session, result.2.store, result.2.tx.sent⟩ := rfl
  rw [hexecute, hrun]
  exact ⟨_, rfl, hkind, hmessages, hstore⟩

/-- A first run without checkpoints is stored as the messages 1 and 2; its evidence names 1 to 3. -/
theorem evidence_shifted :
    ∃ report, (streamSse sampleSerde "s1".toList helloState helloInput).1 = some report ∧
      report.outcome.kind = .natural ∧
      (∃ result ∈ report.persisted, result.startSeq = some 1 ∧ result.endSeq = some 2) ∧
      ∃ evidence ∈ report.evidence, evidence.seqStart = 1 ∧ evidence.seqEnd = 3 := by
  obtain ⟨e, hexecute, hkind, ⟨prompt, answer, hmessages⟩, hworker⟩ := hello_executes
  have htrim : trim helloInput.runId = helloInput.runId := by decide
  have hmarked : markProcessing "s1".toList (clearPlan "s1".toList helloState helloInput)
      helloInput = helloMarked := rfl
  have htitle : ((helloMarked.db.sessions.find "s1".toList).any fun row => row.title.isNone) =
      true := rfl
  have hid : ¬ ((trim helloInput.runId).isEmpty = true ∨ 128 < byteLen (trim helloInput.runId)) := by
    decide
  rw [streamSse_accepted hid rfl rfl rfl, hmarked, htitle, htrim, runTask_eq rfl]
  unfold finalized
  rw [hexecute]
  rcases e with ⟨outcome, session, worker, sent⟩
  subst hworker
  have htx : ∃ result db', terminalTransaction sampleSerde "s1".toList helloInput true 0
      ⟨outcome, session, freshWorker helloMarked helloInput, sent⟩ = .ok (result, db') ∧
      result.startSeq = some 1 ∧ result.endSeq = some 2 := by
    unfold terminalTransaction
    dsimp only at hmessages ⊢
    rw [hmessages]
    exact ⟨_, _, rfl, rfl, rfl⟩
  obtain ⟨result, db', htx, hstart, hend⟩ := htx
  have hfinal := finalizeRun_ok (DurableSessionSnapshot.capture helloMarked.active.session) 0 htx
  have hcapture : helloMarked.active.persistedCount = 0 ∧
      helloMarked.active.session.messages.length = 0 := ⟨rfl, rfl⟩
  rw [hcapture.1, hcapture.2, hfinal]
  refine ⟨_, rfl, hkind, ⟨result, rfl, hstart, hend⟩, ?_⟩
  dsimp only at hkind hmessages
  dsimp only [evidenceOf]
  rw [hkind, hmessages]
  exact ⟨_, rfl, rfl, rfl⟩

end DeepseekScience.Api
