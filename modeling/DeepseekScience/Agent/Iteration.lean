import DeepseekScience.Agent.RunSpec

/-! The gates of an iteration, the iteration and the loop. What the client saw is what the
history records, and the history stays a well-formed tool conversation, on every way out. -/
namespace DeepseekScience.Agent

open Tools Dsml Exits

section
variable {σ : Type} {I : StoreInvariant σ} {b : Ledger σ} {phase : Phase}
  {J : List ChatMessage → σ → Prop} {req : RunRequest σ} {setup : RunSetup} {iter : IterationSetup}

theorem closed_in : Triple (In I b phase) closedOrCancel (fun _ => In I b phase) (Out I b) :=
  closedOrCancel_spec fun _ => At.live

theorem modify_in {E : RunOutcome → RunState σ → Prop} {f : RunState σ → RunState σ}
    (h : ∀ s, (f s).ledger = s.ledger) :
    Triple (In I b phase) (modify f) (fun _ => In I b phase) E := modify_spec h

theorem settleStream_spec (l : StreamState) :
    Triple (In (fun _ => J) b .drafting) (settleStream req setup iter l)
      (fun _ => In (fun _ => J) b .drafting) (Out (fun _ => J) b) := by
  refine Triple.seq (Triple.optional fun _ => fail_drafting _) (Triple.seq closed_in ?_)
  cases parseTurn req.json (req.turns iter.n).callIds l with
  | error message => exact failProtocol_spec message
  | ok turn =>
    refine Triple.seq (Triple.optional fun _ => failInvalidatedCandidate_spec _ _)
      (Triple.seq closed_in (Triple.seq ?_ (Triple.ret fun _ => id)))
    exact Triple.seq (publishThinking_spec _ fun _ _ _ => id) (publishText_spec _ fun _ _ _ => id)

theorem compactHistory_spec :
    Triple (In I b phase) (compactHistory req setup iter) (fun _ => In I b phase) (Out I b) := by
  refine Triple.readKeep fun s _ => Triple.optional fun _ => ?_
  exact Triple.seq (selectOrCancel_spec (fun _ => At.live) fun _ => rfl)
    (modify_in fun _ => rfl)

theorem openStream_spec :
    Triple (In I b .drafting) (openStream req setup iter) (fun _ => In I b .drafting)
      (Out I b) := by
  refine Triple.readKeep fun s _ => Triple.seq (Triple.optional fun _ => fail_drafting _)
    (Triple.seq closed_in (Triple.seq (modify_in fun _ => rfl) ?_))
  cases (req.turns iter.n).stream with
  | error e => exact fail_drafting e
  | ok events => exact Triple.ret fun _ => id

theorem commit_spec {E : RunOutcome → RunState σ → Prop} :
    Triple (In I b .drafting) (modify RunState.commitPublished) (fun _ => In I b .settled) E :=
  Triple.update fun _ hs => At.settle settles_commitPublished_drafting hs

theorem lengthFinish_spec :
    Triple (In I b .drafting) (lengthFinish setup iter) (fun _ => In I b .settled) (Out I b) := by
  refine Triple.seq (Triple.optional fun _ => fail_drafting _)
    (Triple.seq (modify_in fun _ => rfl) (Triple.readKeep fun s _ =>
      Triple.choose (fun _ => ?_) fun _ => ?_))
  · exact Triple.seq (modify_in fun _ => rfl)
      (completeWith_spec (by simp) settles_commitPublished_drafting)
  · exact Triple.seq commit_spec (pushNotice_spec _)

/-! The tool path. -/

theorem recordPlanDenial_spec
    (h : Settles phase (RunState.commitPublished : RunState σ → RunState σ)) :
    Triple (In I b phase) (recordPlanDenial setup iter) (fun _ => In I b phase) (Out I b) := by
  refine Triple.seq (modify_in fun _ => rfl) (Triple.readKeep fun s _ => ?_)
  exact Triple.choose (fun _ => fail_spec h _) fun _ => Triple.optional fun _ => fail_spec h _

theorem publishCalls_spec {calls : List ToolCall} (hne : calls ≠ []) :
    Triple (In I b .drafting) (publishCalls req calls) (fun _ => In I b (.called calls))
      (Out I b) := by
  refine publish_spec (.toolCalls (calls.map (callView req)))
    (fun p => { p with toolCalls := some calls }) ?_
    (fun d ms store h => by simpa [Delivery.thinking, Delivery.text] using h)
    ⟨rfl, rfl, rfl, rfl⟩ fun _ => rfl
  rintro sent added p ⟨ht, hx, hnone, hcalls, hreset, hms⟩
  exact ⟨by simp [ht, Delivery.thinking], by simp [hx, Delivery.text], rfl, hne,
    by simp [Delivery.isCalls], by simp [hreset, Delivery.isReset], hms⟩

/-- The results of a batch answer its calls in order. -/
def Answers (calls : List ToolCall) (results : List ToolResult) : Prop :=
  results.map ToolResult.toolUseId = calls.map ToolCall.id

theorem batchResults_spec (calls : List ToolCall) :
    Triple (In I b phase) (batchResults req iter calls)
      (fun results s => Answers calls results ∧ In I b phase s) (Out I b) := by
  unfold batchResults
  cases hrejected : rejectedBatch req.tools req.planMode iter.planStepUpdatesAllowed calls with
  | some results =>
    exact Triple.ret fun s hs => ⟨rejectedBatch_toolUseIds hrejected, hs⟩
  | none =>
    refine Triple.seq (modify_in fun _ => rfl) (Triple.seq
      (selectOrCancel_spec (fun _ => At.live) fun _ => rfl)
      (Triple.updateGet fun s hs => ⟨?_, hs⟩))
    have hids := executeToolCalls_toolUseIds req.tools (req.turns iter.n).tasks
      (calls.map (pendingCall req)) 0 s.ctx
    rw [List.map_map] at hids
    exact hids

theorem supersedeAsk_spec {calls : List ToolCall} {results : List ToolResult}
    (h : Answers calls results) :
    Triple (In I b phase) (supersedeAsk req calls results)
      (fun results s => Answers calls results ∧ In I b phase s) (Out I b) := by
  refine Triple.readKeep fun s _ => Triple.choose (fun _ => ?_) fun _ => ?_
  · refine Triple.seq (modify_in fun _ => rfl) (Triple.ret fun s hs => ⟨?_, hs⟩)
    exact (supersedeAskResults_toolUseIds calls results).trans h
  · exact Triple.ret fun s hs => ⟨h, hs⟩

theorem runBatch_spec {calls : List ToolCall} (hne : calls ≠ []) :
    Triple (In I b .drafting) (runBatch req iter calls) (fun _ => In I b .settled)
      (Out I b) := by
  refine Triple.seq (publishCalls_spec hne) (Triple.bind (batchResults_spec calls) fun results =>
    Triple.assume fun h => Triple.bind (supersedeAsk_spec h) fun results =>
      Triple.assume fun h => ?_)
  refine Triple.seq (sendSilent_spec (fun _ => ⟨rfl, rfl, rfl, rfl⟩) fun _ => rfl)
    (Triple.seq (Triple.update fun s hs => ?_) (Triple.ret fun _ => id))
  exact At.settle (settles_commitResults h) hs

/-- The checkpoint service, when it is given messages, extends what it has stored just when it
reports success. -/
def Durable (req : RunRequest σ) (I : StoreInvariant σ) : Prop :=
  match req.historyCheckpoint with
  | none => ∀ d ms new store, I d ms store → I d (ms ++ new) store
  | some service => ∀ d ms new store state, new ≠ [] → I d ms store →
    match service store new state with
    | (.ok (), store') => I d (ms ++ new) store'
    | (.error _, store') => I d ms store'

theorem checkpointHistory_spec (hI : Durable req I) :
    Triple (In I b phase) (checkpointHistory req)
      (fun result s => match result with
        | .ok () => At I b phase { s.ledger with cursor := s.ledger.messages.length }
        | .error _ => In I b phase s) (Out I b) := by
  refine Triple.updateGet fun s hs => ?_
  obtain ⟨sent, added, hsent, hmessages, hphase, hterm, hle, hstored⟩ := hs
  have hsplit : s.session.messages.take s.historyCheckpointCursor ++
      s.session.messages.drop s.historyCheckpointCursor = s.session.messages :=
    List.take_append_drop ..
  have hall : ∀ store : σ, I (draftsOf s.tx.sent) s.session.messages store →
      Stored I { s.ledger with store := store, cursor := s.ledger.messages.length } := by
    intro store h
    refine ⟨le_refl _, ?_⟩
    rw [List.take_length]
    exact h
  cases hservice : req.historyCheckpoint with
  | none =>
    rw [Durable, hservice] at hI
    have h := hI _ _ (s.session.messages.drop s.historyCheckpointCursor) _ hstored
    rw [show s.ledger.messages.take s.ledger.cursor =
      s.session.messages.take s.historyCheckpointCursor from rfl, hsplit] at h
    exact ⟨sent, added, hsent, hmessages, hphase, hterm, hall _ h⟩
  | some service =>
    rw [Durable, hservice] at hI
    dsimp only
    by_cases hempty : (s.session.messages.drop s.historyCheckpointCursor).isEmpty = true
    · rw [if_pos hempty]
      refine ⟨sent, added, hsent, hmessages, hphase, hterm, hall _ ?_⟩
      rw [← hsplit, List.isEmpty_iff.mp hempty, List.append_nil]
      exact hstored
    · rw [if_neg hempty]
      have h := hI _ _ (s.session.messages.drop s.historyCheckpointCursor) s.store
        (checkpointState req s) (fun hnil => hempty (List.isEmpty_iff.mpr hnil)) hstored
      rcases hr : service s.store (s.session.messages.drop s.historyCheckpointCursor)
        (checkpointState req s) with ⟨_ | _, store'⟩
      · rw [hr] at h
        exact ⟨sent, added, hsent, hmessages, hphase, hterm, hle, h⟩
      · rw [hr] at h
        dsimp only at h
        rw [show s.ledger.messages.take s.ledger.cursor =
          s.session.messages.take s.historyCheckpointCursor from rfl, hsplit] at h
        exact ⟨sent, added, hsent, hmessages, hphase, hterm, hall _ h⟩

theorem checkpointBatch_spec (hI : Durable req I) :
    Triple (In I b .settled) (checkpointBatch req) (fun _ => In I b .settled) (Out I b) := by
  refine Triple.bind (checkpointHistory_spec hI) fun result => ?_
  cases result with
  | error e => exact fail_settled _
  | ok _ => exact Triple.update fun _ => id

theorem publishPlan_spec (plan : Option PlanState) :
    Triple (In I b phase) (publishPlan plan) (fun _ => In I b phase) (Out I b) := by
  cases plan with
  | none => exact Triple.ret fun _ => id
  | some plan => exact sendSilent_spec (fun _ => ⟨rfl, rfl, rfl, rfl⟩) fun _ => rfl

theorem noteToolErrors_spec (results : List ToolResult) :
    Triple (In I b phase) (noteToolErrors results) (fun _ => In I b phase) (Out I b) := by
  refine Triple.readKeep fun s _ => Triple.optional fun _ => ?_
  exact Triple.seq (modify_in fun _ => rfl) (Triple.optional fun _ => pushNotice_spec _)

theorem publishPlanChange_spec (planChanged : Bool) :
    Triple (In I b phase) (publishPlanChange planChanged) (fun _ => In I b phase)
      (Out I b) := by
  refine Triple.readKeep fun s _ => ?_
  split
  · exact Triple.seq (publishPlan_spec (some _)) (Triple.ret fun _ => id)
  · exact Triple.ret fun _ => id

theorem awaitPlanApproval_spec (published : Bool) :
    Triple (In I b .settled) (awaitPlanApproval req iter published) (fun _ => In I b .settled)
      (Out I b) := by
  refine Triple.readKeep fun s _ => ?_
  cases s.ctx.plan with
  | none => exact Triple.ret fun _ => id
  | some plan =>
    refine Triple.optional fun _ => Triple.seq (modify_in fun _ => rfl)
      (Triple.seq (Triple.optional fun _ => publishPlan_spec (some plan)) ?_)
    exact completeWith_spec (by simp) settles_id

theorem awaitUserResponse_spec :
    Triple (In I b .settled) (awaitUserResponse iter) (fun _ => In I b .settled) (Out I b) := by
  refine Triple.readKeep fun s _ => ?_
  cases s.ctx.pendingAsk with
  | none => exact Triple.ret fun _ => id
  | some ask =>
    exact Triple.seq (modify_in fun _ => rfl) (completeWith_spec (by simp) settles_id)

theorem retrievalBreaker_spec (calls : List ToolCall) :
    Triple (In I b phase) (retrievalBreaker calls) (fun _ => In I b phase) (Out I b) := by
  refine Triple.seq (modify_in fun _ => rfl) (Triple.readKeep fun s _ =>
    Triple.optional fun _ => ?_)
  exact Triple.seq (pushNotice_spec _) (modify_in fun _ => rfl)

theorem toolPath_spec (hI : Durable req I) {calls : List ToolCall} (hne : calls ≠ []) :
    Triple (In I b .drafting) (toolPath req setup iter calls) (fun _ => In I b .settled)
      (Out I b) := by
  refine Triple.readKeep fun s _ => Triple.bind (runBatch_spec hne) fun results => ?_
  refine Triple.seq (modify_in fun s => by split <;> rfl) ?_
  refine Triple.seq (checkpointBatch_spec hI) (Triple.seq (noteToolErrors_spec results) ?_)
  refine Triple.bind (publishPlanChange_spec _) fun published => ?_
  refine Triple.seq (modify_in fun s => by split <;> rfl) ?_
  refine Triple.seq (awaitPlanApproval_spec published) (Triple.seq awaitUserResponse_spec ?_)
  refine Triple.readKeep fun s _ => Triple.choose (fun _ => ?_) fun _ => ?_
  · exact Triple.seq (recordPlanDenial_spec settles_commitPublished_settled) (pushNotice_spec _)
  · exact retrievalBreaker_spec calls

/-! The natural completion. -/

theorem emptyResponse_spec :
    Triple (In I b .drafting) (emptyResponse req setup iter) (fun _ => In I b .settled)
      (Out I b) := by
  refine Triple.seq (modify_in fun _ => rfl) (Triple.readKeep fun s _ => ?_)
  refine Triple.seq
    (Triple.optional fun _ => recordPlanDenial_spec settles_commitPublished_drafting) ?_
  refine Triple.seq (Triple.optional fun _ => fail_drafting _)
    (Triple.seq (Triple.optional fun _ => fail_drafting _) ?_)
  exact Triple.seq commit_spec (pushNotice_spec _)

theorem denyMissingPlan_spec :
    Triple (In I b .drafting) (denyMissingPlan setup iter) (fun _ => In I b .settled)
      (Out I b) :=
  Triple.seq (recordPlanDenial_spec settles_commitPublished_drafting)
    (Triple.seq commit_spec (pushNotice_spec _))

theorem fail_shown {α : Type} {Q : α → RunState σ → Prop} (message : Text) :
    Triple (Shown I b) (fail message : Run σ α) Q (Out I b) :=
  (fail_drafting message).pre fun _ => Shown.drafting

theorem planIncomplete_spec (currentPlan : Option PlanState) :
    Triple (Shown I b) (planIncomplete setup iter currentPlan) (fun _ => In I b .settled)
      (Out I b) := by
  refine Triple.seq (shown_spec fun _ => rfl)
    (Triple.seq (Triple.optional fun _ => fail_shown _) (Triple.seq (hideDraft_spec _) ?_))
  refine Triple.readKeep fun s _ => Triple.choose (fun _ => pushNotice_spec _) fun _ => ?_
  exact Triple.seq (pushNotice_spec _) (Triple.seq (publishPlan_spec _)
    (completeWith_spec (by simp) (settles_id.setPlan _)))

theorem repairIncomplete_spec (guidance : Text) :
    Triple (Shown I b) (repairIncomplete setup iter guidance) (fun _ => In I b .settled)
      (Out I b) := by
  refine Triple.seq (Triple.optional fun _ => fail_shown _) (Triple.readKeep fun s _ =>
    Triple.choose (fun _ => ?_) fun _ => fail_shown _)
  exact Triple.seq (shown_spec fun _ => rfl)
    (Triple.seq (hideDraft_spec _) (pushNotice_spec _))

theorem veto_spec (verdict : Verdict) :
    Triple (Shown I b) (veto setup iter verdict) (fun _ => In I b .settled) (Out I b) := by
  refine Triple.readKeep fun s _ => Triple.choose (fun _ => ?_) fun _ => fail_shown _
  refine Triple.seq (shown_spec fun _ => rfl) (Triple.seq (Triple.optional fun _ => fail_shown _)
    (Triple.seq (shown_spec fun _ => rfl) (Triple.seq (hideDraft_spec _) ?_)))
  exact Triple.seq (modify_in fun s => by split <;> rfl) (pushNotice_spec _)

theorem completeNaturally_spec :
    Triple (In I b .drafting) (completeNaturally iter) (fun _ => In I b .settled)
      (Out I b) := by
  refine Triple.seq closed_in (Triple.readKeep fun s _ => Triple.seq (publishPlan_spec _) ?_)
  exact completeWith_spec (by simp) (settles_commitPublished_drafting.setPlan _)

theorem closed_shown :
    Triple (Shown I b) closedOrCancel (fun _ => Shown I b) (Out I b) :=
  closedOrCancel_spec (A := fun l => At I b .drafting l ∧ l.published.isEmpty = false)
    fun _ h => h.1.live

theorem terminalBarrier_spec :
    Triple (Shown I b) (terminalBarrier req setup iter) (fun _ => In I b .settled)
      (Out I b) := by
  have hcomplete : Triple (Shown I b) (completeNaturally iter) (fun _ => In I b .settled)
      (Out I b) := completeNaturally_spec.pre fun _ => Shown.drafting
  refine Triple.seq closed_shown (Triple.readKeep fun s _ => ?_)
  cases (req.turns iter.n).verdict with
  | none => exact Triple.choose (fun _ => fail_shown _) fun _ => hcomplete
  | some verdict => exact Triple.choose (fun _ => hcomplete) fun _ => veto_spec verdict

theorem reviewAnswer_spec :
    Triple (Shown I b) (reviewAnswer req setup iter) (fun _ => In I b .settled) (Out I b) := by
  refine Triple.seq (shown_spec fun _ => rfl) (Triple.readKeep fun s _ => ?_)
  cases s.artifactRepairTraceStart with
  | none => exact terminalBarrier_spec
  | some traceStart =>
    exact Triple.choose (fun _ => terminalBarrier_spec) fun _ => repairIncomplete_spec _

theorem finishPlan_spec :
    Triple (Shown I b) (finishPlan req setup iter) (fun _ => In I b .settled) (Out I b) := by
  refine Triple.choose (fun _ => ?_) fun _ => reviewAnswer_spec
  refine Triple.seq closed_shown (Triple.readKeep fun s _ => ?_)
  exact Triple.choose (fun _ => reviewAnswer_spec) fun _ => planIncomplete_spec _

theorem naturalPath_spec :
    Triple (In I b .drafting) (naturalPath req setup iter) (fun _ => In I b .settled)
      (Out I b) := by
  refine Triple.read fun s hs => Triple.choose (fun _ => ?_) fun hne => ?_
  · exact emptyResponse_spec.pre fun _ h => h ▸ hs
  · have hshown : Shown I b s := by
      refine ⟨hs, isEmpty_eq_false (Or.inr ?_)⟩
      intro hnil
      rw [show s.progress.published.text = [] from hnil] at hne
      exact hne rfl
    refine Triple.pre (P := Shown I b) ?_ fun _ h => h ▸ hshown
    refine Triple.seq (shown_spec fun _ => rfl) (Triple.choose (fun _ => ?_) fun _ => ?_)
    · exact denyMissingPlan_spec.pre fun _ => Shown.drafting
    · exact finishPlan_spec

/-! The iteration. -/

theorem decideTurn_spec (hI : Durable req I) (l : StreamState) (turn : ParsedTurn) :
    Triple (In I b .drafting) (decideTurn req setup iter l turn) (fun _ => In I b .settled)
      (Out I b) := by
  refine Triple.choose (fun _ => lengthFinish_spec) fun _ => ?_
  refine Triple.seq (modify_in fun _ => rfl) (Triple.choose (fun _ => naturalPath_spec)
    fun hne => toolPath_spec hI ?_)
  simpa using hne

theorem askProvider_spec :
    Triple (In I b .drafting) (askProvider req setup iter) (fun _ => In I b .drafting)
      (Out I b) :=
  Triple.seq (Triple.optional fun _ => pushNotice_spec _)
    (Triple.seq compactHistory_spec openStream_spec)

theorem streamTurn_spec :
    Triple (In (fun _ => J) b .drafting) (streamTurn req setup iter)
      (fun _ => In (fun _ => J) b .drafting) (Out (fun _ => J) b) :=
  Triple.bind askProvider_spec fun events => consumeStream_spec {} events

theorem drafting_self (hb : b.published = {}) (hstored : Stored I b) : At I b .drafting b := by
  refine ⟨[], [], by simp, by simp, ?_, rfl, hstored⟩
  refine ⟨?_, ?_, ?_, rfl, rfl, by simp⟩ <;> simp [hb, thinkingOf, textOf]

/-- An iteration begins with an empty published turn. -/
theorem beginIteration_spec (b : Ledger σ) (hb : b.published = {}) (hstored : Stored I b) :
    Triple (fun s => s.ledger = b) (beginIteration setup) (fun _ => In I b .drafting)
      (Out I b) := by
  refine Triple.seq (M := In I b .drafting) (Triple.update ?_) (Triple.readKeep fun s _ => ?_)
  · rintro s rfl
    exact drafting_self hb hstored
  · exact Triple.seq (sendSilent_spec (fun _ => ⟨rfl, rfl, rfl, rfl⟩) fun _ => rfl)
      (Triple.readKeep fun s _ => Triple.ret fun _ => id)

/-- An iteration settles whatever it publishes. -/
theorem iteration_spec (hI : Durable req fun _ => J) (b : Ledger σ) (hb : b.published = {})
    (hstored : Stored (fun _ => J) b) :
    Triple (fun s => s.ledger = b) (iteration req setup)
      (fun _ => In (fun _ => J) b .settled) (Out (fun _ => J) b) :=
  Triple.bind (beginIteration_spec b hb hstored) fun _ => Triple.bind streamTurn_spec fun l =>
    Triple.bind (settleStream_spec l) fun turn => decideTurn_spec hI l turn

end
end DeepseekScience.Agent
