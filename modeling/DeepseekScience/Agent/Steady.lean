import DeepseekScience.Agent.Transcript

/-! What most steps of an iteration leave alone: an assertion that depends on the core of a state
and is kept when notices and drafts are recorded holds throughout the steps in front of the gates
and in most of the gates themselves. -/
namespace DeepseekScience.Agent

open Tools Dsml Exits

/-! Notices are told apart by their first two characters. -/

theorem lead_of_literal {s : String} {a b : Char} {rest : Text}
    (h : s = String.ofList (a :: b :: rest)) : [a, b] <+: s.toList := by
  rw [h, String.toList_ofList]
  exact List.prefix_append [a, b] rest

set_option maxRecDepth 4000 in
theorem planDenialNotice_lead : ['你', '处'] <+: planDenialNotice := lead_of_literal rfl

theorem ne_planDenialNotice {text : Text} {a b : Char} (h : [a, b] <+: text)
    (hlead : [a, b] ≠ ['你', '处']) : text ≠ planDenialNotice := by
  intro he
  rw [he] at h
  have hle : [a, b].length ≤ ['你', '处'].length := le_refl 2
  exact hlead ((List.prefix_of_prefix_length_le h planDenialNotice_lead hle).eq_of_length rfl)

theorem lead_append {lead text : Text} (rest : Text) (h : lead <+: text) : lead <+: text ++ rest :=
  h.trans (List.prefix_append text rest)

set_option maxRecDepth 4000 in
theorem toolErrorRecoveryNotice_ne : toolErrorRecoveryNotice ≠ planDenialNotice := by
  have h : ['本', '轮'] <+: toolErrorRecoveryNotice := lead_of_literal rfl
  exact ne_planDenialNotice h (by decide)

set_option maxRecDepth 4000 in
theorem cancelledRequestBoundary_ne : cancelledRequestBoundary ≠ planDenialNotice := by
  have h : ['上', '一'] <+: cancelledRequestBoundary := lead_of_literal rfl
  exact ne_planDenialNotice h (by decide)

theorem userFinalIterationNotice_ne (n : ℕ) : userFinalIterationNotice n ≠ planDenialNotice := by
  have h : ['这', '是'] <+: "这是用户明确限制的最后一轮（".toList := lead_of_literal rfl
  unfold userFinalIterationNotice
  exact ne_planDenialNotice (lead_append _ (lead_append _ h)) (by decide)

set_option maxRecDepth 4000 in
theorem lengthFinishNotice_ne (n : ℕ) : lengthFinishNotice n ≠ planDenialNotice := by
  have h : ['你', '的'] <+: lengthFinishNotice n := by
    unfold lengthFinishNotice
    split_ifs
    · exact lead_of_literal rfl
    · exact lead_of_literal rfl
  exact ne_planDenialNotice h (by decide)

set_option maxRecDepth 4000 in
theorem emptyResponseNotice_ne : emptyResponseNotice ≠ planDenialNotice := by
  have h : ['你', '的'] <+: emptyResponseNotice := lead_of_literal rfl
  exact ne_planDenialNotice h (by decide)

set_option maxRecDepth 4000 in
theorem retrievalStreakNotice_ne : retrievalStreakNotice ≠ planDenialNotice := by
  have h : ['你', '已'] <+: retrievalStreakNotice := lead_of_literal rfl
  exact ne_planDenialNotice h (by decide)

set_option maxRecDepth 4000 in
theorem planIncompleteNotice_ne (plan : Option PlanState) :
    planIncompleteNotice plan ≠ planDenialNotice := by
  have h : ['已', '批'] <+: "已批准计划尚未完成，不能结束本轮。请继续实际执行未完成步骤，并用 update_step_status 更新状态；只有全部步骤均为 done 才能给出最终回复。\n".toList :=
    lead_of_literal rfl
  exact ne_planDenialNotice (lead_append _ h) (by decide)

set_option maxRecDepth 4000 in
theorem planPausedNotice_ne : planPausedNotice ≠ planDenialNotice := by
  have h : ['计', '划'] <+: planPausedNotice := lead_of_literal rfl
  exact ne_planDenialNotice h (by decide)

set_option maxRecDepth 4000 in
theorem artifactRepairNotice_ne (guidance : Text) :
    artifactRepairNotice guidance ≠ planDenialNotice := by
  have h : ['r', 'e'] <+: "reviewer 要求修复 workspace 产物，但修订轨迹尚未满足可复审条件：".toList :=
    lead_of_literal rfl
  unfold artifactRepairNotice
  exact ne_planDenialNotice (lead_append _ (lead_append _ h)) (by decide)

theorem vetoNotice_ne (findings : List Text) (requiresToolAction : Bool) :
    vetoNotice findings requiresToolAction ≠ planDenialNotice := by
  have h : ['r', 'e'] <+: "reviewer 发现以下问题，请修复后重新给出最终回复：\n".toList :=
    lead_of_literal rfl
  unfold vetoNotice
  exact ne_planDenialNotice (lead_append _ (lead_append _ h)) (by decide)

/-! The core of a state. -/

/-- Whether a delivery is one half of the exchange of a batch. -/
def Delivery.isExchange (d : Delivery) : Bool :=
  match d.event with
  | .toolCalls _ => true
  | .toolResults _ => true
  | _ => false

section
variable {σ : Type}

/-- What a run has counted. -/
structure Meter where
  usage : Usage
  iterationUsage : Usage
  iterations : ℕ

def RunProgress.meter (p : RunProgress) : Meter := ⟨p.usage, p.iterationUsage, p.iterations⟩

structure StateCore (σ : Type) where
  messages : List ChatMessage
  plan : Option PlanState
  sharedPlan : Option PlanState
  calls : Option (List ToolCall)
  denials : ℕ
  routed : List (List PendingToolCall)
  exchanged : List Delivery
  store : σ
  cursor : ℕ
  meter : Meter

def RunState.core (s : RunState σ) : StateCore σ where
  messages := s.session.messages
  plan := s.session.plan
  sharedPlan := s.ctx.plan
  calls := s.progress.published.toolCalls
  denials := s.session.gateState.planDenialCount
  routed := s.routed
  exchanged := s.tx.sent.filter Delivery.isExchange
  store := s.store
  cursor := s.historyCheckpointCursor
  meter := s.progress.meter

/-- An assertion with no batch in flight that most steps keep, and what it becomes of a run that
they end with the usage that they have read. -/
structure Steady (P : RunState σ → Prop) (E : RunOutcome → RunState σ → Prop) : Prop where
  same : ∀ {s s' : RunState σ}, s'.core = s.core → P s → P s'
  quiet : ∀ {s}, P s → s.progress.published.toolCalls = none
  notice : ∀ {s text}, text ≠ planDenialNotice → P s → P (s.push (harnessNotice text))
  record : ∀ {s} hidden, P s → P (s.recordPublished hidden)
  leave : ∀ {o s₀ s}, o.kind ≠ .natural → P s₀ → o.usage = s₀.progress.usage → P s → E o s

end

section
variable {σ : Type} {P : RunState σ → Prop} {E : RunOutcome → RunState σ → Prop} {α : Type}
  {Q : α → RunState σ → Prop}

theorem Steady.setStatus (h : Steady P E) {s : RunState σ} (hs : P s) (status : FrameStatus) :
    P (s.setStatus status) :=
  h.same (s := s) rfl hs

theorem Steady.cancelled (h : Steady P E) {s : RunState σ} (hs : P s) : P s.cancelled := by
  have hcommit : s.commitCancelled = s.commitPublished := by
    rw [RunState.commitCancelled, h.quiet hs]
    rfl
  have hrecord : P s.commitPublished := h.record false hs
  unfold RunState.cancelled
  rw [hcommit]
  dsimp only
  split_ifs
  · exact h.setStatus hrecord _
  · exact h.setStatus (h.notice cancelledRequestBoundary_ne hrecord) _

/-! The primitives. -/

theorem update_steady (h : Steady P E) {f : RunState σ → RunState σ} (hf : ∀ s, (f s).core = s.core) :
    Triple P (modify f) (fun _ => P) E :=
  Triple.update fun s hs => h.same (hf s) hs

theorem offer_core (s : RunState σ) {event : AgentEvent}
    (hevent : ∀ accepted, (⟨event, accepted⟩ : Delivery).isExchange = false) :
    ({ s with tx := (s.tx.offer event).2 } : RunState σ).core = s.core := by
  simp only [RunState.core, offer_sent, List.filter_append]
  simp [hevent]

theorem send_steady (h : Steady P E) {event : AgentEvent}
    (hevent : ∀ accepted, (⟨event, accepted⟩ : Delivery).isExchange = false) :
    Triple P (send event) (fun _ => P) E :=
  Triple.updateGet fun s hs => h.same (offer_core s hevent) hs

theorem isClosed_steady (h : Steady P E) : Triple P isClosed (fun _ => P) E := by
  refine Triple.updateGet fun s hs => h.same ?_ hs
  simp only [RunState.core, poll_sent]

theorem pushNotice_steady (h : Steady P E) {text : Text} (htext : text ≠ planDenialNotice) :
    Triple P (pushNotice text) (fun _ => P) E :=
  Triple.update fun _ => h.notice htext

theorem cancel_steady (h : Steady P E) : Triple P (cancel : Run σ α) Q E := by
  refine Triple.readKeep fun s hs => Triple.seq (M := P) (Triple.update fun _ => h.cancelled)
    (Triple.exit fun s' hs' => h.leave ?_ hs rfl hs')
  simp

theorem closedOrCancel_steady (h : Steady P E) :
    Triple P closedOrCancel (fun _ => P) E :=
  Triple.bind (isClosed_steady h) fun _ => Triple.optional fun _ => cancel_steady h

theorem sendOrCancel_steady (h : Steady P E) {event : AgentEvent}
    (hevent : ∀ accepted, (⟨event, accepted⟩ : Delivery).isExchange = false) :
    Triple P (sendOrCancel event) (fun _ => P) E :=
  Triple.bind (send_steady h hevent) fun _ =>
    Triple.choose (fun _ => Triple.ret fun _ => id) fun _ => cancel_steady h

/-- A terminal event is no part of an exchange; `settle` decides what the run leaves. -/
theorem completeWith_steady (h : Steady P E) {o : RunOutcome} {status : FrameStatus}
    {plan : Option PlanState} {settle : RunState σ → RunState σ}
    (hsettle : ∀ s, P s → E o ((settle s).setStatus status)) :
    Triple P (completeWith o status plan settle : Run σ α) Q E := by
  refine Triple.seq (sendOrCancel_steady h fun _ => rfl) ?_
  exact Triple.seq (M := E o) (Triple.update fun s hs => hsettle s hs) (Triple.exit fun _ => id)

theorem fail_steady (h : Steady P E) (message : Text) :
    Triple P (fail message : Run σ α) Q E := by
  refine Triple.readKeep fun s hs => completeWith_steady h fun s' hs' =>
    h.leave (by simp) hs rfl ?_
  exact h.setStatus (h.record false hs') _

theorem hideDraft_steady (h : Steady P E) (reason : Text) :
    Triple P (hideDraft reason) (fun _ => P) E :=
  Triple.seq (Triple.update fun _ => h.record true)
    (sendOrCancel_steady h fun _ => rfl)

theorem failInvalidatedCandidate_steady (h : Steady P E) (reason message : Text) :
    Triple P (failInvalidatedCandidate reason message : Run σ α) Q E :=
  Triple.readKeep fun _ _ =>
    Triple.seq (Triple.optional fun _ => hideDraft_steady h reason) (fail_steady h message)

theorem failProtocol_steady (h : Steady P E) (message : Text) :
    Triple P (failProtocol message : Run σ α) Q E :=
  failInvalidatedCandidate_steady h _ message

/-! The stream. -/

theorem publishThinking_steady (h : Steady P E) (released : Option Text) :
    Triple P (publishThinking released) (fun _ => P) E := by
  cases released with
  | none => exact Triple.ret fun _ => id
  | some text =>
    exact Triple.seq (sendOrCancel_steady h fun _ => rfl) (update_steady h fun _ => rfl)

theorem publishText_steady (h : Steady P E) (released : Option Text) :
    Triple P (publishText released) (fun _ => P) E := by
  cases released with
  | none => exact Triple.ret fun _ => id
  | some text =>
    exact Triple.seq (sendOrCancel_steady h fun _ => rfl) (update_steady h fun _ => rfl)

theorem admitDelta_steady (h : Steady P E) (l : StreamState) (added : ℕ) (afterFinish : Text) :
    Triple P (admitDelta l added afterFinish) (fun _ => P) E :=
  Triple.choose (fun _ => failProtocol_steady h _) fun _ =>
    Triple.optional fun _ => failProtocol_steady h _

/-- A snapshot of the usage is no part of the core. -/
theorem onStreamEvent_steady (h : Steady P E) (l : StreamState) (event : StreamEvent)
    (husage : ∀ u, event = .usage u → ∀ s, P s →
      P { s with progress := s.progress.recordUsage u }) :
    Triple P (onStreamEvent l event) (fun _ => P) E := by
  cases event with
  | thinking t =>
    refine Triple.seq (admitDelta_steady h _ _ _) ?_
    cases l.pushThinking t with
    | error e => exact failProtocol_steady h _
    | ok r => exact Triple.seq (publishThinking_steady h _) (Triple.ret fun _ => id)
  | text t =>
    refine Triple.seq (admitDelta_steady h _ _ _) ?_
    cases l.pushText t with
    | error e => exact failProtocol_steady h _
    | ok r => exact Triple.seq (publishText_steady h _) (Triple.ret fun _ => id)
  | assistantDelta thinking text =>
    refine Triple.seq (admitDelta_steady h _ _ _) ?_
    cases l.pushDelta thinking text with
    | error e => exact failProtocol_steady h _
    | ok r =>
      exact Triple.seq (publishThinking_steady h _)
        (Triple.seq (publishText_steady h _) (Triple.ret fun _ => id))
  | toolCallDelta d =>
    refine Triple.choose (fun _ => failProtocol_steady h _) fun _ => ?_
    cases l.toolAcc.push d with
    | error e => exact failProtocol_steady h _
    | ok acc => exact Triple.ret fun _ => id
  | usage u => exact Triple.seq (Triple.update (husage u rfl)) (Triple.ret fun _ => id)
  | finish reason =>
    exact Triple.choose (fun _ => failProtocol_steady h _) fun _ => Triple.ret fun _ => id

theorem consumeStream_steady (h : Steady P E)
    (husage : ∀ u s, P s → P { s with progress := s.progress.recordUsage u }) (l : StreamState)
    (events : List (Except Text StreamEvent)) :
    Triple P (consumeStream l events) (fun _ => P) E := by
  induction events generalizing l with
  | nil => exact Triple.seq (closedOrCancel_steady h) (Triple.ret fun _ => id)
  | cons item events ih =>
    cases item with
    | error e => exact Triple.seq (closedOrCancel_steady h) (fail_steady h e)
    | ok event =>
      exact Triple.seq (closedOrCancel_steady h)
        (Triple.bind (onStreamEvent_steady h l event fun u _ => husage u) ih)

variable {req : RunRequest σ} {setup : RunSetup} {iter : IterationSetup}

/-- No calls survive the stream of a final iteration that the user has limited. -/
theorem settleStream_steady (h : Steady P E) (l : StreamState) :
    Triple P (settleStream req setup iter l)
      (fun turn s => ¬ (iter.isUserFinal && !turn.finalized.isEmpty) ∧ P s) E := by
  refine Triple.seq (Triple.optional fun _ => fail_steady h _)
    (Triple.seq (closedOrCancel_steady h) ?_)
  cases parseTurn req.json (req.turns iter.n).callIds l with
  | error message => exact failProtocol_steady h message
  | ok turn =>
    refine Triple.seq (Triple.stopIf fun _ => failInvalidatedCandidate_steady h _ _)
      (Triple.assume fun hopen => Triple.seq (closedOrCancel_steady h) ?_)
    refine Triple.seq (Triple.seq (publishThinking_steady h _) (publishText_steady h _)) ?_
    exact Triple.ret fun s hs => ⟨hopen, hs⟩

theorem compactHistory_steady (h : Steady P E) :
    Triple P (compactHistory req setup iter) (fun _ => P) E := by
  refine Triple.readKeep fun s _ => Triple.optional fun _ => Triple.seq (M := P) ?_
    (update_steady h fun _ => rfl)
  exact Triple.bind (isClosed_steady h) fun _ => Triple.choose
    (fun _ => Triple.seq (update_steady h fun _ => rfl) (cancel_steady h))
    fun _ => Triple.ret fun _ => id

/-- A stream that was opened is the one that the iteration is answered with. -/
theorem openStream_steady (h : Steady P E) :
    Triple P (openStream req setup iter)
      (fun items s => (req.turns iter.n).stream = .ok items ∧ P s) E := by
  refine Triple.readKeep fun s _ => Triple.seq (Triple.optional fun _ => fail_steady h _)
    (Triple.seq (closedOrCancel_steady h) (Triple.seq (update_steady h fun _ => rfl) ?_))
  cases (req.turns iter.n).stream with
  | error e => exact fail_steady h e
  | ok events => exact Triple.ret fun _ hs => ⟨rfl, hs⟩

theorem askProvider_steady (h : Steady P E) :
    Triple P (askProvider req setup iter)
      (fun items s => (req.turns iter.n).stream = .ok items ∧ P s) E :=
  Triple.seq (Triple.optional fun _ => pushNotice_steady h (userFinalIterationNotice_ne _))
    (Triple.seq (compactHistory_steady h) (openStream_steady h))

theorem streamTurn_steady (h : Steady P E)
    (husage : ∀ u s, P s → P { s with progress := s.progress.recordUsage u }) :
    Triple P (streamTurn req setup iter) (fun _ => P) E :=
  Triple.bind (askProvider_steady h) fun events =>
    Triple.assume fun _ => consumeStream_steady h husage {} events

/-! The gates that do not touch plans or batches. -/

theorem commit_steady (h : Steady P E) :
    Triple P (modify RunState.commitPublished) (fun _ => P) E :=
  Triple.update fun _ => h.record false

theorem lengthFinish_steady (h : Steady P E) :
    Triple P (lengthFinish setup iter) (fun _ => P) E := by
  refine Triple.seq (Triple.optional fun _ => fail_steady h _)
    (Triple.seq (update_steady h fun _ => rfl) (Triple.readKeep fun s hs => ?_))
  refine Triple.choose (fun _ => ?_) fun _ => ?_
  · exact Triple.seq (update_steady h fun _ => rfl) (completeWith_steady h fun s' hs' =>
      h.leave (by simp) hs rfl (h.setStatus (h.record false hs') _))
  · exact Triple.seq (commit_steady h) (pushNotice_steady h (lengthFinishNotice_ne _))

theorem noteToolErrors_steady (h : Steady P E) (results : List ToolResult) :
    Triple P (noteToolErrors results) (fun _ => P) E :=
  Triple.readKeep fun _ _ => Triple.optional fun _ =>
    Triple.seq (update_steady h fun _ => rfl)
      (Triple.optional fun _ => pushNotice_steady h toolErrorRecoveryNotice_ne)

theorem publishPlan_steady (h : Steady P E) (plan : Option PlanState) :
    Triple P (publishPlan plan) (fun _ => P) E := by
  cases plan with
  | none => exact Triple.ret fun _ => id
  | some plan => exact sendOrCancel_steady h fun _ => rfl

theorem publishPlanChange_steady (h : Steady P E) (planChanged : Bool) :
    Triple P (publishPlanChange planChanged) (fun _ => P) E := by
  refine Triple.readKeep fun s _ => ?_
  split
  · exact Triple.seq (sendOrCancel_steady h fun _ => rfl) (Triple.ret fun _ => id)
  · exact Triple.ret fun _ => id

theorem awaitPlanApproval_steady (h : Steady P E) (published : Bool) :
    Triple P (awaitPlanApproval req iter published) (fun _ => P) E := by
  refine Triple.readKeep fun s hs => ?_
  cases s.ctx.plan with
  | none => exact Triple.ret fun _ => id
  | some plan =>
    refine Triple.optional fun _ => Triple.seq (update_steady h fun _ => rfl)
      (Triple.seq (Triple.optional fun _ => sendOrCancel_steady h fun _ => rfl) ?_)
    exact completeWith_steady h fun s' hs' => h.leave (by simp) hs rfl (h.setStatus hs' _)

theorem awaitUserResponse_steady (h : Steady P E) :
    Triple P (awaitUserResponse iter) (fun _ => P) E := by
  refine Triple.readKeep fun s hs => ?_
  cases s.ctx.pendingAsk with
  | none => exact Triple.ret fun _ => id
  | some ask =>
    exact Triple.seq (update_steady h fun _ => rfl)
      (completeWith_steady h fun s' hs' => h.leave (by simp) hs rfl (h.setStatus hs' _))

theorem retrievalBreaker_steady (h : Steady P E) (calls : List ToolCall) :
    Triple P (retrievalBreaker calls) (fun _ => P) E :=
  Triple.seq (update_steady h fun _ => rfl) (Triple.readKeep fun _ _ =>
    Triple.optional fun _ => Triple.seq (pushNotice_steady h retrievalStreakNotice_ne)
      (update_steady h fun _ => rfl))

theorem repairIncomplete_steady (h : Steady P E) (guidance : Text) :
    Triple P (repairIncomplete setup iter guidance) (fun _ => P) E := by
  refine Triple.seq (Triple.optional fun _ => fail_steady h _) (Triple.readKeep fun s _ =>
    Triple.choose (fun _ => ?_) fun _ => fail_steady h _)
  exact Triple.seq (update_steady h fun _ => rfl)
    (Triple.seq (hideDraft_steady h _) (pushNotice_steady h (artifactRepairNotice_ne _)))

theorem veto_steady (h : Steady P E) (verdict : Verdict) :
    Triple P (veto setup iter verdict) (fun _ => P) E := by
  refine Triple.readKeep fun s _ => Triple.choose (fun _ => ?_) fun _ => fail_steady h _
  refine Triple.seq (update_steady h fun _ => rfl)
    (Triple.seq (Triple.optional fun _ => fail_steady h _)
      (Triple.seq (update_steady h fun _ => rfl) (Triple.seq (hideDraft_steady h _) ?_)))
  apply Triple.seq (update_steady h fun s => ?_) (pushNotice_steady h (vetoNotice_ne _ _))
  split <;> rfl

end

end DeepseekScience.Agent
