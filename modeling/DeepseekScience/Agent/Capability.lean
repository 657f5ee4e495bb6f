import DeepseekScience.Agent.Isolation
import DeepseekScience.Agent.GateView

/-! The capability boundary over whole runs: which batches reach the router, how the others are
answered, and how often a plan-mode run is reminded of its missing plan. -/
namespace DeepseekScience.Agent

open Tools Dsml Exits

/-- What the execution boundary asks of the names in a batch. -/
structure Permitted (tools : ToolRegistry) (planMode updatesAllowed : Bool) (names : List Text) :
    Prop where
  preapproval : planMode = true → ∀ name ∈ names,
    name = "generate_plan".toList ∨ name = "ask_user".toList
  updates : planMode = false → "update_step_status".toList ∈ names → updatesAllowed = true
  exclusive : (∃ name ∈ names, tools.batchPolicy name = some .exclusive) → names.length = 1

/-- Exactly the permitted batches reach the router. -/
theorem rejectedBatch_eq_none {tools : ToolRegistry} {planMode updatesAllowed : Bool}
    {calls : List ToolCall} : rejectedBatch tools planMode updatesAllowed calls = none ↔
      Permitted tools planMode updatesAllowed (calls.map fun call => call.function.name) := by
  have hone : (∃ call ∈ calls, tools.batchPolicy call.function.name = some .exclusive) →
      (calls.length = 1 ↔ ¬ 1 < calls.length) := by
    rintro ⟨call, hcall, -⟩
    have hpos := List.length_pos_of_mem hcall
    omega
  unfold rejectedBatch
  constructor
  · intro h
    split_ifs at h with hplan hupdate hexclusive
    refine ⟨fun hmode name hname => ?_, fun hmode hname => ?_, fun hany => ?_⟩
    · obtain ⟨call, hcall, rfl⟩ := List.mem_map.mp hname
      simp only [hmode, Bool.true_and, List.any_eq_true, not_exists, not_and, Bool.not_eq_true',
        Bool.not_eq_false] at hplan
      simpa [isPreapprovalPlanTool] using hplan call hcall
    · obtain ⟨call, hcall, hcallName⟩ := List.mem_map.mp hname
      simp only [hmode, Bool.not_false, Bool.true_and, List.any_eq_true, not_exists, not_and,
        Bool.not_eq_true', Bool.not_eq_false] at hupdate
      have havailable := hupdate call hcall
      rw [hcallName] at havailable
      simpa [isToolAvailable] using havailable
    · obtain ⟨name, hname, hpolicy⟩ := hany
      obtain ⟨call, hcall, rfl⟩ := List.mem_map.mp hname
      rw [List.length_map]
      refine (hone ⟨call, hcall, hpolicy⟩).mpr fun hlt => hexclusive ?_
      simp only [hlt, decide_true, Bool.true_and, List.any_eq_true, beq_iff_eq]
      exact ⟨call, hcall, hpolicy⟩
  · intro h
    rw [if_neg, if_neg, if_neg]
    · simp only [Bool.and_eq_true, decide_eq_true_eq, List.any_eq_true, beq_iff_eq, not_and]
      rintro hlt ⟨call, hcall, hpolicy⟩
      have hlength := h.exclusive ⟨_, List.mem_map_of_mem hcall, hpolicy⟩
      rw [List.length_map] at hlength
      omega
    · cases planMode with
      | true => simp
      | false =>
        simp only [Bool.not_false, Bool.true_and, List.any_eq_true, Bool.not_eq_true', not_exists,
          not_and, Bool.not_eq_false]
        intro call hcall
        have hupdates := h.updates rfl
        by_cases hname : call.function.name = "update_step_status".toList
        · rw [isToolAvailable, hupdates (hname ▸ List.mem_map_of_mem hcall)]
          simp
        · have hother : (call.function.name != "update_step_status".toList) = true :=
            bne_iff_ne.mpr hname
          simp only [isToolAvailable, hother, Bool.true_or, Bool.false_eq_true, if_false]
    · cases planMode with
      | false => simp
      | true =>
        simp only [Bool.true_and, List.any_eq_true, Bool.not_eq_true', not_exists, not_and,
          Bool.not_eq_false]
        intro call hcall
        simpa [isPreapprovalPlanTool] using h.preapproval rfl _ (List.mem_map_of_mem hcall)

/-- The outcome of every call that was answered, in order. -/
def outcomes (results : List ToolResult) : List (Text × Bool) :=
  results.map fun r => (r.toolUseId, r.isError)

/-- One error for every declared call, in order. -/
def errorsOf (calls : List ToolCall) : List (Text × Bool) := calls.map fun call => (call.id, true)

theorem rejectedBatch_outcomes {tools : ToolRegistry} {planMode updatesAllowed : Bool}
    {calls : List ToolCall} {results : List ToolResult}
    (h : rejectedBatch tools planMode updatesAllowed calls = some results) :
    outcomes results = errorsOf calls := by
  have herrors : ∀ message, outcomes (rejectedResults message calls) = errorsOf calls := by
    intro message
    simp only [outcomes, rejectedResults, List.map_map]
    rfl
  rw [rejectedBatch] at h
  split_ifs at h <;> simp only [Option.some.injEq] at h <;> subst h <;> exact herrors _

theorem supersedeAskResults_outcomes (calls : List ToolCall) (results : List ToolResult) :
    outcomes (supersedeAskResults calls results) = outcomes results := by
  rw [outcomes, supersedeAskResults, List.map_map]
  refine List.map_congr_left fun result _ => ?_
  simp only [Function.comp_apply]
  split_ifs <;> rfl

section
variable {σ : Type} {c : GateView} {E : RunOutcome → RunState σ → Prop} {α : Type}
  {Q : α → RunState σ → Prop} {calls : List ToolCall}

/-! A batch in flight. -/

/-- The batch is published, and its results are not committed yet. -/
def InFlight (calls : List ToolCall) (c : GateView) (s : RunState σ) : Prop :=
  s.gateView = c ∧ s.progress.published.toolCalls = some calls

theorem pushAll_gateView (ms : List ChatMessage) (hrole : ∀ m ∈ ms, m.role = .tool)
    (s : RunState σ) : (ms.foldl RunState.push s).gateView =
      { s.gateView with answers := s.gateView.answers ++ ms } := by
  induction ms generalizing s with
  | nil => simp
  | cons m ms ih =>
    have hm : m.role = .tool := hrole m List.mem_cons_self
    have hne : m ≠ harnessNotice planDenialNotice := by
      rintro rfl
      cases hm
    have hpush : (s.push m).gateView =
        { s.gateView with answers := s.gateView.answers ++ [m] } := by
      simp [RunState.gateView, RunState.push, toolAnswers, denialNotices, hm, hne]
    rw [List.foldl_cons, ih (fun m' h => hrole m' (List.mem_cons_of_mem _ h)), hpush]
    simp

theorem pushAll_calls (ms : List ChatMessage) (s : RunState σ) :
    (ms.foldl RunState.push s).progress = s.progress := by
  induction ms generalizing s with
  | nil => rfl
  | cons m ms ih => exact ih (s.push m)

theorem cancelledResult_role {m : ChatMessage} (h : m ∈ calls.map cancelledResult) :
    m.role = .tool := by
  obtain ⟨call, -, rfl⟩ := List.mem_map.mp h
  rfl

theorem resultMessage_role {results : List ToolResult} {m : ChatMessage}
    (h : m ∈ results.map (resultMessage calls)) : m.role = .tool := by
  obtain ⟨r, -, rfl⟩ := List.mem_map.mp h
  rfl

/-- A cancelled batch is answered by the synthetic results of its calls. -/
theorem InFlight.cancelled {s : RunState σ} (h : InFlight calls c s) :
    Idle { c with answers := c.answers ++ calls.map cancelledResult } s.cancelled := by
  have hcommit : Idle { c with answers := c.answers ++ calls.map cancelledResult }
      s.commitCancelled := by
    rw [RunState.commitCancelled, h.2, Option.getD_some]
    refine ⟨?_, ?_⟩
    · rw [pushAll_gateView _ fun _ => cancelledResult_role, RunState.commitPublished,
        recordPublished_gateView, h.1]
    · rw [pushAll_calls]
      exact recordPublished_calls s false
  unfold RunState.cancelled
  dsimp only
  split_ifs
  · exact hcommit
  · exact ⟨(pushNotice_gateView _ cancelledRequestBoundary_ne).trans hcommit.1, hcommit.2⟩

/-- The exchange of a batch is committed with its results. -/
theorem InFlight.commitResults {s : RunState σ} (h : InFlight calls c s)
    (results : List ToolResult) :
    Idle { c with answers := c.answers ++ results.map (resultMessage calls) }
      (s.commitResults calls results) := by
  refine ⟨?_, ?_⟩
  · rw [RunState.commitResults, pushAll_gateView _ fun _ => resultMessage_role,
      RunState.commitPublished, recordPublished_gateView, h.1]
  · rw [RunState.commitResults, pushAll_calls]
    exact recordPublished_calls s false

theorem cancel_inFlight : Triple (InFlight calls c) (cancel : Run σ α) Q (fun o s =>
    o.kind = .cancelled ∧
      Idle { c with answers := c.answers ++ calls.map cancelledResult } s) := by
  refine Triple.readKeep fun s _ => Triple.seq
    (M := Idle { c with answers := c.answers ++ calls.map cancelledResult })
    (Triple.update fun s hs => hs.cancelled) (Triple.exit fun s hs => ⟨rfl, hs⟩)

variable {req : RunRequest σ} {iter : IterationSetup}

/-- The names of a batch are permitted in this iteration. -/
def Allowed (req : RunRequest σ) (iter : IterationSetup) (calls : List ToolCall) : Prop :=
  Permitted req.tools req.planMode iter.planStepUpdatesAllowed
    (calls.map fun call => call.function.name)

/-- How the results of a batch are obtained: a rejection of all of its calls, or the router,
which may change the shared plan. -/
inductive Obtained (req : RunRequest σ) (iter : IterationSetup) (calls : List ToolCall)
    (c : GateView) (results : List ToolResult) : GateView → Prop
  | rejected (hnot : ¬ Allowed req iter calls) (herrors : outcomes results = errorsOf calls) :
      Obtained req iter calls c results c
  | executed (hallowed : Allowed req iter calls) (ctx : ToolContext) (hctx : ctx.plan = c.sharedPlan)
      (hresults : req.planMode = false → results = (executeToolCalls req.tools
        (req.turns iter.n).tasks 0 ctx (calls.map (pendingCall req))).1) :
      Obtained req iter calls c results
        { c with
          sharedPlan := (executeToolCalls req.tools (req.turns iter.n).tasks 0 ctx
            (calls.map (pendingCall req))).2.plan
          routed := c.routed ++ [calls.map (pendingCall req)] }

/-- The view with the calls and the results that were offered to the client. -/
def GateView.exchange (c : GateView) (d : List Delivery) : GateView :=
  { c with exchanged := c.exchanged ++ d }

def GateView.answer (c : GateView) (ms : List ChatMessage) : GateView :=
  { c with answers := c.answers ++ ms }

def callsDelivery (req : RunRequest σ) (calls : List ToolCall) (accepted : Bool) : Delivery :=
  ⟨.toolCalls (calls.map (callView req)), accepted⟩

def resultsDelivery (results : List ToolResult) (accepted : Bool) : Delivery :=
  ⟨.toolResults results, accepted⟩

/-- A batch whose client leaves. -/
inductive Interrupted (req : RunRequest σ) (iter : IterationSetup) (calls : List ToolCall)
    (c : GateView) : GateView → Prop
  | refused : Interrupted req iter calls c (c.exchange [callsDelivery req calls false])
  | closed (hallowed : Allowed req iter calls) (plan : Option PlanState) :
      Interrupted req iter calls c
        ({ c with
          sharedPlan := plan
          routed := c.routed ++ [calls.map (pendingCall req)] }.exchange
            [callsDelivery req calls true] |>.answer (calls.map cancelledResult))
  | unanswered {results : List ToolResult} {c' : GateView}
      (h : Obtained req iter calls c results c') :
      Interrupted req iter calls c
        (c'.exchange [callsDelivery req calls true, resultsDelivery results false] |>.answer
          (calls.map cancelledResult))

/-- A batch whose results the client has accepted. -/
inductive Answered (req : RunRequest σ) (iter : IterationSetup) (calls : List ToolCall)
    (c : GateView) (results : List ToolResult) : GateView → Prop
  | mk {c' : GateView} (h : Obtained req iter calls c results c') :
      Answered req iter calls c results
        (c'.exchange [callsDelivery req calls true, resultsDelivery results true] |>.answer
          (results.map (resultMessage calls)))

/-- The run is cancelled with an interrupted batch. -/
def LeftInterrupted (req : RunRequest σ) (iter : IterationSetup) (calls : List ToolCall)
    (c : GateView) (o : RunOutcome) (s : RunState σ) : Prop :=
  o.kind = .cancelled ∧ ∃ c', Idle c' s ∧ Interrupted req iter calls c c'

theorem publishCalls_inFlight (calls : List ToolCall) :
    Triple (Idle c) (publishCalls req calls)
      (fun _ => InFlight calls (c.exchange [callsDelivery req calls true]))
      (LeftInterrupted req iter calls c) := by
  let M : Bool → RunState σ → Prop := fun accepted =>
    Idle (c.exchange [callsDelivery req calls accepted])
  refine Triple.seq (M := M true) (Triple.bind (Q := M) (Triple.updateGet fun s hs => ?_)
    fun accepted => Triple.choose (fun haccepted => ?_) fun hrefused => ?_)
    (Triple.update fun s hs => ⟨hs.1, rfl⟩)
  · refine ⟨?_, hs.2⟩
    rw [offer_gateView, hs.1]
    rfl
  · rw [haccepted]
    exact Triple.ret fun _ => id
  · rw [Bool.eq_false_iff.mpr hrefused]
    refine Triple.readKeep fun s _ => Triple.seq
      (M := Idle (c.exchange [callsDelivery req calls false]))
      (Triple.update fun _ => Idle.cancelled) (Triple.exit fun s hs => ?_)
    exact ⟨rfl, _, hs, .refused⟩

theorem batchResults_inFlight (calls : List ToolCall) :
    Triple (InFlight calls (c.exchange [callsDelivery req calls true])) (batchResults req iter calls)
      (fun results s => ∃ c', Obtained req iter calls c results c' ∧
        InFlight calls (c'.exchange [callsDelivery req calls true]) s)
      (LeftInterrupted req iter calls c) := by
  unfold batchResults
  cases hrejected : rejectedBatch req.tools req.planMode iter.planStepUpdatesAllowed calls with
  | some results =>
    refine Triple.ret fun s hs => ⟨c, .rejected (fun hallowed => ?_)
      (rejectedBatch_outcomes hrejected), hs⟩
    rw [rejectedBatch_eq_none.mpr hallowed] at hrejected
    cases hrejected
  | none =>
    have hallowed : Allowed req iter calls := rejectedBatch_eq_none.mp hrejected
    let routed : GateView := { c with routed := c.routed ++ [calls.map (pendingCall req)] }
    let M : RunState σ → Prop := InFlight calls (routed.exchange [callsDelivery req calls true])
    refine Triple.seq (M := M) (Triple.update ?_) (Triple.seq (M := M) (Triple.bind
      (Q := fun _ => M) (Triple.updateGet fun s hs => ?_) fun closed =>
        Triple.choose (fun _ => ?_) fun _ => Triple.ret fun _ => id)
      (Triple.updateGet fun s hs => ?_))
    · rintro s ⟨hview, hcalls⟩
      refine ⟨?_, hcalls⟩
      have hroute : ({ s with routed := s.routed ++ [calls.map (pendingCall req)] } :
          RunState σ).gateView =
            { s.gateView with routed := s.gateView.routed ++ [calls.map (pendingCall req)] } := rfl
      rw [hroute, hview]
      rfl
    · refine ⟨?_, hs.2⟩
      rw [← hs.1]
      simp only [RunState.gateView, poll_sent]
    · let plan := (req.turns iter.n).ctxAtClose.plan
      refine Triple.seq (M := InFlight calls
        { routed.exchange [callsDelivery req calls true] with sharedPlan := plan })
        (Triple.update ?_) (cancel_inFlight.conseq (fun _ => id) (fun _ _ => id) ?_)
      · rintro s ⟨hview, hcalls⟩
        refine ⟨?_, hcalls⟩
        rw [← hview]
        rfl
      · rintro o s ⟨ho, hs⟩
        exact ⟨ho, _, hs, .closed hallowed plan⟩
    · obtain ⟨hview, hcalls⟩ := hs
      have hctx : s.ctx.plan = c.sharedPlan := congrArg GateView.sharedPlan hview
      refine ⟨_, .executed hallowed s.ctx hctx fun _ => rfl, ?_, hcalls⟩
      have hset : ∀ ctx, ({ s with ctx := ctx } : RunState σ).gateView =
          { s.gateView with sharedPlan := ctx.plan } := fun _ => rfl
      rw [hset, hview]
      rfl

theorem supersedeAsk_inFlight {results : List ToolResult} {c' : GateView}
    (h : Obtained req iter calls c results c') :
    Triple (InFlight calls (c'.exchange [callsDelivery req calls true]))
      (supersedeAsk req calls results)
      (fun results s => Obtained req iter calls c results c' ∧
        InFlight calls (c'.exchange [callsDelivery req calls true]) s) E := by
  refine Triple.readKeep fun s _ => Triple.choose (fun hplan => ?_) fun _ => ?_
  · have hmode : req.planMode = true := by
      simp only [Bool.and_eq_true] at hplan
      exact hplan.1.1.1.1
    refine Triple.seq (M := InFlight calls (c'.exchange [callsDelivery req calls true]))
      (Triple.update fun s hs => ⟨hs.1, hs.2⟩) (Triple.ret fun s hs => ⟨?_, hs⟩)
    cases h with
    | rejected hnot herrors =>
      exact .rejected hnot ((supersedeAskResults_outcomes calls results).trans herrors)
    | executed hallowed ctx hctx _ =>
      exact .executed hallowed ctx hctx fun hoff => absurd (hmode.symm.trans hoff) (by simp)
  · exact Triple.ret fun s hs => ⟨h, hs⟩

/-- A batch is published, obtains its results, and is answered unless the client leaves. -/
theorem runBatch_idle (calls : List ToolCall) :
    Triple (Idle c) (runBatch req iter calls)
      (fun results s => ∃ c', Idle c' s ∧ Answered req iter calls c results c')
      (LeftInterrupted req iter calls c) := by
  refine Triple.seq (publishCalls_inFlight calls) (Triple.bind (batchResults_inFlight calls)
    fun results => Triple.of_each fun s hs => ?_)
  obtain ⟨c', hobtained, hs⟩ := hs
  refine Triple.pre (P := InFlight calls (c'.exchange [callsDelivery req calls true])) ?_
    fun _ h => h ▸ hs
  refine Triple.bind (supersedeAsk_inFlight hobtained) fun results => Triple.assume fun hobtained =>
    ?_
  let M : Bool → RunState σ → Prop := fun accepted => InFlight calls
    (c'.exchange [callsDelivery req calls true, resultsDelivery results accepted])
  refine Triple.seq (M := M true) (Triple.bind (Q := M) (Triple.updateGet fun s hs => ?_)
    fun accepted => Triple.choose (fun haccepted => ?_) fun hrefused => ?_) ?_
  · refine ⟨?_, hs.2⟩
    rw [offer_gateView, hs.1]
    simp only [GateView.exchange, List.append_assoc]
    rfl
  · rw [haccepted]
    exact Triple.ret fun _ => id
  · rw [Bool.eq_false_iff.mpr hrefused]
    refine cancel_inFlight.conseq (fun _ => id) (fun _ _ => id) ?_
    rintro o s ⟨ho, hs⟩
    exact ⟨ho, _, hs, .unanswered hobtained⟩
  · refine Triple.seq (M := fun s => ∃ c', Idle c' s ∧ Answered req iter calls c results c')
      (Triple.update fun s hs => ?_) (Triple.ret fun _ => id)
    exact ⟨_, hs.commitResults results, .mk hobtained⟩

end

section
variable {σ : Type} {c : GateView} {E : RunOutcome → RunState σ → Prop} {α : Type}
  {Q : α → RunState σ → Prop} {req : RunRequest σ} {setup : RunSetup} {iter : IterationSetup}

/-! The end of an iteration. -/

/-- One more denial of a missing plan. -/
def GateView.denied (c : GateView) : GateView := { c with denials := c.denials + 1 }

/-- The reminder that follows a denial within the budget. -/
def GateView.reminded (c : GateView) : GateView :=
  { c.denied with denialNotices := c.denialNotices + 1 }

/-- The plan that a paused run keeps for its retry. -/
def retryablePlan (setup : RunSetup) (c : GateView) : Option PlanState :=
  (c.sharedPlan.filter PlanState.approved).or setup.initialApprovedPlan

/-- How a run ends behind its last batch. -/
inductive Ending (req : RunRequest σ) (setup : RunSetup) (c : GateView) (o : RunOutcome) :
    GateView → Prop
  | kept (h : o.kind ≠ .natural) : Ending req setup c o c
  | denied (h : o.kind ≠ .natural) : Ending req setup c o c.denied
  | paused (h : o.kind = .awaiting) (hplan : setup.initialApprovedPlan.isSome = true) :
      Ending req setup c o { c with plan := retryablePlan setup c }
  | completed (h : o.kind = .natural) (hmode : req.planMode = true → c.sharedPlan.isSome = true)
      (hplan : setup.initialApprovedPlan.isSome = true →
        approvedPlanIsComplete c.sharedPlan = true) :
      Ending req setup c o { c with plan := c.sharedPlan }

def EndsRun (req : RunRequest σ) (setup : RunSetup) (c : GateView) (o : RunOutcome)
    (s : RunState σ) : Prop :=
  ∃ c', Idle c' s ∧ Ending req setup c o c'

/-- How an iteration goes on behind its last batch. -/
def Continues (c : GateView) (s : RunState σ) : Prop :=
  Idle c s ∨ (c.denials < planDenialCap ∧ Idle c.reminded s)

theorem yields_kept : Yields c (EndsRun (σ := σ) req setup c) :=
  fun _ _ ho hs => ⟨c, hs, .kept ho⟩

theorem yields_denied : Yields c.denied (EndsRun (σ := σ) req setup c) :=
  fun _ _ ho hs => ⟨c.denied, hs, .denied ho⟩

/-- A denial within the budget lets the iteration go on. -/
theorem recordPlanDenial_idle : Triple (Idle c) (recordPlanDenial setup iter)
    (fun _ s => c.denials < planDenialCap ∧ Idle c.denied s) (EndsRun (σ := σ) req setup c) := by
  refine Triple.seq (M := Idle c.denied) (Triple.update ?_) (Triple.read fun s hs => ?_)
  · rintro s ⟨rfl, hcalls⟩
    exact ⟨rfl, hcalls⟩
  · have hcount : s.session.gateState.planDenialCount = c.denials + 1 :=
      congrArg GateView.denials hs.1
    rw [hcount]
    refine Triple.choose (fun _ => (fail_steady yields_denied.steady _).pre fun _ h => h ▸ hs)
      fun hcap => Triple.choose (fun _ => (fail_steady yields_denied.steady _).pre fun _ h => h ▸ hs)
        fun _ => Triple.ret ?_
    rintro _ rfl
    exact ⟨by omega, hs⟩

theorem remind_idle : Triple (Idle c.denied) (pushNotice planDenialNotice)
    (fun _ => Idle (σ := σ) c.reminded) E := by
  refine Triple.update ?_
  rintro s ⟨hview, hcalls⟩
  refine ⟨?_, hcalls⟩
  have hpush : (s.push (harnessNotice planDenialNotice)).gateView =
      { s.gateView with denialNotices := s.gateView.denialNotices + 1 } := by
    simp [RunState.gateView, RunState.push, toolAnswers, denialNotices, harnessNotice,
      ChatMessage.ofSystem]
  rw [hpush, hview]
  rfl

theorem denyMissingPlan_idle : Triple (Idle c) (denyMissingPlan setup iter)
    (fun _ => Continues c) (EndsRun (σ := σ) req setup c) := by
  refine Triple.seq recordPlanDenial_idle (Triple.assume fun hcap => ?_)
  exact Triple.seq (commit_steady yields_denied.steady) (remind_idle.post fun _ _ hs => Or.inr ⟨hcap, hs⟩)

theorem emptyResponse_idle : Triple (Idle c) (emptyResponse req setup iter)
    (fun _ => Continues c) (EndsRun (σ := σ) req setup c) := by
  refine Triple.seq (update_steady yields_kept.steady fun _ => rfl) (Triple.readKeep fun s _ => ?_)
  by_cases hmissing : (req.planMode && s.ctx.plan.isNone) = true
  · simp only [hmissing, onlyIf, if_true]
    refine Triple.seq recordPlanDenial_idle (Triple.assume fun hcap => ?_)
    refine Triple.seq (Triple.optional fun _ => fail_steady yields_denied.steady _)
      (Triple.seq (Triple.optional fun _ => fail_steady yields_denied.steady _) ?_)
    exact Triple.seq (commit_steady yields_denied.steady) (remind_idle.post fun _ _ hs => Or.inr ⟨hcap, hs⟩)
  · simp only [hmissing, onlyIf]
    refine Triple.seq (Triple.ret fun _ => id) ?_
    refine Triple.seq (Triple.optional fun _ => fail_steady yields_kept.steady _)
      (Triple.seq (Triple.optional fun _ => fail_steady yields_kept.steady _) ?_)
    exact Triple.seq (commit_steady yields_kept.steady) ((pushNotice_steady yields_kept.steady emptyResponseNotice_ne).post
      fun _ _ => Or.inl)

theorem planIncomplete_idle (hplan : setup.initialApprovedPlan.isSome = true) :
    Triple (Idle c) (planIncomplete setup iter c.sharedPlan) (fun _ => Idle c)
      (EndsRun (σ := σ) req setup c) := by
  refine Triple.seq (update_steady yields_kept.steady fun _ => rfl)
    (Triple.seq (Triple.optional fun _ => fail_steady yields_kept.steady _)
      (Triple.seq (hideDraft_steady yields_kept.steady _) (Triple.readKeep fun s _ =>
        Triple.choose (fun _ => pushNotice_steady yields_kept.steady (planIncompleteNotice_ne _)) fun _ => ?_)))
  refine Triple.seq (pushNotice_steady yields_kept.steady planPausedNotice_ne)
    (Triple.seq (publishPlan_steady yields_kept.steady _) (completeWith_steady yields_kept.steady ?_))
  rintro s ⟨rfl, hcalls⟩
  exact ⟨_, ⟨rfl, hcalls⟩, .paused rfl hplan⟩

/-- The answer may complete the run: the plan-mode and plan-completion gates are behind it. -/
structure Finishable (req : RunRequest σ) (setup : RunSetup) (c : GateView) : Prop where
  mode : req.planMode = true → c.sharedPlan.isSome = true
  plan : setup.initialApprovedPlan.isSome = true → approvedPlanIsComplete c.sharedPlan = true

theorem completeNaturally_idle (h : Finishable req setup c) :
    Triple (Idle c) (completeNaturally iter) (fun _ => Idle c) (EndsRun (σ := σ) req setup c) := by
  refine Triple.seq (closedOrCancel_steady yields_kept.steady) (Triple.readKeep fun s hs =>
    Triple.seq (publishPlan_steady yields_kept.steady _) (completeWith_steady yields_kept.steady fun s' hs' => ?_))
  have hplan : s.ctx.plan = c.sharedPlan := congrArg GateView.sharedPlan hs.1
  have hcommit : Idle c s'.commitPublished := hs'.recordPublished false
  refine ⟨{ c with plan := c.sharedPlan }, ⟨?_, hcommit.2⟩, .completed rfl h.mode h.plan⟩
  rw [hplan, ← hcommit.1]
  rfl

theorem terminalBarrier_idle (h : Finishable req setup c) :
    Triple (Idle c) (terminalBarrier req setup iter) (fun _ => Idle c)
      (EndsRun (σ := σ) req setup c) := by
  refine Triple.seq (closedOrCancel_steady yields_kept.steady) (Triple.readKeep fun s _ => ?_)
  cases (req.turns iter.n).verdict with
  | none =>
    exact Triple.choose (fun _ => fail_steady yields_kept.steady _) fun _ => completeNaturally_idle h
  | some verdict =>
    exact Triple.choose (fun _ => completeNaturally_idle h) fun _ => veto_steady yields_kept.steady verdict

theorem reviewAnswer_idle (h : Finishable req setup c) :
    Triple (Idle c) (reviewAnswer req setup iter) (fun _ => Idle c)
      (EndsRun (σ := σ) req setup c) := by
  refine Triple.seq (update_steady yields_kept.steady fun _ => rfl) (Triple.readKeep fun s _ => ?_)
  cases s.artifactRepairTraceStart with
  | none => exact terminalBarrier_idle h
  | some traceStart =>
    exact Triple.choose (fun _ => terminalBarrier_idle h) fun _ =>
      repairIncomplete_steady yields_kept.steady _

theorem finishPlan_idle (hmode : req.planMode = true → c.sharedPlan.isSome = true) :
    Triple (Idle c) (finishPlan req setup iter) (fun _ => Idle c)
      (EndsRun (σ := σ) req setup c) := by
  refine Triple.choose (fun hplan => ?_) fun hplan => reviewAnswer_idle ⟨hmode, fun h =>
    absurd h hplan⟩
  refine Triple.seq (closedOrCancel_steady yields_kept.steady) (Triple.readKeep fun s hs => ?_)
  have hshared : s.ctx.plan = c.sharedPlan := congrArg GateView.sharedPlan hs.1
  rw [hshared]
  exact Triple.choose (fun hcomplete => reviewAnswer_idle ⟨hmode, fun _ => hcomplete⟩)
    fun _ => planIncomplete_idle hplan

theorem naturalPath_idle : Triple (Idle c) (naturalPath req setup iter) (fun _ => Continues c)
    (EndsRun (σ := σ) req setup c) := by
  refine Triple.readKeep fun s hs => Triple.choose (fun _ => emptyResponse_idle) fun _ => ?_
  have hshared : s.ctx.plan = c.sharedPlan := congrArg GateView.sharedPlan hs.1
  rw [hshared]
  refine Triple.seq (update_steady yields_kept.steady fun _ => rfl)
    (Triple.choose (fun _ => denyMissingPlan_idle) fun hplan => ?_)
  refine (finishPlan_idle fun hmode => ?_).post fun _ _ => Or.inl
  simpa [hmode, Option.isSome_iff_ne_none] using hplan

/-- The part of the tool path behind the batch and its plan. -/
theorem toolPath_rest (calls : List ToolCall) (results : List ToolResult) (planChanged : Bool)
    (iterationText : Text) : Triple (Idle c)
      (do
        checkpointBatch req
        noteToolErrors results
        let planUpdatePublished ← publishPlanChange planChanged
        modify fun s => if iterationText.isEmpty then s else { s with finalText := iterationText }
        awaitPlanApproval req iter planUpdatePublished
        awaitUserResponse iter
        let s ← get
        if req.planMode && s.ctx.plan.isNone then do
          recordPlanDenial setup iter
          pushNotice planDenialNotice
        else retrievalBreaker calls)
      (fun _ => Continues c) (EndsRun (σ := σ) req setup c) := by
  refine Triple.seq (checkpointBatch_idle yields_kept) (Triple.seq (noteToolErrors_steady yields_kept.steady results)
    (Triple.bind (publishPlanChange_steady yields_kept.steady planChanged) fun published => ?_))
  refine Triple.seq (update_steady yields_kept.steady fun s => by split_ifs <;> rfl)
    (Triple.seq (awaitPlanApproval_steady yields_kept.steady published)
      (Triple.seq (awaitUserResponse_steady yields_kept.steady) (Triple.readKeep fun s _ =>
        Triple.choose (fun _ => ?_) fun _ => ?_)))
  · exact Triple.seq recordPlanDenial_idle (Triple.assume fun hcap =>
      remind_idle.post fun _ _ hs => Or.inr ⟨hcap, hs⟩)
  · exact (retrievalBreaker_steady yields_kept.steady calls).post fun _ _ => Or.inl

/-- The plan of the session follows the shared plan when a plan tool has succeeded. -/
def commitPlan (calls : List ToolCall) (results : List ToolResult) (c : GateView) : GateView :=
  { c with
    plan := if succeededInBatch isPlanMutationTool calls results then c.sharedPlan else c.plan }

/-- The tool path ends with an interrupted batch, or goes on from an answered one. -/
theorem toolPath_idle (calls : List ToolCall) :
    Triple (Idle c) (toolPath req setup iter calls)
      (fun _ s => ∃ results c', Answered req iter calls c results c' ∧
        Continues (commitPlan calls results c') s)
      (fun o s => LeftInterrupted req iter calls c o s ∨
        ∃ results c', Answered req iter calls c results c' ∧
          EndsRun req setup (commitPlan calls results c') o s) := by
  refine Triple.readKeep fun s _ => Triple.bind ((runBatch_idle calls).conseq (fun _ => id)
    (fun _ _ => id) fun _ _ => Or.inl) fun results => Triple.of_each fun s' hs' => ?_
  obtain ⟨c', hs', hanswered⟩ := hs'
  refine Triple.seq (M := Idle (commitPlan calls results c')) (Triple.update ?_)
    ((toolPath_rest calls results _ s.progress.published.text).conseq (fun _ => id)
      (fun _ s hs => ⟨results, c', hanswered, hs⟩)
      fun o s hs => Or.inr ⟨results, c', hanswered, hs⟩)
  rintro _ rfl
  obtain ⟨hview, hcalls⟩ := hs'
  rw [← hview]
  unfold commitPlan
  split_ifs with hchanged
  · exact ⟨rfl, hcalls⟩
  · exact ⟨rfl, hcalls⟩

/-! One iteration, and the whole run. -/

/-- The view behind the batch of an iteration, if the iteration has one. -/
inductive BehindBatch (req : RunRequest σ) (iter : IterationSetup) (c : GateView) :
    GateView → Prop
  | quiet : BehindBatch req iter c c
  | answered {calls : List ToolCall} {results : List ToolResult} {c' : GateView}
      (hfinal : iter.isUserFinal = false) (h : Answered req iter calls c results c') :
      BehindBatch req iter c (commitPlan calls results c')

def GoesOn (req : RunRequest σ) (iter : IterationSetup) (c : GateView) (s : RunState σ) : Prop :=
  ∃ c', BehindBatch req iter c c' ∧ Continues c' s

/-- An iteration ends the run behind its batch, or with an interrupted one. -/
def Finishes (req : RunRequest σ) (setup : RunSetup) (iter : IterationSetup) (c : GateView)
    (o : RunOutcome) (s : RunState σ) : Prop :=
  (∃ c', BehindBatch req iter c c' ∧ EndsRun req setup c' o s) ∨
    ∃ calls, iter.isUserFinal = false ∧ LeftInterrupted req iter calls c o s

theorem EndsRun.finishes {o : RunOutcome} {s : RunState σ} (h : EndsRun req setup c o s) :
    Finishes req setup iter c o s :=
  Or.inl ⟨c, .quiet, h⟩

theorem yields_finishes : Yields c (Finishes (σ := σ) req setup iter c) :=
  fun o s ho hs => (yields_kept o s ho hs).finishes

theorem decideTurn_idle (l : StreamState) (turn : ParsedTurn)
    (hopen : ¬ (iter.isUserFinal && !turn.finalized.isEmpty) = true) :
    Triple (Idle c) (decideTurn req setup iter l turn) (fun _ => GoesOn req iter c)
      (Finishes req setup iter c) := by
  have hquiet : ∀ s : RunState σ, Continues c s → GoesOn req iter c s :=
    fun _ hs => ⟨c, .quiet, hs⟩
  refine Triple.choose (fun _ => ?_) fun _ => ?_
  · exact (lengthFinish_steady yields_finishes.steady).post fun _ s hs => hquiet s (Or.inl hs)
  refine Triple.seq (update_steady yields_finishes.steady fun _ => rfl) (Triple.choose (fun _ => ?_)
    fun hcalls => ?_)
  · exact naturalPath_idle.conseq (fun _ => id) (fun _ => hquiet) fun _ _ => EndsRun.finishes
  · have hfinal : iter.isUserFinal = false := by simpa [hcalls] using hopen
    refine (toolPath_idle turn.finalized).conseq (fun _ => id) ?_ ?_
    · rintro _ s ⟨results, c', hanswered, hs⟩
      exact ⟨_, .answered hfinal hanswered, hs⟩
    · rintro o s (hs | ⟨results, c', hanswered, hs⟩)
      · exact Or.inr ⟨_, hfinal, hs⟩
      · exact Or.inl ⟨_, .answered hfinal hanswered, hs⟩

/-- What iteration `k + 1` fixes at its start. -/
def iterationSetup (setup : RunSetup) (c : GateView) (k : ℕ) : IterationSetup where
  n := k + 1
  isUserFinal := setup.userIterationCapActive && k + 1 == setup.iterationLimit
  planStepUpdatesAllowed := hasUpdatableApprovedPlan c.sharedPlan

theorem beginIteration_idle (k : ℕ) (hE : Yields c E) :
    Triple (fun s => Idle c s ∧ s.progress.iterations = k) (beginIteration setup)
      (fun iter s => iter = iterationSetup setup c k ∧ Idle c s) E := by
  refine Triple.seq (M := fun s => Idle c s ∧ s.progress.iterations = k + 1) (Triple.update ?_)
    (Triple.read fun s hs => ?_)
  · rintro s ⟨hs, rfl⟩
    exact ⟨hs, rfl⟩
  · refine Triple.seq ((sendOrCancel_steady hE.steady fun _ => rfl).pre fun _ h => h ▸ hs.1)
      (Triple.readKeep fun s' hs' => Triple.ret fun s'' hs'' => ⟨?_, hs''⟩)
    have hshared : s'.ctx.plan = c.sharedPlan := congrArg GateView.sharedPlan hs'.1
    rw [hs.2, hshared]
    rfl

theorem iteration_idle (k : ℕ) :
    Triple (fun s => Idle c s ∧ s.progress.iterations = k) (iteration req setup)
      (fun _ => GoesOn req (iterationSetup setup c k) c)
      (Finishes req setup (iterationSetup setup c k) c) := by
  refine Triple.bind (beginIteration_idle k yields_finishes) fun iter => Triple.assume ?_
  rintro rfl
  exact Triple.bind (streamTurn_steady yields_finishes.steady fun _ _ hs => hs) fun l =>
    Triple.bind (settleStream_steady yields_finishes.steady l) fun turn => Triple.assume fun hopen =>
      decideTurn_idle l turn hopen

theorem iterationsExhausted_idle : Triple (Idle c) (iterationsExhausted req setup)
    (fun _ _ => False) (fun (o : RunOutcome) s => o.kind ≠ .natural ∧ Idle (σ := σ) c s) := by
  have hyields : Yields c (fun (o : RunOutcome) s => o.kind ≠ .natural ∧ Idle (σ := σ) c s) :=
    fun _ _ ho hs => ⟨ho, hs⟩
  exact Triple.readKeep fun _ _ => completeWith_steady hyields.steady fun s hs => ⟨by simp, hs⟩

/-- An invariant of the views that every iteration keeps holds throughout the loop; `X` is what
it makes of the end of a run. -/
structure LoopRule (req : RunRequest σ) (setup : RunSetup) (I : GateView → Prop)
    (X : RunOutcome → GateView → Prop) : Prop where
  batch : ∀ {c c' k}, I c → BehindBatch req (iterationSetup setup c k) c c' → I c'
  remind : ∀ {c}, I c → c.denials < planDenialCap → I c.reminded
  ended : ∀ {c c' o}, I c → Ending req setup c o c' → X o c'
  interrupted : ∀ {c c' k calls o}, I c → (iterationSetup setup c k).isUserFinal = false →
    Interrupted req (iterationSetup setup c k) calls c c' → o.kind = .cancelled → X o c'

theorem LoopRule.agentLoop {I : GateView → Prop} {X : RunOutcome → GateView → Prop}
    (h : LoopRule req setup I X) (remaining : ℕ) :
    Triple (fun s => ∃ c, Idle c s ∧ I c) (agentLoop req setup remaining) (fun _ _ => False)
      (fun o s => ∃ c, Idle c s ∧ X o c) := by
  induction remaining with
  | zero =>
    refine Triple.of_each fun s hs => ?_
    obtain ⟨c, hs, hI⟩ := hs
    refine iterationsExhausted_idle.conseq (fun _ he => he ▸ hs) (fun _ _ => id) ?_
    rintro o s' ⟨ho, hs'⟩
    exact ⟨c, hs', h.ended hI (.kept ho)⟩
  | succ remaining ih =>
    refine Triple.seq (M := fun s => ∃ c, Idle c s ∧ I c) (Triple.of_each fun s hs => ?_) ih
    obtain ⟨c, hs, hI⟩ := hs
    have hstep : Triple (fun s' => Idle c s' ∧ s'.progress.iterations = s.progress.iterations)
        (iteration req setup) (fun _ => GoesOn req (iterationSetup setup c s.progress.iterations) c)
        (Finishes req setup (iterationSetup setup c s.progress.iterations) c) :=
      iteration_idle s.progress.iterations
    refine hstep.conseq ?_ ?_ ?_
    · rintro _ rfl
      exact ⟨hs, rfl⟩
    · rintro _ s' ⟨c', hbatch, hs' | ⟨hcap, hs'⟩⟩
      · exact ⟨c', hs', h.batch hI hbatch⟩
      · exact ⟨_, hs', h.remind (h.batch hI hbatch) hcap⟩
    · rintro o s' (⟨c', hbatch, c'', hs', hending⟩ | ⟨calls, hfinal, ho, c', hs', hinterrupted⟩)
      · exact ⟨c'', hs', h.ended (h.batch hI hbatch) hending⟩
      · exact ⟨c', hs', h.interrupted hI hfinal hinterrupted ho⟩

end

section
variable {σ : Type} {c c' : GateView} {req : RunRequest σ} {setup : RunSetup}
  {iter : IterationSetup} {calls : List ToolCall}

/-! What an iteration shows of its batch. -/

/-- The call and the outcome that a tool message answers. -/
def answered (messages : List ChatMessage) : List (Option Text × Option Bool) :=
  messages.map fun m => (m.toolCallId, m.isError)

/-- One error message for each call. -/
def errorAnswers (ids : List Text) : List (Option Text × Option Bool) :=
  ids.map fun id => (some id, some true)

theorem answered_cancelled (calls : List ToolCall) :
    answered (calls.map cancelledResult) = errorAnswers (calls.map ToolCall.id) := by
  simp only [answered, errorAnswers, List.map_map]
  rfl

theorem answered_results {results : List ToolResult} (h : outcomes results = errorsOf calls) :
    answered (results.map (resultMessage calls)) = errorAnswers (calls.map ToolCall.id) := by
  have hmessages : answered (results.map (resultMessage calls)) =
      (outcomes results).map fun o => (some o.1, some o.2) := by
    simp only [answered, outcomes, List.map_map]
    rfl
  rw [hmessages, h]
  simp only [errorsOf, errorAnswers, List.map_map]
  rfl

/-- What became of one batch. -/
structure BatchReport (req : RunRequest σ) (iter : IterationSetup) (calls : List ToolCall)
    (c c' : GateView) : Prop where
  notFinal : iter.isUserFinal = false
  routed : c'.routed = c.routed ∨
    (Allowed req iter calls ∧ c'.routed = c.routed ++ [calls.map (pendingCall req)])
  exchange : ∃ tail, c'.exchanged = c.exchanged ++ tail ∧
    (∀ views, ⟨.toolCalls views, true⟩ ∈ tail → views = calls.map (callView req)) ∧
    ∀ views, ⟨.toolCalls views, true⟩ ∈ tail → ¬ Allowed req iter calls →
      (∀ results accepted, ⟨.toolResults results, accepted⟩ ∈ tail →
        outcomes results = errorsOf calls) ∧
      ∃ answers, c'.answers = c.answers ++ answers ∧
        answered answers = errorAnswers (calls.map ToolCall.id)

theorem Obtained.routed {results : List ToolResult} (h : Obtained req iter calls c results c') :
    c'.routed = c.routed ∨
      (Allowed req iter calls ∧ c'.routed = c.routed ++ [calls.map (pendingCall req)]) := by
  cases h with
  | rejected _ _ => exact Or.inl rfl
  | executed hallowed _ _ _ => exact Or.inr ⟨hallowed, rfl⟩

theorem Obtained.errors {results : List ToolResult} (h : Obtained req iter calls c results c')
    (hnot : ¬ Allowed req iter calls) : outcomes results = errorsOf calls ∧ c' = c := by
  cases h with
  | rejected _ herrors => exact ⟨herrors, rfl⟩
  | executed hallowed _ _ _ => exact absurd hallowed hnot

theorem Obtained.exchanged {results : List ToolResult} (h : Obtained req iter calls c results c') :
    c'.exchanged = c.exchanged := by
  cases h <;> rfl

theorem mem_exchange_calls {views : List ToolCallView} {results : List ToolResult} {a : Bool}
    (h : (⟨.toolCalls views, true⟩ : Delivery) ∈
      [callsDelivery req calls true, resultsDelivery results a]) :
    views = calls.map (callView req) := by
  simpa [callsDelivery, resultsDelivery] using h

theorem mem_exchange_results {results results' : List ToolResult} {a a' : Bool}
    (h : (⟨.toolResults results', a'⟩ : Delivery) ∈
      [callsDelivery req calls true, resultsDelivery results a]) : results' = results := by
  simp only [callsDelivery, resultsDelivery, List.mem_cons, Delivery.mk.injEq, reduceCtorEq,
    false_and, false_or, AgentEvent.toolResults.injEq, List.not_mem_nil, or_false] at h
  exact h.1

theorem Answered.report {results : List ToolResult} (hfinal : iter.isUserFinal = false)
    (h : Answered req iter calls c results c') :
    BatchReport req iter calls c (commitPlan calls results c') := by
  obtain ⟨hobtained⟩ := h
  refine ⟨hfinal, hobtained.routed, _, congrArg (· ++ _) hobtained.exchanged,
    fun _ => mem_exchange_calls, fun views _ hnot => ⟨fun results' _ hmem => ?_,
      results.map (resultMessage calls), ?_, ?_⟩⟩
  · rw [mem_exchange_results hmem]
    exact (hobtained.errors hnot).1
  · rw [(hobtained.errors hnot).2]
    rfl
  · exact answered_results (hobtained.errors hnot).1

theorem Interrupted.report (hfinal : iter.isUserFinal = false)
    (h : Interrupted req iter calls c c') : BatchReport req iter calls c c' := by
  cases h with
  | refused =>
    refine ⟨hfinal, Or.inl rfl, _, rfl, fun views hmem => ?_, fun views hmem => ?_⟩
    · simp [callsDelivery] at hmem
    · simp [callsDelivery] at hmem
  | closed hallowed plan =>
    refine ⟨hfinal, Or.inr ⟨hallowed, rfl⟩, _, rfl, fun views hmem => ?_, fun _ _ hnot =>
      absurd hallowed hnot⟩
    simpa [callsDelivery] using hmem
  | unanswered hobtained =>
    refine ⟨hfinal, hobtained.routed, _, congrArg (· ++ _) hobtained.exchanged,
      fun _ => mem_exchange_calls, fun views _ hnot => ⟨fun results' _ hmem => ?_, _, ?_,
        answered_cancelled calls⟩⟩
    · rw [mem_exchange_results hmem]
      exact (hobtained.errors hnot).1
    · rw [(hobtained.errors hnot).2]
      rfl

/-- The parts of the view that only a batch changes. -/
def GateView.SameExchange (c c' : GateView) : Prop :=
  c'.routed = c.routed ∧ c'.exchanged = c.exchanged ∧ c'.answers = c.answers

theorem Ending.same {o : RunOutcome} (h : Ending req setup c o c') : c.SameExchange c' := by
  cases h <;> exact ⟨rfl, rfl, rfl⟩

theorem BatchReport.trans {c'' : GateView} (h : BatchReport req iter calls c c')
    (hsame : c'.SameExchange c'') : BatchReport req iter calls c c'' := by
  obtain ⟨hrouted, hexchanged, hanswers⟩ := hsame
  obtain ⟨hfinal, hroute, tail, htail, hcalls, hnot⟩ := h
  refine ⟨hfinal, by rwa [hrouted], tail, by rwa [hexchanged], hcalls, ?_⟩
  rwa [hanswers]

/-- An iteration has no batch, or a reported one. -/
def Reported (req : RunRequest σ) (iter : IterationSetup) (c : GateView) (s : RunState σ) : Prop :=
  c.SameExchange s.gateView ∨ ∃ calls, BatchReport req iter calls c s.gateView

theorem Reported.behindBatch {s : RunState σ} (hbatch : BehindBatch req iter c c')
    (h : c'.SameExchange s.gateView) : Reported req iter c s := by
  cases hbatch with
  | quiet => exact Or.inl h
  | answered hfinal hanswered => exact Or.inr ⟨_, (hanswered.report hfinal).trans h⟩

theorem GoesOn.reported {s : RunState σ} (h : GoesOn req iter c s) : Reported req iter c s := by
  obtain ⟨c', hbatch, hs | ⟨-, hs⟩⟩ := h
  · exact Reported.behindBatch hbatch (hs.1 ▸ ⟨rfl, rfl, rfl⟩)
  · exact Reported.behindBatch hbatch (hs.1 ▸ ⟨rfl, rfl, rfl⟩)

theorem Finishes.reported {o : RunOutcome} {s : RunState σ} (h : Finishes req setup iter c o s) :
    Reported req iter c s := by
  rcases h with ⟨c', hbatch, c'', hs, hending⟩ | ⟨calls, hfinal, -, c', hs, hinterrupted⟩
  · exact Reported.behindBatch hbatch (hs.1 ▸ hending.same)
  · exact Or.inr ⟨calls, hs.1 ▸ hinterrupted.report hfinal⟩

theorem Fresh.idle {s : RunState σ} (h : Fresh s) : Idle s.gateView s :=
  ⟨rfl, by rw [h.1]⟩

/-- Every iteration reports its batch. -/
theorem iteration_reported (req : RunRequest σ) (setup : RunSetup) {s : RunState σ} (h : Fresh s) :
    Reported req (iterationSetup setup s.gateView s.progress.iterations) s.gateView
      (outcome (iteration req setup) s).2 := by
  have hiteration : Ends
      (fun _ => GoesOn req (iterationSetup setup s.gateView s.progress.iterations) s.gateView)
      (Finishes req setup (iterationSetup setup s.gateView s.progress.iterations) s.gateView)
      (outcome (iteration req setup) s) := iteration_idle s.progress.iterations s ⟨h.idle, rfl⟩
  rcases hr : outcome (iteration req setup) s with ⟨o | _, s'⟩
  · rw [hr] at hiteration
    exact hiteration.reported
  · rw [hr] at hiteration
    exact hiteration.reported

/-! The boundary over a run. -/

/-- Whether the iteration behind this state is the last one that the user allows. -/
def isUserFinalAfter (setup : RunSetup) (before : RunState σ) : Bool :=
  setup.userIterationCapActive && before.progress.iterations + 1 == setup.iterationLimit

/-- The batch conditions at the start of an iteration. -/
def PermittedAt (req : RunRequest σ) (before : RunState σ) (names : List Text) : Prop :=
  Permitted req.tools req.planMode (hasUpdatableApprovedPlan before.ctx.plan) names

/-- What the iteration from `before` to `after` lets through, and how it answers the rest. -/
structure CapabilityKept (req : RunRequest σ) (setup : RunSetup) (before after : RunState σ) :
    Prop where
  routed : after.routed = before.routed ∨ ∃ batch, after.routed = before.routed ++ [batch] ∧
    PermittedAt req before (batch.map PendingToolCall.name) ∧
    isUserFinalAfter setup before = false
  /-- A published batch that is not permitted is not executed, and every result that is offered
  for it, or recorded, is one error for each of its calls. -/
  rejected : ∀ views, ⟨.toolCalls views, true⟩ ∈ deliveredBetween before after →
    ¬ PermittedAt req before (views.map ToolCallView.name) → after.routed = before.routed ∧
      (∀ results accepted, ⟨.toolResults results, accepted⟩ ∈ deliveredBetween before after →
        outcomes results = views.map fun view => (view.id, true)) ∧
      ∃ answers, toolAnswers after.session.messages =
          toolAnswers before.session.messages ++ answers ∧
        answered answers = errorAnswers (views.map ToolCallView.id)
  /-- In the final iteration that a user has limited, no call is published or answered. -/
  userFinal : isUserFinalAfter setup before = true → after.routed = before.routed ∧
    (deliveredBetween before after).filter Delivery.isExchange = [] ∧
    toolAnswers after.session.messages = toolAnswers before.session.messages

theorem iteration_keepsCapability (req : RunRequest σ) (setup : RunSetup) {s : RunState σ}
    (h : Fresh s) : CapabilityKept req setup s (outcome (iteration req setup) s).2 := by
  have hreported := iteration_reported req setup h
  obtain ⟨sent, -, hsent, -, -⟩ := recordedBetween_iteration req setup h
  generalize (outcome (iteration req setup) s).2 = after at hreported hsent
  have hdelivered : deliveredBetween s after = sent := by
    rw [deliveredBetween, hsent, List.drop_left]
  have hexchanged : after.gateView.exchanged =
      s.gateView.exchanged ++ sent.filter Delivery.isExchange := by
    simp only [RunState.gateView, hsent, List.filter_append]
  have hmem : ∀ {d : Delivery} {tail : List Delivery},
      after.gateView.exchanged = s.gateView.exchanged ++ tail → d.isExchange = true →
      d ∈ deliveredBetween s after → d ∈ tail := by
    intro d tail htail hd hmem
    rw [hexchanged, List.append_cancel_left_eq] at htail
    rw [← htail]
    exact List.mem_filter.mpr ⟨hdelivered ▸ hmem, hd⟩
  rcases hreported with ⟨hrouted, hnone, hanswers⟩ | ⟨calls, hfinal, hroute, tail, htail, hcalls, hnot⟩
  · have hempty : (deliveredBetween s after).filter Delivery.isExchange = [] := by
      rw [hexchanged, List.append_right_eq_self] at hnone
      rwa [hdelivered]
    refine ⟨Or.inl hrouted, fun views hviews => ?_, fun _ => ⟨hrouted, hempty, hanswers⟩⟩
    have hexchange := List.mem_filter.mpr ⟨hviews, show Delivery.isExchange _ = true from rfl⟩
    rw [hempty] at hexchange
    exact absurd hexchange List.not_mem_nil
  · have hnames : calls.map (fun call => call.function.name) =
        (calls.map (pendingCall req)).map PendingToolCall.name := by
      rw [List.map_map]
      rfl
    refine ⟨?_, fun views hviews hviewsNot => ?_, fun htrue => ?_⟩
    · rcases hroute with hrouted | ⟨hallowed, hrouted⟩
      · exact Or.inl hrouted
      · refine Or.inr ⟨_, hrouted, ?_, hfinal⟩
        rw [← hnames]
        exact hallowed
    · have hviewsEq := hcalls views (hmem htail rfl hviews)
      subst hviewsEq
      have hdenied : ¬ Allowed req (iterationSetup setup s.gateView s.progress.iterations) calls := by
        intro hallowed
        refine hviewsNot ?_
        rw [List.map_map]
        exact hallowed
      obtain ⟨hresults, hrecorded⟩ := hnot _ (hmem htail rfl hviews) hdenied
      have hids : (calls.map (callView req)).map ToolCallView.id = calls.map ToolCall.id := by
        rw [List.map_map]
        rfl
      refine ⟨?_, fun results accepted hr => ?_, ?_⟩
      · rcases hroute with hrouted | ⟨hallowed, -⟩
        · exact hrouted
        · exact absurd hallowed hdenied
      · rw [hresults results accepted (hmem htail rfl hr), List.map_map]
        rfl
      · rw [hids]
        exact hrecorded
    · rw [show isUserFinalAfter setup s = _ from hfinal] at htrue
      cases htrue

/-- Every batch that the loop has routed is that of one of its iterations. -/
theorem mem_routed_agentLoop (req : RunRequest σ) (setup : RunSetup) (remaining : ℕ)
    {s : RunState σ} (h : Fresh s) {batch : List PendingToolCall}
    (hbatch : batch ∈ (outcome (agentLoop req setup remaining) s).2.routed) :
    batch ∈ s.routed ∨ ∃ span ∈ iterationSpans req setup remaining s,
      span.2.routed = span.1.routed ++ [batch] := by
  induction remaining generalizing s with
  | zero =>
    have hend : Ends (fun _ _ => False) (fun o s' => o.kind ≠ .natural ∧ Idle s.gateView s')
        (outcome (iterationsExhausted req setup) s) := iterationsExhausted_idle s h.idle
    rw [agentLoop] at hbatch
    rcases hr : outcome (iterationsExhausted req setup) s with ⟨o | _, s'⟩
    · rw [hr] at hend hbatch
      have hrouted : s'.routed = s.routed := congrArg GateView.routed hend.2.1
      exact Or.inl (hrouted ▸ hbatch)
    · rw [hr] at hend
      exact hend.elim
  | succ remaining ih =>
    have hkept := iteration_keepsCapability req setup h
    have hfresh := iteration_fresh req setup h
    rw [agentLoop, outcome_bind] at hbatch
    rw [iterationSpans]
    have hfirst : ∀ {s' : RunState σ}, CapabilityKept req setup s s' → batch ∈ s'.routed →
        batch ∈ s.routed ∨ s'.routed = s.routed ++ [batch] := by
      intro s' hs' hmem
      rcases hs'.routed with hsame | ⟨batch', hrouted, -⟩
      · exact Or.inl (hsame ▸ hmem)
      · rw [hrouted, List.mem_append, List.mem_singleton] at hmem
        rcases hmem with hmem | rfl
        · exact Or.inl hmem
        · exact Or.inr hrouted
    rcases hr : outcome (iteration req setup) s with ⟨o | _, s'⟩
    · rw [hr] at hkept hbatch
      exact (hfirst hkept hbatch).imp_right fun hrouted => ⟨_, List.mem_singleton_self _, hrouted⟩
    · rw [hr] at hkept hbatch hfresh
      obtain ⟨-, -, -, -, ⟨hp', -⟩, -, hstored'⟩ := hfresh
      rcases ih ⟨hp', hstored'⟩ hbatch with hmem | ⟨span, hspan, hrouted⟩
      · exact (hfirst hkept hmem).imp_right fun hrouted => ⟨_, List.mem_cons_self, hrouted⟩
      · exact Or.inr ⟨span, List.mem_cons_of_mem _ hspan, hrouted⟩

/-- Reminders never outrun the denials, nor the budget. -/
def Budgeted (base : ℕ) (c : GateView) : Prop :=
  c.denialNotices ≤ base + min c.denials planDenialCap

theorem Answered.gates {results : List ToolResult} (h : Answered req iter calls c results c') :
    c'.denials = c.denials ∧ c'.denialNotices = c.denialNotices := by
  obtain ⟨hobtained⟩ := h
  cases hobtained <;> exact ⟨rfl, rfl⟩

theorem BehindBatch.gates (h : BehindBatch req iter c c') :
    c'.denials = c.denials ∧ c'.denialNotices = c.denialNotices := by
  cases h with
  | quiet => exact ⟨rfl, rfl⟩
  | answered _ hanswered => exact hanswered.gates

theorem Interrupted.gates (h : Interrupted req iter calls c c') :
    c'.denials = c.denials ∧ c'.denialNotices = c.denialNotices := by
  cases h with
  | refused => exact ⟨rfl, rfl⟩
  | closed _ _ => exact ⟨rfl, rfl⟩
  | unanswered hobtained => cases hobtained <;> exact ⟨rfl, rfl⟩

theorem Budgeted.same {base : ℕ} (h : Budgeted base c)
    (hsame : c'.denials = c.denials ∧ c'.denialNotices = c.denialNotices) : Budgeted base c' := by
  unfold Budgeted at h ⊢
  rwa [hsame.1, hsame.2]

/-- What a run leaves behind: a bounded number of reminders, and in plan mode no natural
completion without a plan. -/
def RunGates (req : RunRequest σ) (base : ℕ) (o : RunOutcome) (c : GateView) : Prop :=
  c.denialNotices ≤ base + planDenialCap ∧
    (o.kind = .natural → req.planMode = true → c.plan.isSome = true)

theorem runGates_rule (req : RunRequest σ) (setup : RunSetup) (base : ℕ) :
    LoopRule req setup (Budgeted base) (RunGates req base) where
  batch h hbatch := h.same hbatch.gates
  remind := by
    intro c h hcap
    have hmin : min c.denials planDenialCap = c.denials := Nat.min_eq_left hcap.le
    have hmin' : min (c.denials + 1) planDenialCap = c.denials + 1 := Nat.min_eq_left hcap
    unfold Budgeted at h ⊢
    rw [hmin] at h
    simp only [GateView.reminded, GateView.denied, hmin']
    omega
  ended := by
    intro c c' o h hending
    have hbound : c.denialNotices ≤ base + planDenialCap :=
      h.trans (Nat.add_le_add_left (Nat.min_le_right _ _) base)
    cases hending with
    | kept ho => exact ⟨hbound, fun hn => absurd hn ho⟩
    | denied ho => exact ⟨hbound, fun hn => absurd hn ho⟩
    | paused ho _ =>
      refine ⟨hbound, fun hn => ?_⟩
      rw [ho] at hn
      cases hn
    | completed _ hmode _ => exact ⟨hbound, fun _ => hmode⟩
  interrupted := by
    intro c c' k calls o h _ hinterrupted ho
    have hkept := h.same hinterrupted.gates
    refine ⟨hkept.trans (Nat.add_le_add_left (Nat.min_le_right _ _) base), fun hn => ?_⟩
    rw [ho] at hn
    cases hn

/-- What an accepted run starts with, as the gates see it. -/
theorem gateView_of_accepted {session : Session} {ctx : ToolContext} {tx : Channel} {store : σ}
    {s : RunState σ} (h : startRun req session ctx tx store = (true, s)) :
    s.routed = [] ∧ Idle s.gateView s ∧ s.gateView.plan = session.plan ∧
      s.gateView.sharedPlan = ctx.plan ∧ s.gateView.denials = 0 ∧
      s.gateView.denialNotices = denialNotices session.messages := by
  have hidle := (fresh_of_accepted h).idle
  unfold startRun at h
  dsimp only at h
  split_ifs at h
  · simp only [Prod.mk.injEq, true_and] at h
    subst h
    refine ⟨rfl, hidle, rfl, rfl, rfl, ?_⟩
    have hprompt : ChatMessage.ofUser req.prompt ≠ harnessNotice planDenialNotice := by
      intro he
      have hrole := congrArg ChatMessage.role he
      cases hrole
    simp [RunState.gateView, denialNotices, beginRun, hprompt]
  · simp at h

theorem gateView_of_refused {session : Session} {ctx : ToolContext} {tx : Channel} {store : σ}
    {s : RunState σ} (h : startRun req session ctx tx store = (false, s)) :
    s.routed = [] ∧ s.session.plan = session.plan ∧ s.session.messages = session.messages := by
  unfold startRun at h
  dsimp only at h
  split_ifs at h
  · simp at h
  · obtain ⟨-, rfl⟩ := Prod.mk.inj h
    exact ⟨rfl, rfl, rfl⟩

theorem run_of_refused {session : Session} {ctx : ToolContext} {tx : Channel} {store : σ}
    {s : RunState σ} (h : startRun req session ctx tx store = (false, s)) :
    run req session ctx tx store =
      ({ kind := .cancelled, finalText := [], usage := {}, iterations := 0 }, s) := by
  rw [run, h]
  rfl

/-- The capability boundary of a whole run: only permitted batches reach the router, every other
published batch is answered by one error for each of its calls, a plan-mode run does not complete
naturally without a plan, and the reminders of a missing plan stay within their budget. -/
theorem run_keeps_capabilities (req : RunRequest σ) (session : Session) (ctx : ToolContext)
    (tx : Channel) (store : σ) :
    (∀ span ∈ runSpans req session ctx tx store,
      CapabilityKept req (runSetup req session ctx) span.1 span.2) ∧
    (∀ batch ∈ (run req session ctx tx store).2.routed,
      ∃ span ∈ runSpans req session ctx tx store, span.2.routed = span.1.routed ++ [batch]) ∧
    ((run req session ctx tx store).1.kind = .natural → req.planMode = true →
      (run req session ctx tx store).2.session.plan.isSome = true) ∧
    denialNotices (run req session ctx tx store).2.session.messages ≤
      denialNotices session.messages + planDenialCap := by
  refine ⟨fun span hspan => ?_, ?_⟩
  · obtain ⟨hfresh, hafter⟩ := runSpans_spec hspan
    rw [hafter]
    exact iteration_keepsCapability req _ hfresh
  rcases hstart : startRun req session ctx tx store with ⟨accepted, s⟩
  cases accepted with
  | false =>
    obtain ⟨hrouted, -, hmessages⟩ := gateView_of_refused hstart
    rw [run_of_refused hstart]
    dsimp only
    rw [hrouted, hmessages]
    refine ⟨fun batch hbatch => absurd hbatch List.not_mem_nil, fun hnatural => ?_,
      Nat.le_add_right _ _⟩
    cases hnatural
  | true =>
    obtain ⟨hrouted, hidle, -, -, hdenials, hnotices⟩ := gateView_of_accepted hstart
    have hbudget : Budgeted (denialNotices session.messages) s.gateView := by
      unfold Budgeted
      rw [hnotices]
      exact Nat.le_add_right _ _
    have hend := (runGates_rule req (runSetup req session ctx) _).agentLoop
      (runSetup req session ctx).iterationLimit s ⟨_, hidle, hbudget⟩
    refine ⟨fun batch hbatch => ?_, ?_⟩
    · rw [run_state_of_accepted hstart] at hbatch
      rw [runSpans, hstart]
      rcases mem_routed_agentLoop req _ _ (fresh_of_accepted hstart) hbatch with hmem | hspan
      · rw [hrouted] at hmem
        exact absurd hmem List.not_mem_nil
      · exact hspan
    · rw [run, hstart]
      dsimp only
      rcases hr : outcome (agentLoop req (runSetup req session ctx)
        (runSetup req session ctx).iterationLimit) s with ⟨o | _, s'⟩
      · rw [hr] at hend
        obtain ⟨c, ⟨rfl, -⟩, hbound, hnatural⟩ := hend
        exact ⟨hnatural, hbound⟩
      · rw [hr] at hend
        exact hend.elim

end

theorem callStart_userFinal :
    isUserFinalAfter (callSetup (some 1)) (callStart (some 1)) = true := by
  obtain ⟨honce, hcap⟩ := runSetup_sample "hello".toList (some 1) oneStringJson callBehindLt
    (sampleSession []) (Or.inr rfl)
  rw [isUserFinalAfter, callSetup, callRequest, honce, hcap]
  rfl

/-- The tool calls of a final iteration that the user has limited are not answered at all: the
run fails before it publishes them. -/
theorem userFinal_calls_unanswered :
    ∃ before after iter opened v calls,
      (before, after) ∈ runSpans (callRequest (some 1)) (sampleSession []) {} {} () ∧
      outcome (openTurn (callRequest (some 1)) (callSetup (some 1))) before =
        (.ok (iter, callBehindLt.map .ok), opened) ∧ iter.isUserFinal = true ∧
      parseAssistantText oneStringJson (answerOf callBehindLt) = .ok (.toolCalls v calls) ∧
      calls ≠ [] ∧ (deliveredBetween before after).filter Delivery.isExchange = [] ∧
      toolAnswers after.session.messages = [] := by
  obtain ⟨iter, opened, hopen, hfinal, -⟩ := callRequest_opens (some 1) (Or.inr rfl)
  obtain ⟨v, calls, hparse⟩ := callBehindLt_parses.2
  have hmem := callStart_mem (callSetup_limit (some 1) (Or.inr rfl))
  have hfresh := fresh_of_accepted (callStart_accepted (some 1))
  have hkept := iteration_keepsCapability (callRequest (some 1)) (callSetup (some 1)) hfresh
  obtain ⟨-, hexchange, hanswers⟩ := hkept.userFinal callStart_userFinal
  exact ⟨_, _, iter, opened, v, calls, hmem, hopen, hfinal, hparse,
    (parseAssistantText_toolCalls hparse).2, hexchange, hanswers⟩

end DeepseekScience.Agent
