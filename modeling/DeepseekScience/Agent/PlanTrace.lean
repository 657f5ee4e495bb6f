import DeepseekScience.Agent.PlanExecution

/-! Where the plan of a session comes from: behind every run it is the plan that the run was given,
up to the statuses of its steps, or the history of the run holds the call that generated it. -/
namespace DeepseekScience.Agent

open Tools Dsml Exits

/-- A plan without the statuses of its steps. -/
def planContent (p : PlanState) : Bool × List Text × Option Text :=
  (p.approved, p.steps.map PlanStep.title, p.researchQuestion)

/-- The messages hold a successful call of `generate_plan` that asked for the plan. -/
def Generates (json : SerdeJson) (messages : List ChatMessage) (p : PlanState) : Prop :=
  ∃ m ∈ messages, m.role = .assistant ∧ ∃ call ∈ m.toolCalls.getD [],
    call.function.name = "generate_plan".toList ∧
    (∃ r ∈ messages, r.role = .tool ∧ r.toolCallId = some call.id ∧ r.isError = some false) ∧
    ∃ a, parseGeneratePlanArgs (parseArguments json call.function.arguments) = some a ∧
      planContent p = planContent (generatedPlan a)

/-- The plan behind some messages of a run that was given `given`. -/
def PlanFrom (json : SerdeJson) (given : Option PlanState) (messages : List ChatMessage)
    (plan : Option PlanState) : Prop :=
  plan.map planContent = given.map planContent ∨ ∃ p, plan = some p ∧ Generates json messages p

section
variable {json : SerdeJson} {given plan : Option PlanState} {messages more : List ChatMessage}

theorem Generates.mono {p : PlanState} (h : Generates json messages p)
    (hsub : messages ⊆ more) : Generates json more p := by
  obtain ⟨m, hm, hrole, call, hcall, hname, ⟨r, hr, hresult⟩, hargs⟩ := h
  exact ⟨m, hsub hm, hrole, call, hcall, hname, ⟨r, hsub hr, hresult⟩, hargs⟩

theorem PlanFrom.mono (h : PlanFrom json given messages plan) (hsub : messages ⊆ more) :
    PlanFrom json given more plan :=
  h.imp_right fun ⟨p, hp, hgenerates⟩ => ⟨p, hp, hgenerates.mono hsub⟩

theorem PlanFrom.append (h : PlanFrom json given messages plan) (more : List ChatMessage) :
    PlanFrom json given (messages ++ more) plan :=
  h.mono (List.subset_append_left _ _)

/-- A generated plan is not approved. -/
theorem Generates.unapproved {p : PlanState} (h : Generates json messages p) :
    p.approved = false := by
  obtain ⟨-, -, -, -, -, -, -, a, -, hcontent⟩ := h
  exact congrArg Prod.fst hcontent

theorem PlanFrom.of_content {plan' : Option PlanState} (h : PlanFrom json given messages plan)
    (hsame : plan'.map planContent = plan.map planContent) :
    PlanFrom json given messages plan' := by
  rcases h with hkept | ⟨p, rfl, hgenerates⟩
  · exact Or.inl (hsame.trans hkept)
  · obtain ⟨p', rfl, hcontent⟩ := Option.map_eq_some_iff.mp hsame
    obtain ⟨m, hm, hrole, call, hcall, hname, hresult, a, hargs, hp⟩ := hgenerates
    exact Or.inr ⟨p', rfl, m, hm, hrole, call, hcall, hname, hresult, a, hargs, hcontent.trans hp⟩

end

/-! What a batch makes of the shared plan. -/

/-- One of the calls has generated the plan, and its result says so. -/
def GeneratedBy (calls : List PendingToolCall) (results : List ToolResult)
    (plan : Option PlanState) : Prop :=
  ∃ call ∈ calls, call.name = "generate_plan".toList ∧
    (∃ r ∈ results, r.toolUseId = call.id ∧ r.isError = false) ∧
    ∃ a, parseGeneratePlanArgs call.input = some a ∧
      plan.map planContent = some (planContent (generatedPlan a))

theorem planContent_setStepStatus (p : PlanState) (stepId : ℕ) (status : Text) :
    planContent (p.setStepStatus stepId status) = planContent p := by
  have h := setStepStatus_samePlan p ⟨stepId, status⟩
  rw [planContent, planContent, h.approved, h.titles, h.researchQuestion]

theorem updateStepStatus_content (error : Json → Text) (ctx : ToolContext) (args : Json) :
    (updateStepStatus error ctx args).2.plan.map planContent = ctx.plan.map planContent := by
  rw [updateStepStatus]
  cases parseUpdateStepArgs args with
  | none => rfl
  | some a =>
    cases hplan : ctx.plan with
    | none => simp only [hplan]
    | some plan =>
      simp only
      split_ifs
      · simp only [hplan]
      · rw [Option.map_some, Option.map_some, planContent_setStepStatus]

theorem generatePlan_content (error : Json → Text) (ctx : ToolContext) (args : Json) :
    (generatePlan error ctx args).2 = ctx ∨ ∃ a content, parseGeneratePlanArgs args = some a ∧
      (generatePlan error ctx args).1 = .ok ⟨content, false⟩ ∧
      (generatePlan error ctx args).2.plan = some (generatedPlan a) := by
  rw [generatePlan]
  cases hparse : parseGeneratePlanArgs args with
  | none => exact Or.inl rfl
  | some a =>
    simp only
    split_ifs
    · exact Or.inl rfl
    · exact Or.inr ⟨a, _, rfl, rfl, rfl⟩

/-- One call keeps the content of the plan, or it has generated the plan. -/
theorem executeToolCall_content (registry : ToolRegistry) {error : Json → Text} {task : ToolTask}
    {ctx : ToolContext} {call : PendingToolCall} (htask : FollowsPlanTools error ctx call task) :
    (executeToolCall registry task ctx call).2.plan.map planContent = ctx.plan.map planContent ∨
      GeneratedBy [call] [(executeToolCall registry task ctx call).1]
        (executeToolCall registry task ctx call).2.plan := by
  have hid := executeToolCall_toolUseId registry task ctx call
  revert hid
  rw [executeToolCall]
  cases registry.get call.name with
  | none => exact fun _ => Or.inl rfl
  | some tool =>
    rw [FollowsPlanTools, planTool] at htask
    cases hended : task.ended with
    | finished result =>
      simp only [hended] at htask ⊢
      intro hid
      by_cases hgenerate : call.name = "generate_plan".toList
      · simp only [if_pos hgenerate] at htask
        have hresult : result = (generatePlan error ctx call.input).1 := congrArg Prod.fst htask
        have hctx : task.ctx = (generatePlan error ctx call.input).2 := congrArg Prod.snd htask
        rcases generatePlan_content error ctx call.input with hsame | ⟨a, content, hargs, hok, hplan⟩
        · rw [hctx, hsame]
          exact Or.inl rfl
        · right
          refine ⟨call, List.mem_singleton_self _, hgenerate, ⟨_, List.mem_singleton_self _, hid, ?_⟩,
            a, hargs, ?_⟩
          · rw [hresult, hok]
            rfl
          · rw [hctx, hplan, Option.map_some]
      · rw [if_neg hgenerate] at htask
        split_ifs at htask with hupdate
        · left
          have hctx : task.ctx = (updateStepStatus error ctx call.input).2 := congrArg Prod.snd htask
          rw [hctx, updateStepStatus_content]
        · left
          simp only at htask
          rw [htask]
    | timedOut | crashed _ | withoutResult =>
      intro _
      left
      have hsame : task.ctx.plan = ctx.plan := by
        split_ifs at htask <;> simpa only [hended] using htask
      rw [← hsame]

theorem GeneratedBy.mono {calls calls' : List PendingToolCall} {results results' : List ToolResult}
    {plan plan' : Option PlanState} (h : GeneratedBy calls results plan) (hcalls : calls ⊆ calls')
    (hresults : results ⊆ results') (hplan : plan'.map planContent = plan.map planContent) :
    GeneratedBy calls' results' plan' := by
  obtain ⟨call, hcall, hname, ⟨r, hr, hresult⟩, a, hargs, hcontent⟩ := h
  exact ⟨call, hcalls hcall, hname, ⟨r, hresults hr, hresult⟩, a, hargs, hplan.trans hcontent⟩

/-- A batch keeps the content of the plan, or one of its calls has generated the plan. -/
theorem executeToolCalls_content (registry : ToolRegistry) {error : Json → Text}
    {tasks : BatchTasks} (htasks : ∀ i ctx call, FollowsPlanTools error ctx call (tasks i ctx call))
    (calls : List PendingToolCall) (position : ℕ) (ctx : ToolContext) :
    (executeToolCalls registry tasks position ctx calls).2.plan.map planContent =
        ctx.plan.map planContent ∨
      GeneratedBy calls (executeToolCalls registry tasks position ctx calls).1
        (executeToolCalls registry tasks position ctx calls).2.plan := by
  induction calls generalizing position ctx with
  | nil => exact Or.inl rfl
  | cons call calls ih =>
    simp only [executeToolCalls]
    have hfirst := executeToolCall_content registry (htasks position ctx call)
    rcases ih (position + 1) (executeToolCall registry (tasks position ctx call) ctx call).2 with
      hsame | hgenerated
    · rcases hfirst with hkept | hgenerated
      · exact Or.inl (hsame.trans hkept)
      · exact Or.inr (hgenerated.mono (by simp) (by simp) hsame)
    · exact Or.inr (hgenerated.mono (List.subset_cons_self _ _) (List.subset_cons_self _ _) rfl)

/-! What a run traces. -/

/-- An assertion about the checkpoint store, the messages that a run has added and the checkpointed
part of its history: every checkpoint is taken with a plan that the added messages account for. -/
structure Logs {σ : Type} (req : RunRequest σ) (base : List ChatMessage) (given : Option PlanState)
    (J : List ChatMessage → ℕ → σ → Prop) : Prop where
  grow : ∀ {added : List ChatMessage} (more : List ChatMessage) {cursor store},
    J added cursor store → J (added ++ more) cursor store
  skip : ∀ {added cursor store}, req.historyCheckpoint = none ∨ (base ++ added).drop cursor = [] →
    J added cursor store → J added (base ++ added).length store
  accept : ∀ {service}, req.historyCheckpoint = some service →
    ∀ {added cursor store} (state : HistoryCheckpointState), J added cursor store →
      (base ++ added).drop cursor ≠ [] → PlanFrom req.json given added state.plan →
      match service store ((base ++ added).drop cursor) state with
      | (.ok (), store') => J added (base ++ added).length store'
      | (.error _, store') => J added cursor store'

section
variable {σ : Type} {req : RunRequest σ} {base : List ChatMessage} {given : Option PlanState}
  {J : List ChatMessage → ℕ → σ → Prop} {α : Type} {Q : α → RunState σ → Prop}

/-- The run has added the messages; none of them is a prompt. -/
structure HistoryOf (req : RunRequest σ) (base : List ChatMessage) (given : Option PlanState)
    (J : List ChatMessage → ℕ → σ → Prop) (added : List ChatMessage) (s : RunState σ) : Prop where
  messages : s.session.messages = base ++ added
  noPrompt : ∀ m ∈ added, m.role ≠ .user
  plan : PlanFrom req.json given added s.session.plan
  logged : J added s.historyCheckpointCursor s.store

/-- Between two batches the shared plan is accounted for as well. -/
def Quiet (req : RunRequest σ) (base : List ChatMessage) (given : Option PlanState)
    (J : List ChatMessage → ℕ → σ → Prop) (s : RunState σ) : Prop :=
  s.progress.published.toolCalls = none ∧ ∃ added, HistoryOf req base given J added s ∧
    PlanFrom req.json given added s.ctx.plan

/-- A published batch, and what is known of the shared plan. -/
def Busy (req : RunRequest σ) (base : List ChatMessage) (given : Option PlanState)
    (J : List ChatMessage → ℕ → σ → Prop) (calls : List ToolCall)
    (shared : List ChatMessage → Option PlanState → Prop) (s : RunState σ) : Prop :=
  s.progress.published.toolCalls = some calls ∧ ∃ added, HistoryOf req base given J added s ∧
    shared added s.ctx.plan

/-- What a run leaves. -/
def Rest (req : RunRequest σ) (base : List ChatMessage) (given : Option PlanState)
    (J : List ChatMessage → ℕ → σ → Prop) (_ : RunOutcome) (s : RunState σ) : Prop :=
  ∃ added, HistoryOf req base given J added s

theorem HistoryOf.grow (hJ : Logs req base given J) {added more : List ChatMessage}
    {s s' : RunState σ} (h : HistoryOf req base given J added s)
    (hmessages : s'.session.messages = s.session.messages ++ more)
    (hmore : ∀ m ∈ more, m.role ≠ .user) (hplan : s'.session.plan = s.session.plan)
    (hcursor : s'.historyCheckpointCursor = s.historyCheckpointCursor)
    (hstore : s'.store = s.store) : HistoryOf req base given J (added ++ more) s' := by
  constructor
  · rw [hmessages, h.messages, List.append_assoc]
  · intro m hm
    rcases List.mem_append.mp hm with hm | hm
    · exact h.noPrompt m hm
    · exact hmore m hm
  · rw [hplan]
    exact h.plan.append more
  · rw [hcursor, hstore]
    exact hJ.grow more h.logged

theorem HistoryOf.of_core {added : List ChatMessage} {s s' : RunState σ} (hcore : s'.core = s.core)
    (h : HistoryOf req base given J added s) : HistoryOf req base given J added s' := by
  simp only [RunState.core, StateCore.mk.injEq] at hcore
  obtain ⟨hmessages, hplan, -, -, -, -, -, hstore, hcursor, -⟩ := hcore
  constructor
  · rw [hmessages, h.messages]
  · exact h.noPrompt
  · rw [hplan]
    exact h.plan
  · rw [hstore, hcursor]
    exact h.logged

theorem recordedMessages_role {p : PublishedTurn} {usage : Usage} {hidden : Bool} {m : ChatMessage}
    (h : m ∈ recordedMessages p usage hidden) : m.role = .assistant ∧ m.toolCalls = p.toolCalls := by
  simp only [recordedMessages, Option.mem_toList, Option.map_eq_some_iff] at h
  obtain ⟨m', hm', rfl⟩ := h
  have hne : p.isEmpty = false := by
    by_contra hempty
    rw [PublishedTurn.intoMessage, if_pos (by simpa using hempty)] at hm'
    cases hm'
  obtain ⟨m'', hm'', hrecords⟩ := intoMessage_records hne usage
  rw [hm''] at hm'
  obtain rfl := Option.some.inj hm'
  exact ⟨hrecords.role, hrecords.calls⟩

theorem recordPublished_messages (s : RunState σ) (hidden : Bool) :
    (s.recordPublished hidden).session.messages = s.session.messages ++
      recordedMessages s.progress.published s.progress.iterationUsage hidden :=
  congrArg Ledger.messages (ledger_recordPublished s hidden)

theorem recordPublished_rest (s : RunState σ) (hidden : Bool) :
    (s.recordPublished hidden).session.plan = s.session.plan ∧
      (s.recordPublished hidden).ctx = s.ctx ∧ (s.recordPublished hidden).store = s.store ∧
      (s.recordPublished hidden).historyCheckpointCursor = s.historyCheckpointCursor := by
  rw [RunState.recordPublished]
  cases s.progress.publishedMessage <;> exact ⟨rfl, rfl, rfl, rfl⟩

/-- Recording what was published keeps the trace. -/
theorem HistoryOf.record (hJ : Logs req base given J) {added : List ChatMessage} {s : RunState σ}
    (h : HistoryOf req base given J added s) (hidden : Bool) :
    HistoryOf req base given J (added ++
      recordedMessages s.progress.published s.progress.iterationUsage hidden)
        (s.recordPublished hidden) := by
  obtain ⟨hplan, -, hstore, hcursor⟩ := recordPublished_rest s hidden
  apply h.grow hJ (recordPublished_messages s hidden) _ hplan hcursor hstore
  intro m hm
  rw [(recordedMessages_role hm).1]
  exact Role.noConfusion

theorem quiet_steady (hJ : Logs req base given J) :
    Steady (Quiet req base given J) (Rest req base given J) where
  same := by
    rintro s s' hcore ⟨hcalls, added, hhistory, hshared⟩
    have hkept := hhistory.of_core hcore
    simp only [RunState.core, StateCore.mk.injEq] at hcore
    obtain ⟨-, -, hplan, hsame, -⟩ := hcore
    refine ⟨hsame.trans hcalls, added, hkept, ?_⟩
    rw [hplan]
    exact hshared
  quiet := fun hs => hs.1
  notice := by
    rintro s text - ⟨hcalls, added, hhistory, hshared⟩
    refine ⟨hcalls, added ++ [harnessNotice text], hhistory.grow hJ rfl ?_ rfl rfl rfl,
      hshared.append _⟩
    intro m hm
    rw [List.mem_singleton.mp hm]
    exact Role.noConfusion
  record := by
    rintro s hidden ⟨hcalls, added, hhistory, hshared⟩
    refine ⟨recordPublished_calls s hidden, _, hhistory.record hJ hidden, ?_⟩
    rw [(recordPublished_rest s hidden).2.1]
    exact hshared.append _
  leave := by
    rintro o s₀ s - - - ⟨-, added, hhistory, -⟩
    exact ⟨added, hhistory⟩

theorem HistoryOf.keep {added : List ChatMessage} {s s' : RunState σ}
    (h : HistoryOf req base given J added s) (hmessages : s'.session.messages = s.session.messages)
    (hplan : s'.session.plan = s.session.plan)
    (hcursor : s'.historyCheckpointCursor = s.historyCheckpointCursor)
    (hstore : s'.store = s.store) : HistoryOf req base given J added s' := by
  constructor
  · rw [hmessages, h.messages]
  · exact h.noPrompt
  · rw [hplan]
    exact h.plan
  · rw [hcursor, hstore]
    exact h.logged

/-! Batches. -/

variable {iter : IterationSetup} {calls : List ToolCall}
  {shared : List ChatMessage → Option PlanState → Prop}

/-- Several messages that are no prompts. -/
theorem HistoryOf.pushAll (hJ : Logs req base given J) {added : List ChatMessage} {s : RunState σ}
    (h : HistoryOf req base given J added s) {ms : List ChatMessage}
    (hms : ∀ m ∈ ms, m.role = .tool) :
    HistoryOf req base given J (added ++ ms) (ms.foldl RunState.push s) := by
  have hledger := ledger_foldl_push ms s
  have hplan := congrArg GateView.plan (pushAll_gateView ms hms s)
  apply h.grow hJ (congrArg Ledger.messages hledger) _ hplan (congrArg Ledger.cursor hledger)
    (congrArg Ledger.store hledger)
  intro m hm
  rw [hms m hm]
  exact Role.noConfusion

/-- A cancelled batch. -/
theorem cancel_busy (hJ : Logs req base given J) :
    Triple (Busy req base given J calls shared) (cancel : Run σ α) Q (Rest req base given J) := by
  apply Triple.readKeep
  intro s _
  apply Triple.seq (M := Rest req base given J { kind := .cancelled, finalText := [], usage := {}, iterations := 0 })
  · apply Triple.update
    rintro s ⟨hcalls, added, hhistory, -⟩
    have hcommit := (hhistory.record hJ false).pushAll hJ
      fun m (hm : m ∈ (s.progress.published.toolCalls.getD []).map cancelledResult) =>
        cancelledResult_role hm
    change HistoryOf req base given J _ s.commitCancelled at hcommit
    have hboundary : ∀ m ∈ [harnessNotice cancelledRequestBoundary], m.role ≠ .user := by
      intro m hm
      rw [List.mem_singleton.mp hm]
      exact Role.noConfusion
    unfold RunState.cancelled
    dsimp only
    split_ifs
    · exact ⟨_, hcommit.keep rfl rfl rfl rfl⟩
    · exact ⟨_, hcommit.grow hJ rfl hboundary rfl rfl rfl⟩
  · exact Triple.exit fun s hs => hs

theorem sendOrCancel_busy (hJ : Logs req base given J) (event : AgentEvent) :
    Triple (Busy req base given J calls shared) (sendOrCancel event)
      (fun _ => Busy req base given J calls shared) (Rest req base given J) := by
  apply Triple.bind (Q := fun _ => Busy req base given J calls shared)
  · apply Triple.updateGet
    rintro s ⟨hcalls, added, hhistory, hshared⟩
    exact ⟨hcalls, added, hhistory.keep rfl rfl rfl rfl, hshared⟩
  · intro accepted
    exact Triple.choose (fun _ => Triple.ret fun _ => id) fun _ => cancel_busy hJ

theorem selectOrCancel_busy (hJ : Logs req base given J) {ctx : ToolContext} :
    Triple (Busy req base given J calls shared) (selectOrCancel fun s => { s with ctx := ctx })
      (fun _ => Busy req base given J calls shared) (Rest req base given J) := by
  apply Triple.bind (Q := fun _ => Busy req base given J calls shared)
  · apply Triple.updateGet
    rintro s ⟨hcalls, added, hhistory, hshared⟩
    exact ⟨hcalls, added, hhistory.keep rfl rfl rfl rfl, hshared⟩
  · intro closed
    apply Triple.choose
    · intro _
      apply Triple.seq (M := Busy req base given J calls fun _ _ => True) _ (cancel_busy hJ)
      apply Triple.update
      rintro s ⟨hcalls, added, hhistory, -⟩
      exact ⟨hcalls, added, hhistory.keep rfl rfl rfl rfl, trivial⟩
    · exact fun _ => Triple.ret fun _ => id

theorem publishCalls_busy (hJ : Logs req base given J) (calls : List ToolCall) :
    Triple (Quiet req base given J) (publishCalls req calls)
      (fun _ => Busy req base given J calls (PlanFrom req.json given)) (Rest req base given J) := by
  apply Triple.seq (M := Quiet req base given J)
  · apply Triple.bind (Q := fun _ => Quiet req base given J)
    · apply Triple.updateGet
      rintro s ⟨hcalls, added, hhistory, hshared⟩
      exact ⟨hcalls, added, hhistory.keep rfl rfl rfl rfl, hshared⟩
    · intro accepted
      exact Triple.choose (fun _ => Triple.ret fun _ => id)
        fun _ => cancel_steady (quiet_steady hJ)
  · apply Triple.update
    rintro s ⟨-, added, hhistory, hshared⟩
    exact ⟨rfl, added, hhistory.keep rfl rfl rfl rfl, hshared⟩

/-- The shared plan behind a batch: accounted for, or generated by a call of the batch. -/
def Behind (req : RunRequest σ) (given : Option PlanState) (calls : List ToolCall)
    (results : List ToolResult) (added : List ChatMessage) (plan : Option PlanState) : Prop :=
  PlanFrom req.json given added plan ∨ GeneratedBy (calls.map (pendingCall req)) results plan

theorem batchResults_busy {error : Json → Text} (hJ : Logs req base given J)
    (htools : RunsPlanTools req error) (calls : List ToolCall) :
    Triple (Busy req base given J calls (PlanFrom req.json given)) (batchResults req iter calls)
      (fun results => Busy req base given J calls (Behind req given calls results))
      (Rest req base given J) := by
  rw [batchResults]
  cases rejectedBatch req.tools req.planMode iter.planStepUpdatesAllowed calls with
  | some results =>
    apply Triple.ret
    rintro s ⟨hcalls, added, hhistory, hshared⟩
    exact ⟨hcalls, added, hhistory, Or.inl hshared⟩
  | none =>
    apply Triple.seq (M := Busy req base given J calls (PlanFrom req.json given))
    · apply Triple.update
      rintro s ⟨hcalls, added, hhistory, hshared⟩
      exact ⟨hcalls, added, hhistory.keep rfl rfl rfl rfl, hshared⟩
    apply Triple.seq (selectOrCancel_busy hJ)
    apply Triple.updateGet
    rintro s ⟨hcalls, added, hhistory, hshared⟩
    refine ⟨hcalls, added, hhistory.keep rfl rfl rfl rfl, ?_⟩
    rcases executeToolCalls_content req.tools (htools iter.n) (calls.map (pendingCall req)) 0 s.ctx with
      hsame | hgenerated
    · exact Or.inl (hshared.of_content hsame)
    · exact Or.inr hgenerated

theorem GeneratedBy.supersede {pending : List PendingToolCall} {results : List ToolResult}
    {plan : Option PlanState} (h : GeneratedBy pending results plan) :
    GeneratedBy pending (supersedeAskResults calls results) plan := by
  obtain ⟨call, hcall, hname, ⟨r, hr, hid, hok⟩, hargs⟩ := h
  refine ⟨call, hcall, hname, ⟨_, List.mem_map_of_mem hr, ?_⟩, hargs⟩
  dsimp only
  split_ifs
  · exact ⟨hid, hok⟩
  · exact ⟨hid, hok⟩

theorem supersedeAsk_busy {E : RunOutcome → RunState σ → Prop} (results : List ToolResult) :
    Triple (Busy req base given J calls (Behind req given calls results))
      (supersedeAsk req calls results)
      (fun results => Busy req base given J calls (Behind req given calls results)) E := by
  apply Triple.readKeep
  intro s _
  apply Triple.choose
  · intro _
    apply Triple.seq (M := Busy req base given J calls (Behind req given calls results))
    · apply Triple.update
      rintro s ⟨hcalls, added, hhistory, hshared⟩
      exact ⟨hcalls, added, hhistory.keep rfl rfl rfl rfl, hshared⟩
    · apply Triple.ret
      rintro s ⟨hcalls, added, hhistory, hshared⟩
      exact ⟨hcalls, added, hhistory, hshared.imp_right GeneratedBy.supersede⟩
  · exact fun _ => Triple.ret fun _ => id

/-- The recorded message of a published batch shows its calls. -/
theorem exists_recorded {p : PublishedTurn} (usage : Usage) (hidden : Bool)
    (hcalls : p.toolCalls = some calls) (hne : calls ≠ []) :
    ∃ m ∈ recordedMessages p usage hidden, m.role = .assistant ∧ m.toolCalls = some calls := by
  have hempty : p.isEmpty = false := by
    rw [PublishedTurn.isEmpty, hcalls, Option.getD_some]
    simp [hne]
  obtain ⟨m, hm, -⟩ := intoMessage_records hempty usage
  have hmem : { m with harnessNotice := hidden } ∈ recordedMessages p usage hidden := by
    rw [recordedMessages, hm]
    exact List.mem_singleton_self _
  obtain ⟨hrole, hsame⟩ := recordedMessages_role hmem
  exact ⟨_, hmem, hrole, hsame.trans hcalls⟩

/-- The history holds what has generated the plan, once the batch is committed. -/
theorem GeneratedBy.planFrom {results : List ToolResult} {plan : Option PlanState}
    {added : List ChatMessage} {p : PublishedTurn} {usage : Usage} {hidden : Bool}
    (h : GeneratedBy (calls.map (pendingCall req)) results plan) (hcalls : p.toolCalls = some calls) :
    PlanFrom req.json given (added ++ recordedMessages p usage hidden ++
      results.map (resultMessage calls)) plan := by
  obtain ⟨pending, hpending, hname, ⟨r, hr, hid, hok⟩, a, hargs, hcontent⟩ := h
  obtain ⟨call, hcall, rfl⟩ := List.mem_map.mp hpending
  obtain ⟨q, rfl, hq⟩ := Option.map_eq_some_iff.mp hcontent
  obtain ⟨m, hm, hrole, hsame⟩ :=
    exists_recorded usage hidden hcalls (List.ne_nil_of_mem hcall)
  refine Or.inr ⟨q, rfl, m, ?_, hrole, call, ?_, hname, ⟨resultMessage calls r, ?_, rfl, ?_, ?_⟩,
    a, hargs, hq⟩
  · exact List.mem_append_left _ (List.mem_append_right _ hm)
  · rw [hsame]
    exact hcall
  · exact List.mem_append_right _ (List.mem_map_of_mem hr)
  · exact congrArg some hid
  · exact congrArg some hok

theorem commitResults_quiet (hJ : Logs req base given J) {results : List ToolResult}
    {s : RunState σ} (h : Busy req base given J calls (Behind req given calls results) s) :
    Quiet req base given J (s.commitResults calls results) := by
  obtain ⟨hcalls, added, hhistory, hshared⟩ := h
  have hcommit := (hhistory.record hJ false).pushAll hJ
    fun m (hm : m ∈ results.map (resultMessage calls)) => resultMessage_role hm
  refine ⟨?_, _, hcommit, ?_⟩
  · rw [RunState.commitResults, pushAll_calls]
    exact recordPublished_calls s false
  · have hctx : (s.commitResults calls results).ctx.plan = s.ctx.plan := by
      have h := congrArg GateView.sharedPlan (pushAll_gateView (results.map (resultMessage calls))
        (fun m => resultMessage_role) s.commitPublished)
      exact h.trans (congrArg ToolContext.plan (recordPublished_rest s false).2.1)
    rw [hctx]
    rcases hshared with hplan | hgenerated
    · exact (hplan.append _).append _
    · exact hgenerated.planFrom hcalls

theorem runBatch_quiet {error : Json → Text} (hJ : Logs req base given J)
    (htools : RunsPlanTools req error) (calls : List ToolCall) :
    Triple (Quiet req base given J) (runBatch req iter calls)
      (fun _ => Quiet req base given J) (Rest req base given J) := by
  apply Triple.seq (publishCalls_busy hJ calls)
  apply Triple.bind (batchResults_busy hJ htools calls)
  intro results
  apply Triple.bind (supersedeAsk_busy results)
  intro results
  apply Triple.seq (sendOrCancel_busy hJ _)
  apply Triple.seq (Triple.update fun s hs => commitResults_quiet hJ hs)
  exact Triple.ret fun _ => id

/-! The gates. -/

variable {setup : RunSetup}

/-- Steps that touch none of what a trace depends on. -/
theorem Quiet.keep {s s' : RunState σ} (h : Quiet req base given J s)
    (hcalls : s'.progress.published.toolCalls = s.progress.published.toolCalls)
    (hmessages : s'.session.messages = s.session.messages)
    (hplan : s'.session.plan = s.session.plan) (hshared : s'.ctx.plan = s.ctx.plan)
    (hcursor : s'.historyCheckpointCursor = s.historyCheckpointCursor)
    (hstore : s'.store = s.store) : Quiet req base given J s' := by
  obtain ⟨hquiet, added, hhistory, hplanFrom⟩ := h
  refine ⟨hcalls.trans hquiet, added, hhistory.keep hmessages hplan hcursor hstore, ?_⟩
  rw [hshared]
  exact hplanFrom

/-- The session takes over a plan that the history accounts for. -/
theorem Quiet.setPlan {s : RunState σ} {plan : Option PlanState} (h : Quiet req base given J s)
    (hplan : ∀ added, HistoryOf req base given J added s → PlanFrom req.json given added s.ctx.plan →
      PlanFrom req.json given added plan) : Quiet req base given J (s.setPlan plan) := by
  obtain ⟨hcalls, added, hhistory, hshared⟩ := h
  exact ⟨hcalls, added, ⟨hhistory.messages, hhistory.noPrompt, hplan added hhistory hshared,
    hhistory.logged⟩, hshared⟩

theorem Quiet.setShared {s : RunState σ} (h : Quiet req base given J s) :
    Quiet req base given J (s.setPlan s.ctx.plan) :=
  h.setPlan fun _ _ hshared => hshared

/-- The state behind an attempt to store the history; an accepted one moves the cursor. -/
def QuietBehind (req : RunRequest σ) (base : List ChatMessage) (given : Option PlanState)
    (J : List ChatMessage → ℕ → σ → Prop) : Except Text Unit → RunState σ → Prop
  | .ok () => fun s =>
    Quiet req base given J { s with historyCheckpointCursor := s.session.messages.length }
  | .error _ => Quiet req base given J

theorem checkpointBatch_quiet (hJ : Logs req base given J) :
    Triple (Quiet req base given J) (checkpointBatch req) (fun _ => Quiet req base given J)
      (Rest req base given J) := by
  have hsteady := quiet_steady hJ
  apply Triple.bind (Q := QuietBehind req base given J)
  · apply Triple.updateGet
    rintro s ⟨hcalls, added, hhistory, hshared⟩
    have hset : ∀ store cursor, J added cursor store →
        Quiet req base given J { s with store := store, historyCheckpointCursor := cursor } :=
      fun store cursor hlogged => ⟨hcalls, added,
        ⟨hhistory.messages, hhistory.noPrompt, hhistory.plan, hlogged⟩, hshared⟩
    have hlength : s.session.messages.length = (base ++ added).length := by rw [hhistory.messages]
    cases hservice : req.historyCheckpoint with
    | none =>
      simp only [QuietBehind, hlength]
      exact hset s.store _ (hJ.skip (Or.inl hservice) hhistory.logged)
    | some service =>
      simp only [hhistory.messages]
      by_cases hnil : (base ++ added).drop s.historyCheckpointCursor = []
      · rw [hnil]
        simp only [List.isEmpty_nil, if_true, QuietBehind, hlength]
        exact hset s.store _ (hJ.skip (Or.inr hnil) hhistory.logged)
      · have hne : ((base ++ added).drop s.historyCheckpointCursor).isEmpty = false := by
          simpa using hnil
        have haccept := hJ.accept hservice (checkpointState req s) hhistory.logged hnil hhistory.plan
        simp only [hne, Bool.false_eq_true, if_false]
        rcases hresult : service s.store ((base ++ added).drop s.historyCheckpointCursor)
          (checkpointState req s) with ⟨_ | _, store'⟩
        · rw [hresult] at haccept
          exact hset store' _ haccept
        · rw [hresult] at haccept
          simp only [QuietBehind, hlength]
          exact hset store' _ haccept
  · intro result
    cases result with
    | error e => exact fail_steady hsteady _
    | ok _ => exact Triple.update fun s hs => hs

theorem pushNotice_quiet (hJ : Logs req base given J) {E : RunOutcome → RunState σ → Prop}
    (text : Text) :
    Triple (Quiet req base given J) (pushNotice text) (fun _ => Quiet req base given J) E := by
  apply Triple.update
  rintro s ⟨hcalls, added, hhistory, hshared⟩
  refine ⟨hcalls, added ++ [harnessNotice text], hhistory.grow hJ rfl ?_ rfl rfl rfl,
    hshared.append _⟩
  intro m hm
  rw [List.mem_singleton.mp hm]
  exact Role.noConfusion

theorem updateGates_quiet {E : RunOutcome → RunState σ → Prop} (f : GateState → GateState) :
    Triple (Quiet req base given J) (modify fun s => s.updateGates f)
      (fun _ => Quiet req base given J) E :=
  Triple.update fun _ hs => hs.keep rfl rfl rfl rfl rfl rfl

theorem recordPlanDenial_quiet (hJ : Logs req base given J) :
    Triple (Quiet req base given J) (recordPlanDenial setup iter)
      (fun _ => Quiet req base given J) (Rest req base given J) := by
  apply Triple.seq (updateGates_quiet _)
  apply Triple.readKeep
  intro s _
  apply Triple.choose
  · exact fun _ => fail_steady (quiet_steady hJ) _
  · intro _
    exact Triple.choose (fun _ => fail_steady (quiet_steady hJ) _) fun _ => Triple.ret fun _ => id

theorem emptyResponse_quiet (hJ : Logs req base given J) :
    Triple (Quiet req base given J) (emptyResponse req setup iter)
      (fun _ => Quiet req base given J) (Rest req base given J) := by
  have hsteady := quiet_steady hJ
  apply Triple.seq (updateGates_quiet _)
  apply Triple.readKeep
  intro s _
  apply Triple.seq (Triple.optional fun _ => recordPlanDenial_quiet hJ)
  apply Triple.seq (Triple.optional fun _ => fail_steady hsteady _)
  apply Triple.seq (Triple.optional fun _ => fail_steady hsteady _)
  exact Triple.seq (commit_steady hsteady) (pushNotice_quiet hJ _)

theorem denyMissingPlan_quiet (hJ : Logs req base given J) :
    Triple (Quiet req base given J) (denyMissingPlan setup iter)
      (fun _ => Quiet req base given J) (Rest req base given J) :=
  Triple.seq (recordPlanDenial_quiet hJ)
    (Triple.seq (commit_steady (quiet_steady hJ)) (pushNotice_quiet hJ _))

/-- The shared plan is known. -/
def Known (req : RunRequest σ) (base : List ChatMessage) (given : Option PlanState)
    (J : List ChatMessage → ℕ → σ → Prop) (plan : Option PlanState) (s : RunState σ) : Prop :=
  s.ctx.plan = plan ∧ Quiet req base given J s

theorem known_steady (hJ : Logs req base given J) (plan : Option PlanState) :
    Steady (Known req base given J plan) (Rest req base given J) where
  same := by
    rintro s s' hcore ⟨hplan, hquiet⟩
    refine ⟨?_, (quiet_steady hJ).same hcore hquiet⟩
    rw [← hplan]
    exact congrArg StateCore.sharedPlan hcore
  quiet := fun hs => hs.2.1
  notice := fun htext hs => ⟨hs.1, (quiet_steady hJ).notice htext hs.2⟩
  record := by
    rintro s hidden ⟨hplan, hquiet⟩
    refine ⟨?_, (quiet_steady hJ).record hidden hquiet⟩
    rw [(recordPublished_rest s hidden).2.1]
    exact hplan
  leave := fun ho h₀ husage hs => (quiet_steady hJ).leave ho h₀.2 husage hs.2

/-- An unfinished plan is replaced by an approved shared plan or by the plan of the run. -/
theorem planIncomplete_quiet (hJ : Logs req base given J) (plan : Option PlanState)
    (hinitial : setup.initialApprovedPlan = given) :
    Triple (Known req base given J plan) (planIncomplete setup iter plan)
      (fun _ => Quiet req base given J) (Rest req base given J) := by
  have hsteady := known_steady hJ plan
  refine Triple.seq (update_steady hsteady fun _ => rfl) ?_
  apply Triple.seq (Triple.optional fun _ => fail_steady hsteady _)
  apply Triple.seq (hideDraft_steady hsteady _)
  apply Triple.readKeep
  intro s _
  apply Triple.choose
  · intro _
    exact (pushNotice_steady hsteady (planIncompleteNotice_ne _)).post fun _ _ hs => hs.2
  · intro _
    apply Triple.seq (pushNotice_steady hsteady planPausedNotice_ne)
    apply Triple.seq (publishPlan_steady hsteady _)
    apply completeWith_steady hsteady
    rintro s ⟨hplan, hquiet⟩
    have hset : Quiet req base given J
        (s.setPlan ((plan.filter PlanState.approved).or setup.initialApprovedPlan)) := by
      apply hquiet.setPlan
      intro added _ hshared
      rw [hplan] at hshared
      cases hcurrent : plan.filter PlanState.approved with
      | none =>
        rw [Option.none_or, hinitial]
        exact Or.inl rfl
      | some p =>
        rw [Option.some_or]
        obtain ⟨rfl, -⟩ := Option.filter_eq_some_iff.mp hcurrent
        exact hshared
    obtain ⟨-, added, hhistory, -⟩ := (quiet_steady hJ).setStatus hset .awaitingPlanExecution
    exact ⟨added, hhistory⟩

theorem completeNaturally_quiet (hJ : Logs req base given J) :
    Triple (Quiet req base given J) (completeNaturally iter) (fun _ => Quiet req base given J)
      (Rest req base given J) := by
  apply Triple.seq (closedOrCancel_steady (quiet_steady hJ))
  apply Triple.read
  intro s hs
  have hsteady := known_steady hJ s.ctx.plan
  apply Triple.pre (P := Known req base given J s.ctx.plan)
  · apply Triple.seq (publishPlan_steady hsteady _)
    apply completeWith_steady hsteady
    intro s' hs'
    obtain ⟨hplan, hquiet⟩ := hsteady.record false hs'
    have hset : Quiet req base given J (s'.commitPublished.setPlan s.ctx.plan) := by
      rw [← hplan]
      exact hquiet.setShared
    obtain ⟨-, added, hhistory, -⟩ := hset
    exact ⟨added, hhistory.keep rfl rfl rfl rfl⟩
  · rintro _ rfl
    exact ⟨rfl, hs⟩

theorem terminalBarrier_quiet (hJ : Logs req base given J) :
    Triple (Quiet req base given J) (terminalBarrier req setup iter)
      (fun _ => Quiet req base given J) (Rest req base given J) := by
  have hsteady := quiet_steady hJ
  apply Triple.seq (closedOrCancel_steady hsteady)
  apply Triple.readKeep
  intro s _
  cases (req.turns iter.n).verdict with
  | none => exact Triple.choose (fun _ => fail_steady hsteady _) fun _ => completeNaturally_quiet hJ
  | some verdict =>
    exact Triple.choose (fun _ => completeNaturally_quiet hJ) fun _ => veto_steady hsteady verdict

theorem reviewAnswer_quiet (hJ : Logs req base given J) :
    Triple (Quiet req base given J) (reviewAnswer req setup iter)
      (fun _ => Quiet req base given J) (Rest req base given J) := by
  have hsteady := quiet_steady hJ
  refine Triple.seq (update_steady hsteady fun _ => rfl) ?_
  apply Triple.readKeep
  intro s _
  cases s.artifactRepairTraceStart with
  | none => exact terminalBarrier_quiet hJ
  | some traceStart =>
    exact Triple.choose (fun _ => terminalBarrier_quiet hJ)
      fun _ => repairIncomplete_steady hsteady _

theorem finishPlan_quiet (hJ : Logs req base given J)
    (hinitial : setup.initialApprovedPlan.isSome = true → setup.initialApprovedPlan = given) :
    Triple (Quiet req base given J) (finishPlan req setup iter)
      (fun _ => Quiet req base given J) (Rest req base given J) := by
  apply Triple.choose
  · intro hplan
    apply Triple.seq (closedOrCancel_steady (quiet_steady hJ))
    apply Triple.read
    intro s hs
    apply Triple.pre (P := Known req base given J s.ctx.plan)
    · apply Triple.choose
      · exact fun _ => (reviewAnswer_quiet hJ).pre fun _ h => h.2
      · exact fun _ => planIncomplete_quiet hJ s.ctx.plan (hinitial hplan)
    · rintro _ rfl
      exact ⟨rfl, hs⟩
  · exact fun _ => reviewAnswer_quiet hJ

theorem naturalPath_quiet (hJ : Logs req base given J)
    (hinitial : setup.initialApprovedPlan.isSome = true → setup.initialApprovedPlan = given) :
    Triple (Quiet req base given J) (naturalPath req setup iter)
      (fun _ => Quiet req base given J) (Rest req base given J) := by
  apply Triple.readKeep
  intro s _
  apply Triple.choose (fun _ => emptyResponse_quiet hJ)
  intro _
  apply Triple.seq (updateGates_quiet _)
  exact Triple.choose (fun _ => denyMissingPlan_quiet hJ) fun _ => finishPlan_quiet hJ hinitial

theorem toolPath_quiet {error : Json → Text} (hJ : Logs req base given J)
    (htools : RunsPlanTools req error) (calls : List ToolCall) :
    Triple (Quiet req base given J) (toolPath req setup iter calls)
      (fun _ => Quiet req base given J) (Rest req base given J) := by
  have hsteady := quiet_steady hJ
  apply Triple.readKeep
  intro s _
  apply Triple.bind (runBatch_quiet hJ htools calls)
  intro results
  apply Triple.seq (M := Quiet req base given J)
  · apply Triple.update
    intro s hs
    split_ifs
    · exact hs.setShared
    · exact hs
  apply Triple.seq (checkpointBatch_quiet hJ)
  apply Triple.seq (noteToolErrors_steady hsteady results)
  apply Triple.bind (publishPlanChange_steady hsteady _)
  intro published
  apply Triple.seq (update_steady hsteady fun s => by split_ifs <;> rfl)
  apply Triple.seq (awaitPlanApproval_steady hsteady published)
  apply Triple.seq (awaitUserResponse_steady hsteady)
  apply Triple.readKeep
  intro s _
  apply Triple.choose
  · exact fun _ => Triple.seq (recordPlanDenial_quiet hJ) (pushNotice_quiet hJ _)
  · exact fun _ => retrievalBreaker_steady hsteady calls

/-! The loop and the run. -/

theorem iteration_quiet {error : Json → Text} (hJ : Logs req base given J)
    (htools : RunsPlanTools req error)
    (hinitial : setup.initialApprovedPlan.isSome = true → setup.initialApprovedPlan = given) :
    Triple (Quiet req base given J) (iteration req setup) (fun _ => Quiet req base given J)
      (Rest req base given J) := by
  have hsteady := quiet_steady hJ
  apply Triple.bind (Q := fun _ => Quiet req base given J)
  · apply Triple.seq (Triple.update fun _ hs => hs.keep rfl rfl rfl rfl rfl rfl)
    apply Triple.readKeep
    intro s _
    apply Triple.seq (sendOrCancel_steady hsteady fun _ => rfl)
    exact Triple.readKeep fun _ _ => Triple.ret fun _ => id
  intro iter
  apply Triple.bind (streamTurn_steady hsteady fun _ _ hs => hs.keep rfl rfl rfl rfl rfl rfl)
  intro l
  apply Triple.bind (settleStream_steady hsteady l)
  intro turn
  apply Triple.assume
  intro _
  apply Triple.choose (fun _ => lengthFinish_steady hsteady)
  intro _
  apply Triple.seq (updateGates_quiet _)
  exact Triple.choose (fun _ => naturalPath_quiet hJ hinitial) fun _ => toolPath_quiet hJ htools _

/-- The loop keeps the trace, by induction on the iterations left. -/
theorem agentLoop_quiet {error : Json → Text} (hJ : Logs req base given J)
    (htools : RunsPlanTools req error)
    (hinitial : setup.initialApprovedPlan.isSome = true → setup.initialApprovedPlan = given)
    (remaining : ℕ) :
    Triple (Quiet req base given J) (agentLoop req setup remaining) (fun _ _ => False)
      (Rest req base given J) := by
  induction remaining with
  | zero =>
    apply Triple.readKeep
    intro s _
    apply completeWith_steady (quiet_steady hJ)
    rintro s ⟨-, added, hhistory, -⟩
    exact ⟨added, hhistory.keep rfl rfl rfl rfl⟩
  | succ remaining ih => exact Triple.seq (iteration_quiet hJ htools hinitial) ih

end

/-- Behind a run that was accepted, the history has the prompt, and behind it messages that are no
prompts and account for the plan of the session. A refused run changes neither. -/
theorem run_planFrom {σ : Type} {req : RunRequest σ} {error : Json → Text}
    (htools : RunsPlanTools req error) {session : Session} {ctx : ToolContext} {tx : Channel}
    {store : σ} {J : List ChatMessage → ℕ → σ → Prop}
    (hJ : Logs req (session.messages ++ [ChatMessage.ofUser req.prompt]) ctx.plan J)
    (hplan : session.plan = ctx.plan) (hstart : J [] session.messages.length store) :
    ((run req session ctx tx store).2.session.messages = session.messages ∧
        (run req session ctx tx store).2.session.plan = session.plan ∧
        (run req session ctx tx store).2.store = store) ∨
      ∃ added, HistoryOf req (session.messages ++ [ChatMessage.ofUser req.prompt]) ctx.plan J added
        (run req session ctx tx store).2 := by
  rcases hrefused : startRun req session ctx tx store with ⟨accepted, s⟩
  cases accepted with
  | false =>
    left
    obtain ⟨-, hkept, hmessages⟩ := gateView_of_refused hrefused
    obtain ⟨-, -, -, -, -, -, hstore⟩ := startRun_refused hrefused
    rw [run_of_refused hrefused]
    exact ⟨hmessages, hkept, hstore⟩
  | true =>
    right
    obtain ⟨-, hidle, hkept, hshared, -⟩ := gateView_of_accepted hrefused
    obtain ⟨-, -, -, -, hmessages, -, hstore, hcursor⟩ := startRun_accepted hrefused
    have hquiet : Quiet req (session.messages ++ [ChatMessage.ofUser req.prompt]) ctx.plan J s := by
      refine ⟨hidle.2, [], ⟨by rw [hmessages, List.append_nil], fun m hm => absurd hm List.not_mem_nil,
        Or.inl ?_, ?_⟩, Or.inl ?_⟩
      · rw [← hplan]
        exact congrArg _ hkept
      · rw [hcursor, hstore]
        exact hstart
      · exact congrArg _ hshared
    have hinitial : (runSetup req session ctx).initialApprovedPlan.isSome = true →
        (runSetup req session ctx).initialApprovedPlan = ctx.plan := by
      intro hsome
      obtain ⟨p, hp⟩ := Option.isSome_iff_exists.mp hsome
      obtain ⟨hctx, -⟩ := Option.filter_eq_some_iff.mp (show ctx.plan.filter _ = some p from hp)
      rw [hp, hctx]
    have hend := agentLoop_quiet hJ htools hinitial (runSetup req session ctx).iterationLimit s hquiet
    rw [run_state_of_accepted hrefused]
    rcases houtcome : outcome (agentLoop req (runSetup req session ctx)
      (runSetup req session ctx).iterationLimit) s with ⟨o | _, s'⟩
    · rw [houtcome] at hend
      exact hend
    · rw [houtcome] at hend
      exact hend.elim

end DeepseekScience.Agent
