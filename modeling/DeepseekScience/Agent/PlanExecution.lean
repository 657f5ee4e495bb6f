import DeepseekScience.Tools.Plan
import DeepseekScience.Agent.Capability

/-! The execution of an approved plan: which plan a run is given, what its tools make of it, and
which plan the session keeps however the run ends. -/
namespace DeepseekScience.Agent

open Tools Dsml Exits

def planRequiresExecution (plan : PlanState) : Bool :=
  plan.approved && plan.steps.any fun step => step.status != "done".toList

inductive RunPlanError where
  | conflictingModes | noExecutablePlan
  deriving DecidableEq, Repr

/-- The only plan snapshot that a run is authorized to see. -/
def selectRunPlan (current : Option PlanState) (planMode executePlan : Bool) :
    Except RunPlanError (Option PlanState) :=
  if planMode && executePlan then .error .conflictingModes
  else if !executePlan then .ok none
  else
    match current.filter planRequiresExecution with
    | some plan => .ok (some plan)
    | none => .error .noExecutablePlan

/-- A run that executes a plan is given the approved plan of its session. -/
theorem selectRunPlan_execute {current : Option PlanState} {planMode : Bool} {p : PlanState}
    (h : selectRunPlan current planMode true = .ok (some p)) :
    planMode = false ∧ current = some p ∧ planRequiresExecution p = true := by
  unfold selectRunPlan at h
  cases planMode with
  | true => simp at h
  | false =>
    simp only [Bool.false_and, Bool.false_eq_true, if_false, Bool.not_true] at h
    cases hcurrent : current.filter planRequiresExecution with
    | none =>
      rw [hcurrent] at h
      cases h
    | some plan =>
      rw [hcurrent] at h
      obtain rfl := Option.some.inj (Except.ok.inj h)
      exact ⟨rfl, Option.filter_eq_some_iff.mp hcurrent⟩

/-! The three tests for a finished plan. -/

/-- A status that spells `done` in any case is `done` itself. -/
def SpellsDone (status : Text) : Prop :=
  eqIgnoreAsciiCase status "done".toList = true → status = "done".toList

def TestsAgree (p : PlanState) : Prop :=
  (approvedPlanIsComplete (some p) = true ↔ ¬ planRequiresExecution p = true) ∧
    (planRequiresExecution p = true ↔ hasUpdatableApprovedPlan (some p) = true)

theorem planRequiresExecution_eq_false {p : PlanState} (happroved : p.approved = true) :
    ¬ planRequiresExecution p = true ↔ ∀ step ∈ p.steps, step.status = "done".toList := by
  rw [planRequiresExecution, happroved, Bool.true_and, List.any_eq_true]
  simp only [bne_iff_ne, not_exists, not_and, not_not]

theorem approvedPlanIsComplete_iff {p : PlanState} (happroved : p.approved = true)
    (hne : p.steps ≠ []) : approvedPlanIsComplete (some p) = true ↔
      ∀ step ∈ p.steps, eqIgnoreAsciiCase step.status "done".toList = true := by
  simp only [approvedPlanIsComplete, Option.any_some, happroved, Bool.true_and, Bool.and_eq_true,
    List.all_eq_true, Bool.not_eq_true', List.isEmpty_eq_false_iff, ne_eq, hne, not_false_eq_true,
    true_and]

/-- The tests disagree exactly when all steps are done up to the case of their spelling. -/
theorem testsAgree_iff {p : PlanState} (happroved : p.approved = true) (hne : p.steps ≠ []) :
    TestsAgree p ↔ ((∀ step ∈ p.steps, eqIgnoreAsciiCase step.status "done".toList = true) →
      ∀ step ∈ p.steps, step.status = "done".toList) := by
  have hdone : (∀ step ∈ p.steps, step.status = "done".toList) →
      ∀ step ∈ p.steps, eqIgnoreAsciiCase step.status "done".toList = true := by
    intro h step hstep
    rw [h step hstep]
    decide
  rw [TestsAgree, approvedPlanIsComplete_iff happroved hne, planRequiresExecution_eq_false happroved]
  refine ⟨fun h => h.1.mp, fun h => ⟨⟨h, hdone⟩, ?_⟩⟩
  rfl

section
variable {σ : Type} {req : RunRequest σ} {setup : RunSetup} {iter : IterationSetup}
  {calls : List ToolCall} {c c' : GateView} {p₀ : PlanState} {error : Json → Text}

/-! What the client has received of the plan. -/

/-- The client has received the results of a batch that the router has executed. -/
def Received (c : GateView) (batch : List PendingToolCall) (results : List ToolResult) : Prop :=
  batch ∈ c.routed ∧ ⟨.toolResults results, true⟩ ∈ c.exchanged ∧
    results.map ToolResult.toolUseId = batch.map PendingToolCall.id

/-- An update of the plan whose successful result the client has received. -/
def DeliveredUpdate (p₀ : PlanState) (c : GateView) (a : UpdateStepArgs) : Prop :=
  ∃ batch results, Received c batch results ∧
    ∃ call r, (call, r) ∈ batch.zip results ∧ Sets p₀.steps.length call r a

/-- Among the batches that the client has received, no call replaces the plan, and no update
spells `done` otherwise than the tests for a finished plan do. -/
def KeepsPlan (p₀ : PlanState) (c : GateView) : Prop :=
  ∀ batch results, Received c batch results → (∀ call ∈ batch, replacesPlan call = false) ∧
    ∀ call r, (call, r) ∈ batch.zip results → ∀ a, Sets p₀.steps.length call r a →
      SpellsDone a.status

/-- The exchange of a run only grows. -/
def Grows (c c' : GateView) : Prop :=
  c.routed ⊆ c'.routed ∧ c.exchanged ⊆ c'.exchanged

theorem Received.mono (hgrows : Grows c c') {batch : List PendingToolCall}
    {results : List ToolResult} (h : Received c batch results) : Received c' batch results :=
  ⟨hgrows.1 h.1, hgrows.2 h.2.1, h.2.2⟩

theorem DeliveredUpdate.mono (hgrows : Grows c c') {a : UpdateStepArgs}
    (h : DeliveredUpdate p₀ c a) : DeliveredUpdate p₀ c' a := by
  obtain ⟨batch, results, hreceived, hset⟩ := h
  exact ⟨batch, results, hreceived.mono hgrows, hset⟩

theorem KeepsPlan.mono (hgrows : Grows c c') (h : KeepsPlan p₀ c') : KeepsPlan p₀ c :=
  fun batch results hreceived => h batch results (hreceived.mono hgrows)

/-- A snapshot of the approved plan, with delivered updates only. -/
def Snapshot (p₀ : PlanState) (c : GateView) (plan : Option PlanState) : Prop :=
  ∃ p, plan = some p ∧ SamePlan (DeliveredUpdate p₀ c) p₀ p

theorem Snapshot.mono {plan : Option PlanState} (hgrows : Grows c c') (h : Snapshot p₀ c plan) :
    Snapshot p₀ c' plan := by
  obtain ⟨p, hp, hsame⟩ := h
  exact ⟨p, hp, hsame.mono fun _ => DeliveredUpdate.mono hgrows⟩

theorem Obtained.grows {results : List ToolResult} (h : Obtained req iter calls c results c') :
    Grows c c' := by
  cases h with
  | rejected _ _ => exact ⟨List.Subset.refl _, List.Subset.refl _⟩
  | executed _ _ _ _ => exact ⟨List.subset_append_left _ _, List.Subset.refl _⟩

theorem grows_exchange (c : GateView) (d : List Delivery) (ms : List ChatMessage) :
    Grows c ((c.exchange d).answer ms) :=
  ⟨List.Subset.refl _, List.subset_append_left _ _⟩

theorem Grows.trans {c'' : GateView} (h : Grows c c') (h' : Grows c' c'') : Grows c c'' :=
  ⟨List.Subset.trans h.1 h'.1, List.Subset.trans h.2 h'.2⟩

theorem Interrupted.kept (h : Interrupted req iter calls c c') : Grows c c' ∧ c'.plan = c.plan := by
  cases h with
  | refused => exact ⟨⟨List.Subset.refl _, List.subset_append_left _ _⟩, rfl⟩
  | closed _ _ =>
    exact ⟨⟨List.subset_append_left _ _, List.subset_append_left _ _⟩, rfl⟩
  | unanswered hobtained =>
    refine ⟨hobtained.grows.trans (grows_exchange _ _ _), ?_⟩
    cases hobtained <;> rfl

/-- The tools of a request run the plan tools. -/
def RunsPlanTools (req : RunRequest σ) (error : Json → Text) : Prop :=
  ∀ n i ctx call, FollowsPlanTools error ctx call ((req.turns n).tasks i ctx call)

/-- An answered batch that keeps the plan leaves a snapshot of it. -/
theorem Answered.snapshot {results : List ToolResult} (hmode : req.planMode = false)
    (htools : RunsPlanTools req error) (h : Answered req iter calls c results c')
    (hkeeps : KeepsPlan p₀ c') (hshared : Snapshot p₀ c c.sharedPlan) :
    Grows c c' ∧ c'.plan = c.plan ∧ Snapshot p₀ c' c'.sharedPlan := by
  obtain ⟨hobtained⟩ := h
  have hgrows := hobtained.grows.trans (grows_exchange _
    [callsDelivery req calls true, resultsDelivery results true]
    (results.map (resultMessage calls)))
  cases hobtained with
  | rejected _ _ => exact ⟨hgrows, rfl, hshared.mono hgrows⟩
  | executed _ ctx hctx hresults =>
    refine ⟨hgrows, rfl, ?_⟩
    obtain ⟨p, hp, hsame⟩ := hshared
    obtain rfl := hresults hmode
    have hids := executeToolCalls_toolUseIds req.tools (req.turns iter.n).tasks
      (calls.map (pendingCall req)) 0 ctx
    have hreceived := hkeeps (calls.map (pendingCall req)) _
      ⟨List.mem_append_right _ (List.mem_singleton_self _),
        List.mem_append_right _ (List.mem_cons_of_mem _ (List.mem_singleton_self _)), hids⟩
    obtain ⟨q, hq, hpq⟩ := executeToolCalls_samePlan req.tools (htools iter.n)
      hreceived.1 0 (hctx.trans hp)
    refine ⟨q, hq, (hsame.mono fun _ => DeliveredUpdate.mono hgrows).trans (hpq.mono ?_)⟩
    rintro a ⟨call, r, hmem, hsets⟩
    rw [hsame.length] at hsets
    exact ⟨_, _, ⟨List.mem_append_right _ (List.mem_singleton_self _),
      List.mem_append_right _ (List.mem_cons_of_mem _ (List.mem_singleton_self _)), hids⟩,
      call, r, hmem, hsets⟩

/-- Both copies of the plan are snapshots of the approved one. -/
def PlanHeld (p₀ : PlanState) (c : GateView) : Prop :=
  KeepsPlan p₀ c → Snapshot p₀ c c.plan ∧ Snapshot p₀ c c.sharedPlan

/-- What a run leaves of its plan. -/
def PlanLeft (p₀ : PlanState) (o : RunOutcome) (c : GateView) : Prop :=
  KeepsPlan p₀ c → Snapshot p₀ c c.plan ∧
    (o.kind = .natural → approvedPlanIsComplete c.plan = true)

theorem plan_rule (hmode : req.planMode = false) (htools : RunsPlanTools req error)
    (happroved : p₀.approved = true) (hinitial : setup.initialApprovedPlan.isSome = true) :
    LoopRule req setup (PlanHeld p₀) (PlanLeft p₀) where
  batch := by
    intro c c' k hheld hbatch
    cases hbatch with
    | quiet => exact hheld
    | @answered calls results c'' _ h =>
      intro hkeeps
      have hkeeps' : KeepsPlan p₀ c'' := hkeeps
      have hgrows : Grows c c'' := by
        obtain ⟨hobtained⟩ := h
        exact hobtained.grows.trans (grows_exchange _ _ _)
      obtain ⟨hplan, hshared⟩ := hheld (hkeeps'.mono hgrows)
      obtain ⟨-, hsame, hshared'⟩ := h.snapshot hmode htools hkeeps' hshared
      refine ⟨?_, hshared'⟩
      unfold commitPlan
      dsimp only
      split_ifs
      · exact hshared'
      · rw [hsame]
        exact hplan.mono hgrows
  remind := fun hheld _ => hheld
  ended := by
    intro c c' o hheld hending
    cases hending with
    | kept ho => exact fun hkeeps => ⟨(hheld hkeeps).1, fun hn => absurd hn ho⟩
    | denied ho => exact fun hkeeps => ⟨(hheld hkeeps).1, fun hn => absurd hn ho⟩
    | paused ho _ =>
      intro hkeeps
      obtain ⟨-, p, hp, hsame⟩ := hheld hkeeps
      refine ⟨⟨p, ?_, hsame⟩, fun hn => ?_⟩
      · simp [retryablePlan, hp, hsame.approved, happroved]
      · rw [ho] at hn
        cases hn
    | completed _ _ hcomplete =>
      exact fun hkeeps => ⟨(hheld hkeeps).2, fun _ => hcomplete hinitial⟩
  interrupted := by
    intro c c' k calls o hheld _ hinterrupted ho hkeeps
    obtain ⟨hgrows, hplan⟩ := hinterrupted.kept
    refine ⟨?_, fun hn => ?_⟩
    · rw [hplan]
      exact (hheld (hkeeps.mono hgrows)).1.mono hgrows
    · rw [ho] at hn
      cases hn

/-- In a snapshot without odd spellings, the tests for a finished plan agree. -/
theorem Snapshot.spelled {p : PlanState} (hsame : SamePlan (DeliveredUpdate p₀ c) p₀ p)
    (hkeeps : KeepsPlan p₀ c) (hspelled : ∀ step ∈ p₀.steps, SpellsDone step.status) :
    ∀ step ∈ p.steps, SpellsDone step.status := by
  intro step hstep
  obtain ⟨i, hi⟩ := List.mem_iff_getElem?.mp hstep
  rcases hsame.statuses i step hi with hold | ⟨batch, results, hreceived, call, r, hmem, hsets⟩
  · obtain ⟨step₀, hi₀, hstatus⟩ := Option.map_eq_some_iff.mp hold
    rw [← hstatus]
    exact hspelled step₀ (List.mem_of_getElem? hi₀)
  · exact (hkeeps batch results hreceived).2 call r hmem _ hsets

end

/-- A run that executes an approved plan keeps it however it ends, up to the statuses that
delivered updates have set, if no received batch replaces the plan or spells `done` otherwise.
Then the tests for a finished plan agree, and a natural completion has every step done. -/
theorem run_keeps_approvedPlan {σ : Type} (req : RunRequest σ) (session : Session)
    (ctx : ToolContext) (tx : Channel) (store : σ) (error : Json → Text) (p₀ : PlanState)
    (hselect : selectRunPlan session.plan req.planMode true = .ok (some p₀))
    (hctx : ctx.plan = some p₀) (htools : RunsPlanTools req error)
    (hspelled : ∀ step ∈ p₀.steps, SpellsDone step.status)
    (hkeeps : KeepsPlan p₀ (run req session ctx tx store).2.gateView) :
    ∃ p, (run req session ctx tx store).2.session.plan = some p ∧ p.approved = true ∧
      SamePlan (DeliveredUpdate p₀ (run req session ctx tx store).2.gateView) p₀ p ∧
      TestsAgree p ∧
      ((run req session ctx tx store).1.kind = .natural →
        ∀ step ∈ p.steps, step.status = "done".toList) := by
  obtain ⟨hmode, hcurrent, hrequires⟩ := selectRunPlan_execute hselect
  have happroved : p₀.approved = true := (Bool.and_eq_true_iff.mp hrequires).1
  have hne : p₀.steps ≠ [] := by
    intro hnil
    rw [planRequiresExecution, hnil] at hrequires
    simp at hrequires
  have hleft : PlanLeft p₀ (run req session ctx tx store).1
      (run req session ctx tx store).2.gateView := by
    rcases hstart : startRun req session ctx tx store with ⟨accepted, s⟩
    cases accepted with
    | false =>
      obtain ⟨-, hplan, -⟩ := gateView_of_refused hstart
      rw [run_of_refused hstart]
      exact fun _ => ⟨⟨p₀, hplan.trans hcurrent, .refl _ p₀⟩, fun hn => by cases hn⟩
    | true =>
      obtain ⟨-, hidle, hplan, hshared, -⟩ := gateView_of_accepted hstart
      have hinitial : (runSetup req session ctx).initialApprovedPlan.isSome = true := by
        simp [runSetup, hctx, happroved]
      have hheld : PlanHeld p₀ s.gateView := fun _ =>
        ⟨⟨p₀, hplan.trans hcurrent, .refl _ p₀⟩, ⟨p₀, hshared.trans hctx, .refl _ p₀⟩⟩
      have hend := (plan_rule hmode htools happroved hinitial).agentLoop
        (runSetup req session ctx).iterationLimit s ⟨_, hidle, hheld⟩
      rw [run, hstart]
      dsimp only
      rcases hr : outcome (agentLoop req (runSetup req session ctx)
        (runSetup req session ctx).iterationLimit) s with ⟨o | _, s'⟩
      · rw [hr] at hend
        obtain ⟨c, ⟨rfl, -⟩, hleft⟩ := hend
        exact hleft
      · rw [hr] at hend
        exact hend.elim
  obtain ⟨⟨p, hp, hsame⟩, hnatural⟩ := hleft hkeeps
  have hp' : (run req session ctx tx store).2.session.plan = some p := hp
  have happroved : p.approved = true := hsame.approved.trans happroved
  have hsteps : p.steps ≠ [] := by
    intro hnil
    have hlength := hsame.length
    rw [hnil, List.length_nil] at hlength
    exact hne (List.length_eq_zero_iff.mp hlength.symm)
  have hspell := Snapshot.spelled hsame hkeeps hspelled
  refine ⟨p, hp', happroved, hsame, (testsAgree_iff happroved hsteps).mpr fun hall step hstep =>
    hspell step hstep (hall step hstep), fun hn step hstep => ?_⟩
  have hcomplete := hnatural hn
  rw [hp, approvedPlanIsComplete_iff happroved hsteps] at hcomplete
  exact hspell step hstep (hcomplete step hstep)

/-! A sample run of one iteration, whose model calls one plan tool. -/

section
variable {σ : Type} {req : RunRequest σ} {setup : RunSetup} {iter : IterationSetup}

theorem parseAssistantText_of_notMem (json : SerdeJson) {text : Text} (h : '<' ∉ text)
    (hsize : byteLen text ≤ maxAssistantTextBytes) :
    parseAssistantText json text = .ok (.plain text) := by
  unfold parseAssistantText
  rw [findNextVisibleDsmlTag_none (show '<' ∉ text.drop 0 from h)]
  simp only [gt_iff_lt, not_lt.mpr hsize, if_false]
  rfl

/-- A text without a `<` is plain. -/
theorem finish_of_notMem (json : SerdeJson) {g : IncrementalAssistantTextGuard}
    (h : '<' ∉ g.text) (hsize : byteLen g.text ≤ maxAssistantTextBytes) :
    g.finish json = .ok (.plain (dropBytes g.releasedCursor g.text)) := by
  unfold IncrementalAssistantTextGuard.finish
  rw [parseAssistantText_of_notMem json h hsize]

theorem finish_nil (json : SerdeJson) :
    IncrementalAssistantTextGuard.finish json {} = .ok (.plain []) :=
  finish_of_notMem json List.not_mem_nil (Nat.zero_le _)

theorem closedOrCancel_outcome {s : RunState σ} (hstays : s.tx.openFor = none) :
    outcome (closedOrCancel : Run σ Unit) s = (.ok (), s) := by
  have hpoll : s.tx.poll = (false, s.tx) := by rw [Channel.poll, hstays]
  rw [closedOrCancel, isClosed, outcome_bind, outcome_modifyGet, hpoll]
  rfl

/-- What the provider is asked. -/
def chatRequest (req : RunRequest σ) (setup : RunSetup) (iter : IterationSetup)
    (session : Session) : ChatRequest :=
  let defs := toolDefs req iter
  let offered := !defs.isEmpty && !iter.isUserFinal
  { model := req.model
    messages := buildView req setup session
    tools := if offered then some defs else none
    toolChoice := if offered then some "auto".toList else none }

/-- A small request is neither compacted nor refused. -/
theorem askProvider_asks {s : RunState σ} {items : List (Except Text StreamEvent)}
    (hfinal : iter.isUserFinal = false) (hstays : s.tx.openFor = none)
    (htrigger : Compact.isOverTrigger req.ratios (viewTokens req setup iter s.session)
      req.contextWindow = false)
    (hwall : ¬ Compact.hardWallTokens req.ratios req.contextWindow <
      viewTokens req setup iter s.session)
    (hstream : (req.turns iter.n).stream = .ok items) :
    outcome (askProvider req setup iter) s =
      (.ok items, { s with requests := s.requests ++ [chatRequest req setup iter s.session] }) := by
  have hcompact : outcome (compactHistory req setup iter) s = (.ok (), s) := by
    rw [compactHistory, outcome_bind, outcome_get]
    dsimp only
    rw [htrigger]
    rfl
  rw [askProvider, outcome_bind, hfinal]
  simp only [onlyIf, Bool.false_eq_true, if_false, outcome_pure]
  rw [outcome_bind, hcompact]
  simp only [openStream, outcome_bind, outcome_get, onlyIf, hwall, if_false, outcome_pure,
    closedOrCancel_outcome hstays, outcome_modify, hstream, chatRequest, hfinal]

theorem askProvider_outcome {s : RunState σ} {items : List (Except Text StreamEvent)}
    (hfinal : iter.isUserFinal = false) (hstays : s.tx.openFor = none)
    (htrigger : Compact.isOverTrigger req.ratios (viewTokens req setup iter s.session)
      req.contextWindow = false)
    (hwall : ¬ Compact.hardWallTokens req.ratios req.contextWindow <
      viewTokens req setup iter s.session)
    (hstream : (req.turns iter.n).stream = .ok items) :
    ∃ requests, outcome (askProvider req setup iter) s =
      (.ok items, { s with requests := requests }) :=
  ⟨_, askProvider_asks hfinal hstays htrigger hwall hstream⟩

/-- A turn of native calls only has nothing left to publish. -/
theorem settleStream_outcome {s : RunState σ} {acc : ToolCallAccumulator} {calls : List ToolCall}
    (hfinal : iter.isUserFinal = false) (hstays : s.tx.openFor = none)
    (hcalls : acc.finalize = .ok calls) :
    outcome (settleStream req setup iter { toolAcc := acc, sawFinish := true }) s =
      (.ok ⟨calls, [], [], true⟩, s) := by
  have hparse : parseTurn req.json (req.turns iter.n).callIds
      { toolAcc := acc, sawFinish := true } = .ok ⟨calls, [], [], true⟩ := by
    unfold parseTurn
    dsimp only
    rw [finish_nil]
    dsimp only
    rw [hcalls]
  unfold settleStream
  simp only [onlyIf, Bool.not_true, Bool.false_eq_true, if_false, outcome_bind, outcome_pure,
    closedOrCancel_outcome hstays, hparse, hfinal, Bool.false_and]
  rfl

/-- An iteration whose stream is consumed and settled is the decision on its turn. -/
theorem iteration_of_turn {s s₁ s₂ s₃ s₄ : RunState σ} {items : List (Except Text StreamEvent)}
    {l : StreamState} {turn : ParsedTurn}
    (hbegin : outcome (beginIteration setup) s = (.ok iter, s₁))
    (hask : outcome (askProvider req setup iter) s₁ = (.ok items, s₂))
    (hconsume : outcome (consumeStream {} items) s₂ = (.ok l, s₃))
    (hsettle : outcome (settleStream req setup iter l) s₃ = (.ok turn, s₄)) :
    outcome (iteration req setup) s = outcome (decideTurn req setup iter l turn) s₄ := by
  have hstream : outcome (streamTurn req setup iter) s₁ = (.ok l, s₃) := by
    rw [streamTurn, outcome_bind_ok hask, hconsume]
  rw [iteration, outcome_bind_ok hbegin, outcome_bind_ok hstream, outcome_bind_ok hsettle]

/-- An iteration whose stream holds native calls only is that of its calls. -/
theorem iteration_outcome {s s' s'' : RunState σ} {items : List (Except Text StreamEvent)}
    {acc : ToolCallAccumulator} {calls : List ToolCall}
    (hbegin : outcome (beginIteration setup) s = (.ok iter, s'))
    (hask : outcome (askProvider req setup iter) s' = (.ok items, s''))
    (hconsume : outcome (consumeStream {} items) s'' =
      (.ok { toolAcc := acc, sawFinish := true }, s''))
    (hfinal : iter.isUserFinal = false) (hstays : s''.tx.openFor = none)
    (hcalls : acc.finalize = .ok calls) :
    outcome (iteration req setup) s =
      outcome (decideTurn req setup iter { toolAcc := acc, sawFinish := true }
        ⟨calls, [], [], true⟩) s'' :=
  iteration_of_turn hbegin hask hconsume (settleStream_outcome hfinal hstays hcalls)

/-- A run that its first iteration ends has the outcome of the iteration. -/
theorem run_of_exit {session : Session} {ctx : ToolContext} {tx : Channel} {store : σ}
    {s s' : RunState σ} {limit : ℕ} {o : RunOutcome}
    (hstart : startRun req session ctx tx store = (true, s))
    (hlimit : (runSetup req session ctx).iterationLimit = limit + 1)
    (hiteration : outcome (iteration req (runSetup req session ctx)) s = (.error o, s')) :
    run req session ctx tx store = (o, s') := by
  rw [run, hstart]
  dsimp only
  rw [hlimit, if_pos rfl, agentLoop, outcome_bind, hiteration]

/-- A run of one iteration that lets the loop go on uses up its budget. -/
theorem run_of_oneIteration {session : Session} {ctx : ToolContext} {tx : Channel} {store : σ}
    {s s' : RunState σ} (hstart : startRun req session ctx tx store = (true, s))
    (hlimit : (runSetup req session ctx).iterationLimit = 1)
    (hiteration : outcome (iteration req (runSetup req session ctx)) s = (.ok (), s')) :
    (run req session ctx tx store).2 =
      (outcome (iterationsExhausted req (runSetup req session ctx)) s').2 := by
  rw [run, hstart]
  dsimp only
  rw [hlimit, if_pos rfl, agentLoop, outcome_bind_ok hiteration, agentLoop]
  rcases outcome (iterationsExhausted req (runSetup req session ctx)) s' with ⟨_ | _, _⟩ <;> rfl

/-- The same, with the outcome that the used up budget ends with. -/
theorem run_of_exhausted {session : Session} {ctx : ToolContext} {tx : Channel} {store : σ}
    {s s' s'' : RunState σ} {o : RunOutcome}
    (hstart : startRun req session ctx tx store = (true, s))
    (hlimit : (runSetup req session ctx).iterationLimit = 1)
    (hiteration : outcome (iteration req (runSetup req session ctx)) s = (.ok (), s'))
    (hend : outcome (iterationsExhausted req (runSetup req session ctx)) s' = (.error o, s'')) :
    run req session ctx tx store = (o, s'') := by
  rw [run, hstart]
  dsimp only
  rw [hlimit, if_pos rfl, agentLoop, outcome_bind_ok hiteration, agentLoop, hend]

end

def measurePlan : PlanState := ⟨[⟨"measure".toList, "pending".toList⟩], true, none⟩

/-- The tasks of tools that never stop early. -/
def planTasks : BatchTasks := fun _ ctx call =>
  match planTool (fun _ => []) call.name with
  | some tool => ⟨.finished (tool ctx call.input).1, (tool ctx call.input).2⟩
  | none => ⟨.withoutResult, ctx⟩

theorem planTasks_follow (i : ℕ) (ctx : ToolContext) (call : PendingToolCall) :
    FollowsPlanTools (fun _ => []) ctx call (planTasks i ctx call) := by
  unfold FollowsPlanTools planTasks
  cases planTool (fun _ => []) call.name <;> rfl

def planRegistry : ToolRegistry where
  tools := [{ definition := ⟨"generate_plan".toList, [], .null⟩ },
    { definition := ⟨"update_step_status".toList, [], .null⟩ }]
  sorted := by decide

section
variable (name : Text) (input : Json)

def planItems : List (Except Text StreamEvent) :=
  [.ok (.toolCallDelta ⟨0, some "call-1".toList, some name, some "args".toList⟩),
    .ok (.finish none)]

def planCallRequest : RunRequest Unit :=
  { sampleRequest "hello".toList none ⟨fun _ => some input, fun _ => []⟩ [] with
    tools := planRegistry
    turns := fun _ =>
      { stream := .ok (planItems name)
        callIds := natText
        tasks := planTasks } }

def planSession : Session := { sampleSession [] with plan := some measurePlan }

def planContext : ToolContext := { plan := some measurePlan }

def planSetup : RunSetup := runSetup (planCallRequest name input) planSession planContext

def planStart : RunState Unit :=
  (startRun (planCallRequest name input) planSession planContext {} ()).2

def planIteration : IterationSetup := ⟨1, false, true⟩

/-- The state in front of the provider's answer. -/
def planOpened (requests : List ChatRequest) : RunState Unit :=
  { planStart name input with
    tx := ((planStart name input).tx.offer (.iteration 1)).2
    progress := (planStart name input).progress.beginIteration
    requests := requests }

def planAcc : ToolCallAccumulator :=
  ⟨[(0, ⟨some "call-1".toList, some name, "args".toList⟩)], 4, 0⟩

def planReply : List ToolCall := [ToolCall.ofFunction "call-1".toList name "args".toList]

/-- The decision on the collected call. -/
def planDecision (requests : List ChatRequest) : Except RunOutcome Unit × RunState Unit :=
  outcome (decideTurn (planCallRequest name input) (planSetup name input) planIteration
    { toolAcc := planAcc name, sawFinish := true } ⟨planReply name, [], [], true⟩)
    (planOpened name input requests)

theorem planSetup_limit : (planSetup name input).iterationLimit = 1 ∧
    (planSetup name input).userIterationCapActive = false :=
  runSetup_sample "hello".toList none ⟨fun _ => some input, fun _ => []⟩ [] planSession (Or.inl rfl)

theorem planCall_begins : outcome (beginIteration (planSetup name input)) (planStart name input) =
    (.ok planIteration, planOpened name input []) := by
  obtain ⟨-, hcap⟩ := planSetup_limit name input
  have hbegin : outcome (beginIteration (planSetup name input)) (planStart name input) =
      (.ok ⟨1, (planSetup name input).userIterationCapActive &&
        (1 == (planSetup name input).iterationLimit), true⟩, planOpened name input []) := rfl
  rw [hbegin, hcap]
  rfl

theorem planCall_view : viewTokens (planCallRequest name input) (planSetup name input)
    planIteration (planStart name input).session ≤ 2000 := by
  have htext : (planCallRequest name input).json.toText (.array
      ((toolDefs (planCallRequest name input) planIteration).map ToolDef.toJson)) = [] := rfl
  have hschema : toolSchemaTokens (planCallRequest name input) planIteration = 0 := by
    rw [toolSchemaTokens, htext]
    decide
  have hview : buildView (planCallRequest name input) (planSetup name input)
      (planStart name input).session =
        [harnessNotice scienceExecutionPolicy, ChatMessage.ofUser "hello".toList] := rfl
  exact viewTokens_le hschema hview scienceExecutionPolicy_length_le
    userFinalIterationNotice_length_le

theorem planCall_asks : ∃ requests, outcome (askProvider (planCallRequest name input)
    (planSetup name input) planIteration) (planOpened name input []) =
      (.ok (planItems name), planOpened name input requests) := by
  have hview : viewTokens (planCallRequest name input) (planSetup name input) planIteration
      (planOpened name input []).session ≤ 2000 := planCall_view name input
  have htrigger : Compact.compactionTriggerTokens (planCallRequest name input).ratios
      (planCallRequest name input).contextWindow = 96000 := by
    change min (128000 * 3 / 4) 300000 = 96000
    decide
  have hwall : Compact.hardWallTokens (planCallRequest name input).ratios
      (planCallRequest name input).contextWindow = 115200 := by
    change min (128000 * 9 / 10) 300000 = 115200
    decide
  apply askProvider_outcome rfl rfl _ _ rfl
  · rw [Compact.isOverTrigger, htrigger]
    simp only [OfNat.ofNat_ne_zero, if_false, decide_eq_false_iff_not]
    omega
  · rw [hwall]
    omega

end

section
variable {name : Text} {input : Json}

/-- A stream whose only call is collected leads to the decision on it. -/
theorem planCall_run (name : Text) (input : Json) (hconsume : ∀ requests,
      outcome (consumeStream {} (planItems name)) (planOpened name input requests) =
        (.ok { toolAcc := planAcc name, sawFinish := true }, planOpened name input requests))
    (hgoes : ∀ requests, (planDecision name input requests).1 = .ok ()) :
    ∃ requests, (run (planCallRequest name input) planSession planContext {} ()).2 =
      (outcome (iterationsExhausted (planCallRequest name input) (planSetup name input))
        (planDecision name input requests).2).2 := by
  obtain ⟨requests, hask⟩ := planCall_asks name input
  have hcalls : (planAcc name).finalize = .ok (planReply name) := rfl
  have hiteration := iteration_outcome (planCall_begins name input) hask (hconsume requests)
    rfl rfl hcalls
  have hdecision : outcome (iteration (planCallRequest name input) (planSetup name input))
      (planStart name input) = (.ok (), (planDecision name input requests).2) := by
    rw [hiteration]
    exact Prod.ext (hgoes requests) rfl
  exact ⟨requests, run_of_oneIteration rfl (planSetup_limit name input).1 hdecision⟩

end

/-- The arguments of a plan with another step. -/
def replan : Json :=
  .object [("steps".toList, .array [.object [("title".toList, .string "repeat".toList)]])]

/-- The arguments of an update that finishes the only step. -/
def finishStep : Json :=
  .object [("step_id".toList, .number "0".toList), ("status".toList, .string "done".toList)]

theorem measurePlan_spelled : ∀ step ∈ measurePlan.steps, SpellsDone step.status := by
  intro step hstep hdone
  obtain rfl := List.mem_singleton.mp hstep
  revert hdone
  decide

set_option maxRecDepth 4000 in
theorem run_keeps_approvedPlan_finishStep :
    ∃ p, (run (planCallRequest "update_step_status".toList finishStep) planSession planContext {}
        ()).2.session.plan = some p ∧ p.approved = true ∧ TestsAgree p := by
  obtain ⟨requests, hrun⟩ := planCall_run "update_step_status".toList finishStep
    (fun _ => rfl) fun _ => rfl
  have hkeeps : KeepsPlan measurePlan (run (planCallRequest "update_step_status".toList finishStep)
      planSession planContext {} ()).2.gateView := by
    intro batch results hreceived
    have hbatch := hreceived.1
    rw [hrun] at hbatch
    have heq : batch = [⟨"call-1".toList, "update_step_status".toList, finishStep⟩] :=
      List.mem_singleton.mp hbatch
    subst heq
    constructor
    · intro call hcall
      obtain rfl := List.mem_singleton.mp hcall
      rfl
    · intro call r hmem a hsets
      obtain rfl := List.mem_singleton.mp (List.of_mem_zip hmem).1
      have hstatus : requestedUpdate ⟨"call-1".toList, "update_step_status".toList, finishStep⟩ =
          some ⟨0, "done".toList⟩ := rfl
      obtain rfl := Option.some.inj (hstatus.symm.trans hsets.1)
      exact fun _ => rfl
  obtain ⟨p, hp, happroved, -, hagree, -⟩ := run_keeps_approvedPlan
    (planCallRequest "update_step_status".toList finishStep) planSession planContext {} ()
    (fun _ => []) measurePlan (by decide) rfl (fun _ => planTasks_follow) measurePlan_spelled hkeeps
  exact ⟨p, hp, happroved, hagree⟩

set_option maxRecDepth 4000 in
/-- The model replaces the approved plan: the session is left with an unapproved one. -/
theorem generatePlan_replaces_approvedPlan :
    selectRunPlan planSession.plan false true = .ok (some measurePlan) ∧
    RunsPlanTools (planCallRequest "generate_plan".toList replan) (fun _ => []) ∧
    ∃ p, (run (planCallRequest "generate_plan".toList replan) planSession planContext {}
        ()).2.session.plan = some p ∧ p.approved = false ∧
      p.steps.map PlanStep.title ≠ measurePlan.steps.map PlanStep.title := by
  obtain ⟨requests, hrun⟩ := planCall_run "generate_plan".toList replan
    (fun _ => rfl) fun _ => rfl
  have hplan : (run (planCallRequest "generate_plan".toList replan) planSession planContext {}
      ()).2.session.plan = some ⟨[⟨"repeat".toList, "pending".toList⟩], false, none⟩ := by
    rw [hrun]
    rfl
  exact ⟨by decide, fun _ => planTasks_follow, _, hplan, rfl, by decide⟩

end DeepseekScience.Agent
