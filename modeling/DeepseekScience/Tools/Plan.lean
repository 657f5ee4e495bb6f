import DeepseekScience.Tools.Router

/-! The plan tools. `generate_plan` replaces the shared plan by an unapproved one, and
`update_step_status` sets the status of one of its steps. -/
namespace DeepseekScience.Tools

/-! Reading of the arguments, as `serde` derives it: a structure may also be given as the array
of its fields, and other members are ignored. -/

def jsonString : Json → Option Text
  | .string value => some value
  | _ => none

/-- The value of an unsigned literal; a longer one is read as a floating point number. -/
def jsonUsize : Json → Option ℕ
  | .number literal =>
    let value := literal.foldl (fun n c => n * 10 + (c.toNat - '0'.toNat)) 0
    if !literal.isEmpty && literal.all Char.isDigit && decide (value < 2 ^ 64) then some value
    else none
  | _ => none

/-- `#[serde(default)]` of an `Option<String>`. -/
def jsonOptionString : Option Json → Option (Option Text)
  | none => some none
  | some .null => some none
  | some (.string value) => some (some value)
  | some _ => none

def parseStepTitle : Json → Option Text
  | .object members => (members.lookup "title".toList).bind jsonString
  | .array [title] => jsonString title
  | _ => none

def parseStepTitles : Json → Option (List Text)
  | .array items => items.mapM parseStepTitle
  | _ => none

structure GeneratePlanArgs where
  steps : List Text
  researchQuestion : Option Text
  deriving DecidableEq

def parseGeneratePlanArgs : Json → Option GeneratePlanArgs
  | .object members => do
    let steps ← (members.lookup "steps".toList).bind parseStepTitles
    let question ← jsonOptionString (members.lookup "research_question".toList)
    pure ⟨steps, question⟩
  | .array (steps :: rest) => do
    let steps ← parseStepTitles steps
    let question ← jsonOptionString rest.head?
    if rest.length ≤ 1 then pure ⟨steps, question⟩ else none
  | _ => none

structure UpdateStepArgs where
  stepId : ℕ
  status : Text
  deriving DecidableEq

def parseUpdateStepArgs : Json → Option UpdateStepArgs
  | .object members => do
    let stepId ← (members.lookup "step_id".toList).bind jsonUsize
    let status ← (members.lookup "status".toList).bind jsonString
    pure ⟨stepId, status⟩
  | .array [stepId, status] => do
    let stepId ← jsonUsize stepId
    let status ← jsonString status
    pure ⟨stepId, status⟩
  | _ => none

/-- `error` is the text of the deserializer for arguments that do not have the declared shape. -/
def invalidArguments (error : Json → Text) (args : Json) : ToolError :=
  .invalidArgs ("invalid arguments: ".toList ++ error args)

def ToolOutput.ok (content : Text) : ToolOutput := ⟨content, false⟩

def ToolOutput.err (content : Text) : ToolOutput := ⟨content, true⟩

def generatedPlan (a : GeneratePlanArgs) : PlanState where
  steps := a.steps.map fun title => ⟨title, "pending".toList⟩
  approved := false
  researchQuestion := a.researchQuestion

/-- `GeneratePlanTool::call`. -/
def generatePlan (error : Json → Text) (ctx : ToolContext) (args : Json) :
    Except ToolError ToolOutput × ToolContext :=
  match parseGeneratePlanArgs args with
  | none => (.error (invalidArguments error args), ctx)
  | some a =>
    if a.steps.isEmpty then (.ok (.err "plan must have at least one step".toList), ctx)
    else
      (.ok (.ok ("plan generated (".toList ++ natText a.steps.length ++
        " steps); run will pause for user approval.".toList)),
        { ctx with plan := some (generatedPlan a) })

def PlanState.setStepStatus (p : PlanState) (stepId : ℕ) (status : Text) : PlanState :=
  { p with steps := p.steps.modify stepId fun step => { step with status := status } }

/-- `UpdateStepStatusTool::call`. -/
def updateStepStatus (error : Json → Text) (ctx : ToolContext) (args : Json) :
    Except ToolError ToolOutput × ToolContext :=
  match parseUpdateStepArgs args with
  | none => (.error (invalidArguments error args), ctx)
  | some a =>
    match ctx.plan with
    | none => (.ok (.err "no plan; call generate_plan first".toList), ctx)
    | some plan =>
      if plan.steps.length ≤ a.stepId then
        (.ok (.err ("step_id ".toList ++ natText a.stepId ++ " out of range (".toList ++
          natText plan.steps.length ++ " steps)".toList)), ctx)
      else
        (.ok (.ok ("step ".toList ++ natText a.stepId ++ " → ".toList ++ a.status)),
          { ctx with plan := some (plan.setStepStatus a.stepId a.status) })

/-- The plan tool of a name. -/
def planTool (error : Json → Text) (name : Text) :
    Option (ToolContext → Json → Except ToolError ToolOutput × ToolContext) :=
  if name = "generate_plan".toList then some (generatePlan error)
  else if name = "update_step_status".toList then some (updateStepStatus error)
  else none

/-- How the task of a call ends when the plan tools run as above. A plan tool that does not finish
has not reached its only write, and no other tool writes the shared plan. -/
def FollowsPlanTools (error : Json → Text) (ctx : ToolContext) (call : PendingToolCall)
    (task : ToolTask) : Prop :=
  match planTool error call.name, task.ended with
  | some tool, .finished result => (result, task.ctx) = tool ctx call.input
  | _, _ => task.ctx.plan = ctx.plan

/-! What a batch makes of an approved plan. -/

/-- The update that a call asks for. -/
def requestedUpdate (call : PendingToolCall) : Option UpdateStepArgs :=
  if call.name = "update_step_status".toList then parseUpdateStepArgs call.input else none

/-- Whether a call asks for a new plan with at least one step. -/
def replacesPlan (call : PendingToolCall) : Bool :=
  call.name == "generate_plan".toList &&
    (parseGeneratePlanArgs call.input).any fun a => !a.steps.isEmpty

/-- The same plan up to the statuses that the updates in `U` have set. -/
structure SamePlan (U : UpdateStepArgs → Prop) (p q : PlanState) : Prop where
  approved : q.approved = p.approved
  researchQuestion : q.researchQuestion = p.researchQuestion
  titles : q.steps.map PlanStep.title = p.steps.map PlanStep.title
  statuses : ∀ i step, q.steps[i]? = some step →
    (p.steps[i]?.map PlanStep.status = some step.status) ∨ U ⟨i, step.status⟩

theorem SamePlan.refl (U : UpdateStepArgs → Prop) (p : PlanState) : SamePlan U p p :=
  ⟨rfl, rfl, rfl, fun i step h => Or.inl (by rw [h]; rfl)⟩

theorem SamePlan.mono {U V : UpdateStepArgs → Prop} {p q : PlanState} (h : SamePlan U p q)
    (hle : ∀ a, U a → V a) : SamePlan V p q :=
  ⟨h.approved, h.researchQuestion, h.titles, fun i step hi => (h.statuses i step hi).imp_right
    (hle _)⟩

theorem SamePlan.trans {U : UpdateStepArgs → Prop} {p q r : PlanState} (h : SamePlan U p q)
    (h' : SamePlan U q r) : SamePlan U p r := by
  refine ⟨h'.approved.trans h.approved, h'.researchQuestion.trans h.researchQuestion,
    h'.titles.trans h.titles, fun i step hi => ?_⟩
  rcases h'.statuses i step hi with hsame | hset
  · obtain ⟨step', hi', hstatus⟩ := Option.map_eq_some_iff.mp hsame
    rw [← hstatus]
    exact h.statuses i step' hi'
  · exact Or.inr hset

theorem SamePlan.length {U : UpdateStepArgs → Prop} {p q : PlanState} (h : SamePlan U p q) :
    q.steps.length = p.steps.length := by
  simpa using congrArg List.length h.titles

theorem getElem?_setStepStatus (p : PlanState) (stepId : ℕ) (status : Text) (i : ℕ) :
    (p.setStepStatus stepId status).steps[i]? =
      if stepId = i then p.steps[i]?.map fun step => { step with status := status }
      else p.steps[i]? := by
  rw [PlanState.setStepStatus, List.getElem?_modify]
  split_ifs <;> simp

theorem setStepStatus_samePlan (p : PlanState) (a : UpdateStepArgs) :
    SamePlan (· = a) p (p.setStepStatus a.stepId a.status) := by
  refine ⟨rfl, rfl, List.ext_getElem? fun i => ?_, fun i step hi => ?_⟩
  · rw [List.getElem?_map, List.getElem?_map, getElem?_setStepStatus]
    split_ifs
    · cases p.steps[i]? <;> rfl
    · rfl
  · rw [getElem?_setStepStatus] at hi
    split_ifs at hi with hid
    · obtain ⟨step', -, rfl⟩ := Option.map_eq_some_iff.mp hi
      subst hid
      exact Or.inr rfl
    · exact Or.inl (by rw [hi]; rfl)

/-- The statuses that one answered call has set in a plan with the given number of steps. -/
def Sets (steps : ℕ) (call : PendingToolCall) (r : ToolResult) (a : UpdateStepArgs) : Prop :=
  requestedUpdate call = some a ∧ a.stepId < steps ∧ r.isError = false

/-- A rejected or failing `generate_plan` leaves the shared plan as it is. -/
theorem generatePlan_keeps {error : Json → Text} {ctx : ToolContext} {args : Json}
    (h : ((parseGeneratePlanArgs args).any fun a => !a.steps.isEmpty) = false) :
    (generatePlan error ctx args).2 = ctx := by
  unfold generatePlan
  cases hparse : parseGeneratePlanArgs args with
  | none => rfl
  | some a =>
    rw [hparse] at h
    have hempty : a.steps.isEmpty = true := by simpa using h
    simp only [hempty, if_true]

/-- An `update_step_status` sets the status that it reports, or leaves the plan as it is. -/
theorem updateStepStatus_cases (error : Json → Text) {ctx : ToolContext} (args : Json)
    {p : PlanState} (hplan : ctx.plan = some p) :
    (updateStepStatus error ctx args).2 = ctx ∨
      ∃ a content, parseUpdateStepArgs args = some a ∧ a.stepId < p.steps.length ∧
        updateStepStatus error ctx args =
          (.ok (.ok content), { ctx with plan := some (p.setStepStatus a.stepId a.status) }) := by
  unfold updateStepStatus
  cases hparse : parseUpdateStepArgs args with
  | none => exact Or.inl rfl
  | some a =>
    simp only [hplan]
    split_ifs with hrange
    · exact Or.inl rfl
    · exact Or.inr ⟨a, _, rfl, by omega, rfl⟩

/-- A call that does not replace the plan changes at most the status that it reports. -/
theorem executeToolCall_samePlan (registry : ToolRegistry) {error : Json → Text} {task : ToolTask}
    {ctx : ToolContext} {call : PendingToolCall} {p : PlanState}
    (htask : FollowsPlanTools error ctx call task) (hkeep : replacesPlan call = false)
    (hplan : ctx.plan = some p) :
    ∃ q, (executeToolCall registry task ctx call).2.plan = some q ∧
      SamePlan (Sets p.steps.length call (executeToolCall registry task ctx call).1) p q := by
  have hsame : ∀ (r : ToolResult) (ctx' : ToolContext), ctx'.plan = ctx.plan →
      ∃ q, ctx'.plan = some q ∧ SamePlan (Sets p.steps.length call r) p q :=
    fun r ctx' hctx => ⟨p, hctx.trans hplan, .refl _ p⟩
  unfold executeToolCall
  cases registry.get call.name with
  | none => exact hsame _ _ rfl
  | some tool =>
    unfold FollowsPlanTools at htask
    cases htool : planTool error call.name with
    | none =>
      rw [htool] at htask
      cases task.ended <;> exact hsame _ _ htask
    | some run =>
      rw [htool] at htask
      cases hended : task.ended with
      | timedOut =>
        rw [hended] at htask
        exact hsame _ _ htask
      | crashed e =>
        rw [hended] at htask
        exact hsame _ _ htask
      | withoutResult =>
        rw [hended] at htask
        exact hsame _ _ htask
      | finished result =>
        rw [hended] at htask
        dsimp only at htask ⊢
        unfold planTool at htool
        split_ifs at htool with hgenerate hupdate
        · obtain rfl := Option.some.inj htool
          refine hsame _ _ ?_
          have hnot : ((parseGeneratePlanArgs call.input).any fun a => !a.steps.isEmpty) = false := by
            simpa [replacesPlan, hgenerate] using hkeep
          rw [show task.ctx = _ from congrArg Prod.snd htask, generatePlan_keeps hnot]
        · obtain rfl := Option.some.inj htool
          rcases updateStepStatus_cases error call.input hplan with
            hsnd | ⟨a, content, hparse, hrange, hset⟩
          · refine hsame _ _ ?_
            rw [show task.ctx = _ from congrArg Prod.snd htask, hsnd]
          · rw [hset] at htask
            obtain ⟨rfl, hctx⟩ := Prod.mk.inj htask
            refine ⟨_, congrArg ToolContext.plan hctx, (setStepStatus_samePlan p a).mono ?_⟩
            rintro _ rfl
            exact ⟨by rw [requestedUpdate, if_pos hupdate, hparse], hrange, rfl⟩

/-- A batch without a replacing call changes at most the statuses that its successful results
report, by induction on the calls. -/
theorem executeToolCalls_samePlan (registry : ToolRegistry) {error : Json → Text}
    {tasks : BatchTasks} (htasks : ∀ i ctx call, FollowsPlanTools error ctx call (tasks i ctx call))
    {calls : List PendingToolCall} (hkeep : ∀ call ∈ calls, replacesPlan call = false)
    (position : ℕ) {ctx : ToolContext} {p : PlanState} (hplan : ctx.plan = some p) :
    ∃ q, (executeToolCalls registry tasks position ctx calls).2.plan = some q ∧
      SamePlan (fun a => ∃ call r,
        (call, r) ∈ calls.zip (executeToolCalls registry tasks position ctx calls).1 ∧
          Sets p.steps.length call r a) p q := by
  induction calls generalizing position ctx p with
  | nil => exact ⟨p, hplan, .refl _ p⟩
  | cons call calls ih =>
    obtain ⟨q, hq, hpq⟩ := executeToolCall_samePlan registry
      (htasks position ctx call) (hkeep call List.mem_cons_self) hplan
    obtain ⟨r, hr, hqr⟩ := ih (fun c hc => hkeep c (List.mem_cons_of_mem _ hc)) (position + 1) hq
    refine ⟨r, hr, (hpq.mono ?_).trans (hqr.mono ?_)⟩
    · intro a ha
      exact ⟨call, _, List.mem_cons_self, ha⟩
    · rintro a ⟨call', r', hmem, hsets⟩
      rw [hpq.length] at hsets
      exact ⟨call', r', List.mem_cons_of_mem _ hmem, hsets⟩

end DeepseekScience.Tools
