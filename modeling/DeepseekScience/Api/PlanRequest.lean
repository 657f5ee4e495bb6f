import DeepseekScience.Api.Durability
import DeepseekScience.Agent.PlanTrace

/-! The request behind an approved plan: which prompt the server recalls when it executes the plan,
and whose call of `generate_plan` the plan comes from, over all approvals and runs of a session. -/
namespace DeepseekScience.Api

open Tools Agent Db Transactions Runs Exits

/-! The recovery. -/

/-- `Iterator::rposition`. -/
def rposition {α : Type} (p : α → Bool) (xs : List α) : Option ℕ :=
  (xs.reverse.findIdx? p).map fun i => xs.length - 1 - i

def callsGeneratePlan (message : ChatMessage) : Bool :=
  (message.toolCalls.getD []).any fun call => decide (call.function.name = "generate_plan".toList)

/-- The trimmed text, unless it is empty. -/
def filledText (t : Text) : Option Text := if (trim t).isEmpty then none else some (trim t)

/-- The user request that is taken for the one that produced the plan. -/
def findOriginalPlanRequest (messages : List ChatMessage) (plan : Option PlanState) : Option Text :=
  ((rposition callsGeneratePlan messages).bind fun index =>
    ((messages.take index).reverse.find? fun m => decide (m.role = .user)).bind fun m =>
      m.content.bind filledText).or
    (plan.bind fun p => p.researchQuestion.bind filledText)

/-- The last element with the property, between what is before and what is behind it. -/
theorem rposition_append_cons {α : Type} {p : α → Bool} {before behind : List α} {a : α}
    (ha : p a = true) (hbehind : ∀ b ∈ behind, p b = false) :
    rposition p (before ++ a :: behind) = some before.length := by
  have hnone : behind.reverse.findIdx? p = none := by
    simpa [List.findIdx?_eq_none_iff] using hbehind
  unfold rposition
  rw [List.reverse_append, List.reverse_cons, List.append_assoc, List.findIdx?_append, hnone,
    List.singleton_append, List.findIdx?_cons, ha]
  simp only [if_true, List.length_append, List.length_cons, List.length_reverse, Option.map_some,
    Option.none_or, Option.some.injEq]
  omega

theorem rposition_eq_none {α : Type} {p : α → Bool} {xs : List α} :
    rposition p xs = none ↔ ∀ x ∈ xs, p x = false := by
  simp [rposition, List.findIdx?_eq_none_iff]

/-! The approval. -/

inductive ApprovalError where
  | notAwaiting | noPlan
  | database (e : DbError)

/-- `dbq::set_session_plan_and_status`. -/
def setSessionPlanAndStatus (db : SessionDb) (now sessionId : Text) (planData : Option Text)
    (status : Text) : Except DbError SessionDb :=
  if db.sessions.rows.any fun r => decide (r.id = sessionId) then
    .ok ((db.setSessionPlan now sessionId planData).setSessionStatus now sessionId status)
  else .error (.notFound ("session ".toList ++ sessionId))

/-- `POST /api/sessions/{sid}/approve`. -/
def approvePlan (serde : RowSerde) (sessionId now : Text) (failure : Option DbError)
    (st : ServerState) : Except ApprovalError (List PlanStep) × ServerState :=
  if st.active.session.frame.status ≠ .awaitingPlanApproval then (.error .notAwaiting, st)
  else
    match st.active.session.plan with
    | none => (.error .noPlan, st)
    | some plan =>
      let approvedPlan := { plan with approved := true }
      let written : Except DbError SessionDb := match failure with
        | some e => .error e
        | none => setSessionPlanAndStatus st.db now sessionId (some (serde.plan approvedPlan))
            "awaiting_plan_execution".toList
      match written with
      | .error e => (.error (.database e), st)
      | .ok db =>
        (.ok approvedPlan.steps,
          { st with
            db := db
            active.session.plan := some approvedPlan
            active.session.frame := st.active.session.frame.setStatus .awaitingPlanExecution })

/-- An approval changes no message, and of the plan no more than its approval. -/
theorem approvePlan_keeps (serde : RowSerde) (s now : Text) (failure : Option DbError)
    (st : ServerState) :
    (approvePlan serde s now failure st).2.active.session.messages = st.active.session.messages ∧
      ((approvePlan serde s now failure st).2.active.session.plan = st.active.session.plan ∨
        ∃ p, st.active.session.plan = some p ∧
          (approvePlan serde s now failure st).2.active.session.plan =
            some { p with approved := true }) := by
  unfold approvePlan
  split_ifs
  · exact ⟨rfl, Or.inl rfl⟩
  · cases hplan : st.active.session.plan with
    | none => exact ⟨rfl, Or.inl hplan⟩
    | some p =>
      dsimp only
      split
      · exact ⟨rfl, Or.inl hplan⟩
      · exact ⟨rfl, Or.inr ⟨p, rfl, rfl⟩⟩

/-! What one run adds. -/

section
variable {serde : RowSerde} {s : Text} {base : List ChatMessage} {json : SerdeJson}
  {given : Option PlanState}

/-- The worker counts the messages that it has stored, and its last checkpoint is a beginning of
the history with the plan that this beginning accounts for. -/
structure WorkerTraces (json : SerdeJson) (base : List ChatMessage) (given : Option PlanState)
    (added : List ChatMessage) (w : CheckpointWorker) : Prop where
  checkpoint : ∀ cp, w.durableCheckpoint = some cp → ∃ front, front <+: added ∧
    cp.messagesLen = base.length + front.length ∧ PlanFrom json given front cp.plan

/-- The same, with the cursor of the run. -/
structure CursorTraces (json : SerdeJson) (base : List ChatMessage) (given : Option PlanState)
    (added : List ChatMessage) (cursor : ℕ) (w : CheckpointWorker) : Prop
    extends WorkerTraces json base given added w where
  inside : cursor ≤ (base ++ added).length
  counts : w.stopped = false → w.expectedCount = cursor

theorem CursorTraces.grow {added : List ChatMessage} {cursor : ℕ} {w : CheckpointWorker}
    (h : CursorTraces json base given added cursor w) (more : List ChatMessage) :
    CursorTraces json base given (added ++ more) cursor w := by
  constructor
  · constructor
    intro cp hcp
    obtain ⟨front, hfront, hlength, hplan⟩ := h.checkpoint cp hcp
    exact ⟨front, hfront.trans (List.prefix_append _ _), hlength, hplan⟩
  · have hinside := h.inside
    simp only [List.length_append] at hinside ⊢
    omega
  · exact h.counts

/-- A stopped worker keeps its checkpoint. -/
theorem CursorTraces.stop {added : List ChatMessage} {cursor : ℕ} {w w' : CheckpointWorker}
    (h : CursorTraces json base given added cursor w) (hstopped : w'.stopped = true)
    (hcheckpoint : w'.durableCheckpoint = w.durableCheckpoint) :
    CursorTraces json base given added cursor w' := by
  refine ⟨⟨?_⟩, h.inside, ?_⟩
  · rw [hcheckpoint]
    exact h.checkpoint
  · intro hruns
    rw [hruns] at hstopped
    cases hstopped

theorem cursorTraces_step (serde : RowSerde) (ctx : CheckpointWorkerContext) {added : List ChatMessage} {cursor : ℕ}
    {w : CheckpointWorker} (state : HistoryCheckpointState)
    (h : CursorTraces json base given added cursor w)
    (hplan : PlanFrom json given added state.plan) :
    match persistHistoryCheckpoint serde ctx w ((base ++ added).drop cursor) state with
    | (.ok (), w') => CursorTraces json base given added (base ++ added).length w'
    | (.error _, w') => CursorTraces json base given added cursor w' := by
  unfold persistHistoryCheckpoint
  by_cases hstopped : w.stopped = true
  · rw [if_pos hstopped]
    exact h
  rw [if_neg hstopped]
  cases hserialized : serializeMessages serde ((base ++ added).drop cursor) with
  | error e => exact h.stop rfl rfl
  | ok serialized =>
    dsimp only
    rcases htx : commit (ctx.failure w.attempts) (w.db.appendHistoryCheckpoint ctx.now
      (checkpointRequest serde ctx w state serialized)) with e | ⟨next, db⟩
    · exact h.stop rfl rfl
    · obtain ⟨-, happended⟩ := commit_eq_ok.mp htx
      obtain ⟨hnext, -⟩ := appendHistoryCheckpoint_ok happended
      have hcount : w.expectedCount = cursor := h.counts (by simpa using hstopped)
      have hlength : serialized.length = ((base ++ added).drop cursor).length :=
        serializeMessages_length hserialized
      have hall : next = (base ++ added).length := by
        rw [List.length_drop] at hlength
        change next = w.expectedCount + serialized.length at hnext
        have hinside := h.inside
        omega
      refine ⟨⟨?_⟩, le_rfl, fun _ => hall⟩
      intro cp hcp
      obtain rfl := Option.some.inj hcp
      refine ⟨added, List.prefix_refl _, ?_, hplan⟩
      rw [← List.length_append]
      exact hall

/-- The checkpoint worker keeps the trace. -/
theorem logs_checkpoints (serde : RowSerde) (req : RunRequest CheckpointWorker)
    (ctx : CheckpointWorkerContext) (base : List ChatMessage) (given : Option PlanState) :
    Logs { req with historyCheckpoint := some (persistHistoryCheckpoint serde ctx) } base given
      (CursorTraces req.json base given) where
  grow := fun more _ _ h => h.grow more
  skip := by
    rintro added cursor w hskip h
    rcases hskip with hnone | hnil
    · cases hnone
    · have hreached := List.drop_eq_nil_iff.mp hnil
      exact ⟨h.toWorkerTraces, le_rfl, fun hruns => (h.counts hruns).trans
        (le_antisymm h.inside hreached)⟩
  accept := by
    rintro service hservice added cursor w state h - hplan
    obtain rfl := Option.some.inj hservice
    have hstep := cursorTraces_step serde ctx state h hplan
    rcases hresult : persistHistoryCheckpoint serde ctx w ((base ++ added).drop cursor) state with
      ⟨_ | _, w'⟩
    · rw [hresult] at hstep
      exact hstep
    · rw [hresult] at hstep
      exact hstep

/-- The history of a run that has recorded its prompt, with what follows it. -/
structure Continues (json : SerdeJson) (start : Session) (given : Option PlanState) (prompt : Text)
    (added : List ChatMessage) (session : Session) : Prop where
  messages : session.messages = start.messages ++ ChatMessage.ofUser prompt :: added
  noPrompt : ∀ m ∈ added, m.role ≠ .user
  plan : PlanFrom json given added session.plan

/-- The messages and the plan are those of the session in front of the run. -/
def Unchanged (start session : Session) : Prop :=
  session.messages = start.messages ∧ session.plan = start.plan

theorem execute_continues {error : Json → Text} {input : RunInput}
    (htools : RunsPlanTools input.request error) {initialPlan : Option PlanState}
    {session : Session} (hplan : session.plan = initialPlan) {w : CheckpointWorker}
    (hfresh : w.durableCheckpoint = none) (hcount : w.expectedCount = session.messages.length) :
    let e := execute serde s input initialPlan session w
    (Unchanged session e.session ∧ e.worker = w) ∨
      ∃ added, Continues input.request.json session initialPlan input.request.prompt added e.session ∧
        WorkerTraces input.request.json
          (session.messages ++ [ChatMessage.ofUser input.request.prompt]) initialPlan added
          e.worker := by
  have hstart : CursorTraces input.request.json
      (session.messages ++ [ChatMessage.ofUser input.request.prompt]) initialPlan []
      session.messages.length w := by
    refine ⟨⟨fun cp hcp => ?_⟩, by simp, fun _ => hcount⟩
    rw [hfresh] at hcp
    cases hcp
  unfold execute
  by_cases hconfigured : input.llmConfigured = true
  · rw [if_pos hconfigured]
    dsimp only
    have hrun := @run_planFrom _ { input.request with
        historyCheckpoint := some (persistHistoryCheckpoint serde (workerContext s input)) } error
      htools session { plan := initialPlan } { openFor := input.openFor } w _
      (logs_checkpoints serde input.request _ _ _) hplan hstart
    rcases hrun with
      ⟨hmessages, hkept, hstore⟩ | ⟨added, hhistory⟩
    · exact Or.inl ⟨⟨hmessages, hkept⟩, hstore⟩
    · right
      refine ⟨added, ⟨?_, hhistory.noPrompt, hhistory.plan⟩, hhistory.logged.toWorkerTraces⟩
      rw [hhistory.messages, List.append_assoc, List.singleton_append]
  · rw [if_neg hconfigured]
    right
    refine ⟨[], ⟨rfl, fun m hm => absurd hm List.not_mem_nil, Or.inl ?_⟩, hstart.toWorkerTraces⟩
    exact congrArg _ hplan

/-- The session behind the end of a run: as in front of it, or continued, with the plan that the
kept part of the run accounts for. -/
theorem finalizeRun_continues {input : RunInput} {setInitialTitle : Bool} {start : Session}
    {initialPlan : Option PlanState} {persistedBefore runMessageStart : ℕ} {e : Executed}
    (h : (Unchanged start e.session ∧ e.worker.durableCheckpoint = none) ∨
      ∃ added, Continues json start initialPlan input.request.prompt added e.session ∧
        WorkerTraces json (start.messages ++ [ChatMessage.ofUser input.request.prompt]) initialPlan
          added e.worker) :
    let session := (finalizeRun serde s input setInitialTitle (DurableSessionSnapshot.capture start)
      persistedBefore runMessageStart e).2.active.session
    Unchanged start session ∨
      ∃ added, Continues json start initialPlan input.request.prompt added session := by
  unfold finalizeRun
  cases terminalTransaction serde s input setInitialTitle persistedBefore e with
  | ok written => exact h.imp And.left fun ⟨added, hcontinues, _⟩ => ⟨added, hcontinues⟩
  | error error =>
    have hbegins : ∃ behind, e.session.messages = start.messages ++ behind := by
      rcases h with ⟨⟨hmessages, -⟩, -⟩ | ⟨added, hcontinues, -⟩
      · exact ⟨[], by rw [hmessages, List.append_nil]⟩
      · exact ⟨_, hcontinues.messages⟩
    have hrestored : Unchanged start
        ((DurableSessionSnapshot.capture start).restore e.session) := by
      obtain ⟨behind, hbehind⟩ := hbegins
      refine ⟨?_, rfl⟩
      show e.session.messages.take start.messages.length = start.messages
      rw [hbehind, List.take_left]
    dsimp only
    unfold rollbackFailedRun
    split_ifs
    · exact Or.inl hrestored
    · cases hcheckpoint : e.worker.durableCheckpoint with
      | none => exact Or.inl hrestored
      | some cp =>
        rcases h with ⟨-, hnone⟩ | ⟨added, hcontinues, htraces⟩
        · rw [hnone] at hcheckpoint
          cases hcheckpoint
        · right
          obtain ⟨front, ⟨more, rfl⟩, hlength, hplan⟩ := htraces.checkpoint cp hcheckpoint
          refine ⟨front, ?_, fun m hm => hcontinues.noPrompt m (List.mem_append_left _ hm), hplan⟩
          have hkept : e.session.messages =
              (start.messages ++ ChatMessage.ofUser input.request.prompt :: front) ++ more := by
            rw [hcontinues.messages, List.append_assoc, List.cons_append]
          have hcount : cp.messagesLen =
              (start.messages ++ ChatMessage.ofUser input.request.prompt :: front).length := by
            rw [hlength]
            simp only [List.length_append, List.length_cons, List.length_nil]
            omega
          have hle : cp.messagesLen ≤ e.session.messages.length := by
            rw [hcount, hkept]
            exact (List.prefix_append _ _).length_le
          show (if cp.messagesLen ≤ e.session.messages.length then
            e.session.messages.take cp.messagesLen else e.session.messages) = _
          rw [if_pos hle, hcount, hkept, List.take_left]

theorem runTask_continues {error : Json → Text} {input : RunInput}
    (htools : RunsPlanTools input.request error) {initialPlan : Option PlanState}
    {setInitialTitle : Bool} {st : ServerState} (hplan : st.active.session.plan = initialPlan) :
    let session := (runTask serde s input initialPlan setInitialTitle st).2.active.session
    Unchanged st.active.session session ∨ ∃ added,
      Continues input.request.json st.active.session initialPlan input.request.prompt added
        session := by
  unfold runTask
  dsimp only
  cases hcursor : validatedPersistenceCursor st.active.persistedCount
    (DurableSessionSnapshot.capture st.active.session) with
  | error _ => exact Or.inl ⟨rfl, rfl⟩
  | ok persistedBefore =>
    have hcount : persistedBefore = st.active.session.messages.length := by
      unfold validatedPersistenceCursor at hcursor
      split_ifs at hcursor with heq
      exact (Except.ok.inj hcursor).symm.trans heq
    apply finalizeRun_continues
    have hrun := @execute_continues serde s error input htools initialPlan st.active.session hplan
      { db := st.db
        persistedCount := st.active.persistedCount
        expectedCount := persistedBefore
        title := some (input.request.prompt.take 60) } rfl hcount
    exact hrun.imp_left fun ⟨hsame, hworker⟩ => ⟨hsame, by rw [hworker]⟩

/-- The plan that a run is given is the one that its session has when its task starts. -/
theorem selectRunPlan_marked {st : ServerState} {input : RunInput} {initialPlan : Option PlanState}
    (h : selectRunPlan st.active.session.plan input.request.planMode input.executePlan =
      .ok initialPlan) :
    let marked := (markProcessing s (clearPlan s st input) input).active.session
    marked.messages = st.active.session.messages ∧ marked.plan = initialPlan ∧
      (initialPlan = none ∨ initialPlan = st.active.session.plan ∧
        ∀ p, st.active.session.plan = some p → p.approved = true) := by
  cases hexecutes : input.executePlan with
  | true =>
    rw [hexecutes] at h
    have hclear : clearPlan s st input = st := by
      rw [clearPlan, clearsPlan, hexecutes]
      rfl
    rw [markProcessing, hexecutes, hclear, if_pos rfl]
    cases initialPlan with
    | none =>
      unfold selectRunPlan at h
      split_ifs at h
      · rename_i hfalse
        simp at hfalse
      · split at h <;> cases h
    | some p =>
      obtain ⟨-, hcurrent, hrequires⟩ := selectRunPlan_execute h
      refine ⟨rfl, hcurrent, Or.inr ⟨hcurrent.symm, ?_⟩⟩
      intro q hq
      obtain rfl := Option.some.inj (hcurrent.symm.trans hq)
      exact (Bool.and_eq_true_iff.mp hrequires).1
  | false =>
    have hnone : initialPlan = none := by
      rw [hexecutes] at h
      unfold selectRunPlan at h
      rw [Bool.and_false, if_neg (by simp), if_pos (by simp)] at h
      exact (Except.ok.inj h).symm
    rw [markProcessing, hexecutes, if_neg (by simp), hnone]
    refine ⟨?_, ?_, Or.inl rfl⟩
    · unfold clearPlan
      split_ifs <;> rfl
    · unfold clearPlan clearsPlan
      rw [hexecutes, Bool.not_false, Bool.true_and]
      split_ifs with hsome
      · rfl
      · simpa using hsome

/-- A request to run leaves the messages alone and keeps or clears the plan, or it continues the
session: with no plan at first, or with the approved plan of the session. -/
theorem streamSse_continues {error : Json → Text} {input : RunInput}
    (htools : RunsPlanTools input.request error) (st : ServerState) :
    let session := (streamSse serde s st input).2.active.session
    (session.messages = st.active.session.messages ∧
        (session.plan = st.active.session.plan ∨ session.plan = none)) ∨
      ∃ given added, Continues input.request.json st.active.session given input.request.prompt added
          session ∧
        (given = none ∨ given = st.active.session.plan ∧
          ∀ p, st.active.session.plan = some p → p.approved = true) := by
  rcases streamSse_runs serde s st input with hsame | hcleared | ⟨plan, title, hselect, hruns⟩
  · rw [hsame]
    exact Or.inl ⟨rfl, Or.inl rfl⟩
  · rw [hcleared]
    left
    unfold clearPlan
    split_ifs
    · exact ⟨rfl, Or.inr rfl⟩
    · exact ⟨rfl, Or.inl rfl⟩
  · obtain ⟨hmessages, hplan, hgiven⟩ := selectRunPlan_marked (s := s) hselect
    have hcontinues := @runTask_continues serde s error { input with runId := trim input.runId }
      htools plan title _ hplan
    rw [hruns]
    rcases hcontinues with ⟨hkept, hsame⟩ | ⟨added, hadded⟩
    · refine Or.inl ⟨hkept.trans hmessages, ?_⟩
      rw [hsame, hplan]
      exact hgiven.symm.imp And.left id
    · refine Or.inr ⟨plan, added, ⟨?_, hadded.noPrompt, hadded.plan⟩, hgiven⟩
      rw [← hmessages]
      exact hadded.messages

end

/-! The turns of a session. -/

/-- What a run has left in the history: its prompt, what follows it, and the plan that the session
had behind it. -/
structure Turn where
  prompt : Text
  body : List ChatMessage
  plan : Option PlanState

namespace Turn

def messages (t : Turn) : List ChatMessage := ChatMessage.ofUser t.prompt :: t.body

def replans (t : Turn) : Bool := t.body.any callsGeneratePlan

/-- The turn called `generate_plan` with success for what the plan says, and left that plan, not
approved yet. -/
def Produces (json : SerdeJson) (t : Turn) (p : PlanState) : Prop :=
  ∃ q, t.plan = some q ∧ Generates json t.body q ∧
    planContent { q with approved := p.approved } = planContent p

/-- The turn left the approved plan in place. -/
def Keeps (t : Turn) (p : PlanState) : Prop :=
  t.plan.map planContent = some (planContent { p with approved := true })

end Turn

/-- The server with the turns of its session. -/
structure Recorded where
  server : ServerState
  turns : List Turn := []

inductive SessionRequest where
  | approve (now : Text) (failure : Option DbError)
  | run (input : RunInput)

/-- One request, with the turn that it has added. -/
def Recorded.step (serde : RowSerde) (s : Text) (r : Recorded) : SessionRequest → Recorded
  | .approve now failure => { r with server := (approvePlan serde s now failure r.server).2 }
  | .run input =>
    let server := (streamSse serde s r.server input).2
    match server.active.session.messages.drop r.server.active.session.messages.length with
    | [] => { r with server := server }
    | _ :: body =>
      ⟨server, r.turns ++ [⟨input.request.prompt, body, server.active.session.plan⟩]⟩

/-- The plan, approved or not, comes from one of the turns, and those behind it left it in place. -/
def Sourced (json : SerdeJson) (turns : List Turn) (p : PlanState) : Prop :=
  ∃ earlier source later, turns = earlier ++ source :: later ∧ source.Produces json p ∧
    ∀ t ∈ later, t.Keeps p

/-- The history is that of the turns, and the plan comes from one of them. -/
structure Accounted (json : SerdeJson) (r : Recorded) : Prop where
  messages : r.server.active.session.messages = r.turns.flatMap Turn.messages
  noPrompt : ∀ t ∈ r.turns, ∀ m ∈ t.body, m.role ≠ .user
  source : ∀ p, r.server.active.session.plan = some p → Sourced json r.turns p

section
variable {json : SerdeJson} {r : Recorded} {turns : List Turn} {p q : PlanState}

theorem planContent_eq_iff : planContent p = planContent q ↔ p.approved = q.approved ∧
    p.steps.map PlanStep.title = q.steps.map PlanStep.title ∧
    p.researchQuestion = q.researchQuestion := by
  simp only [planContent, Prod.mk.injEq]

/-- Approval and the statuses of the steps say nothing about the source. -/
theorem Sourced.of_content (h : Sourced json turns p)
    (hsame : planContent { q with approved := p.approved } = planContent p) :
    Sourced json turns q := by
  obtain ⟨-, htitles, hquestion⟩ := planContent_eq_iff.mp hsame
  obtain ⟨earlier, source, later, hturns, ⟨q', hq', hgenerates, hcontent⟩, hlater⟩ := h
  obtain ⟨-, htitles', hquestion'⟩ := planContent_eq_iff.mp hcontent
  refine ⟨earlier, source, later, hturns, ⟨q', hq', hgenerates, ?_⟩, ?_⟩
  · exact planContent_eq_iff.mpr ⟨rfl, htitles'.trans htitles.symm, hquestion'.trans hquestion.symm⟩
  · intro t ht
    refine (hlater t ht).trans (congrArg some ?_)
    exact planContent_eq_iff.mpr ⟨rfl, htitles.symm, hquestion.symm⟩

/-- A run that was given the approved plan of the session, or none, leaves a plan with a source. -/
theorem Sourced.after {given plan : Option PlanState} {prompt : Text} {body : List ChatMessage}
    (hsource : ∀ q, given = some q → Sourced json turns q ∧ q.approved = true)
    (hplan : PlanFrom json given body plan) (hp : plan = some p) :
    Sourced json (turns ++ [⟨prompt, body, plan⟩]) p := by
  subst hp
  rcases hplan with hkept | ⟨q, hq, hgenerates⟩
  · obtain ⟨q, rfl, hcontent⟩ := Option.map_eq_some_iff.mp hkept.symm
    obtain ⟨hq, happroved⟩ := hsource q rfl
    obtain ⟨hsame, htitles, hquestion⟩ := planContent_eq_iff.mp hcontent
    have hp : Sourced json turns p :=
      hq.of_content (planContent_eq_iff.mpr ⟨rfl, htitles.symm, hquestion.symm⟩)
    obtain ⟨earlier, source, later, rfl, hproduces, hlater⟩ := hp
    refine ⟨earlier, source, later ++ [⟨prompt, body, some p⟩], by simp, hproduces, ?_⟩
    intro t ht
    rcases List.mem_append.mp ht with ht | ht
    · exact hlater t ht
    · rw [List.mem_singleton.mp ht, Turn.Keeps, Option.map_some]
      exact congrArg some (planContent_eq_iff.mpr ⟨hsame.symm.trans happroved, rfl, rfl⟩)
  · obtain rfl := Option.some.inj hq
    exact ⟨turns, _, [], rfl, ⟨p, rfl, hgenerates, rfl⟩, fun t ht => absurd ht List.not_mem_nil⟩

/-- The runs of a session decode arguments alike, and their tools run the plan tools. -/
def SessionRequest.RunsTools (json : SerdeJson) (error : Json → Text) : SessionRequest → Prop
  | .approve _ _ => True
  | .run input => input.request.json = json ∧ RunsPlanTools input.request error

/-- A run that has added messages adds a turn. -/
theorem step_run {serde : RowSerde} {s : Text} {input : RunInput} {server : ServerState}
    {m : ChatMessage} {body : List ChatMessage}
    (hserver : (streamSse serde s r.server input).2 = server)
    (hmessages : server.active.session.messages = r.server.active.session.messages ++ m :: body) :
    r.step serde s (.run input) =
      ⟨server, r.turns ++ [⟨input.request.prompt, body, server.active.session.plan⟩]⟩ := by
  unfold Recorded.step
  dsimp only
  rw [hserver, hmessages, List.drop_left]

theorem step_accounted (serde : RowSerde) (s : Text) {error : Json → Text} (h : Accounted json r)
    {request : SessionRequest} (hrequest : request.RunsTools json error) :
    Accounted json (r.step serde s request) := by
  cases request with
  | approve now failure =>
    obtain ⟨hmessages, hplan⟩ := approvePlan_keeps serde s now failure r.server
    refine ⟨hmessages.trans h.messages, h.noPrompt, ?_⟩
    intro p hp
    rcases hplan with hsame | ⟨q, hq, happroved⟩
    · exact h.source p (hsame.symm.trans hp)
    · obtain rfl := Option.some.inj (happroved.symm.trans hp)
      exact (h.source q hq).of_content rfl
  | run input =>
    obtain ⟨hjson, htools⟩ := hrequest
    rcases @streamSse_continues serde s _ _ htools r.server with
      ⟨hmessages, hplan⟩ | ⟨given, added, hadded, hgiven⟩
    · unfold Recorded.step
      dsimp only
      rw [hmessages, List.drop_length]
      refine ⟨hmessages.trans h.messages, h.noPrompt, ?_⟩
      intro p hp
      rcases hplan with hsame | hnone
      · exact h.source p (hsame.symm.trans hp)
      · rw [hnone] at hp
        cases hp
    · rw [step_run rfl hadded.messages]
      constructor
      · show (streamSse serde s r.server input).2.active.session.messages = _
        rw [hadded.messages, h.messages, List.flatMap_append, List.flatMap_singleton]
        rfl
      · intro t ht
        rcases List.mem_append.mp ht with ht | ht
        · exact h.noPrompt t ht
        · rw [List.mem_singleton.mp ht]
          exact hadded.noPrompt
      · intro p hp
        apply Sourced.after _ (hjson ▸ hadded.plan) hp
        intro q hq
        rcases hgiven with rfl | ⟨hsame, happroved⟩
        · cases hq
        · have hcurrent := hsame.symm.trans hq
          exact ⟨h.source q hcurrent, happroved q hcurrent⟩

/-! What the server recalls. -/

/-- The server recalls the words of the source: they are not blank, and if a later turn has called
`generate_plan` again, the last such turn was prompted by the same words, or by a blank prompt
where the research question of the plan has the words. -/
def Recalls (p : PlanState) (source : Turn) (later : List Turn) : Prop :=
  trim source.prompt ≠ [] ∧ ∀ t ∈ (later.filter Turn.replans).getLast?,
    trim t.prompt = trim source.prompt ∨
      trim t.prompt = [] ∧ p.researchQuestion.bind filledText = some (trim source.prompt)

/-- The last element of a list with a property. -/
theorem exists_last {α : Type} {p : α → Bool} {xs : List α} (h : xs.any p = true) :
    ∃ before a behind, xs = before ++ a :: behind ∧ p a = true ∧ ∀ b ∈ behind, p b = false := by
  induction xs with
  | nil => cases h
  | cons x xs ih =>
    by_cases hany : xs.any p = true
    · obtain ⟨before, a, behind, rfl, ha, hbehind⟩ := ih hany
      exact ⟨x :: before, a, behind, rfl, ha, hbehind⟩
    · have hnone : ∀ b ∈ xs, p b = false := by simpa using hany
      rw [List.any_cons, Bool.or_eq_true] at h
      exact ⟨[], x, xs, rfl, h.resolve_right hany, hnone⟩

theorem filledText_eq_some {t w : Text} : filledText t = some w ↔ trim t = w ∧ w ≠ [] := by
  unfold filledText
  split_ifs with hempty
  · constructor
    · intro h
      cases h
    · rintro ⟨rfl, hne⟩
      exact absurd (List.isEmpty_iff.mp hempty) hne
  · constructor
    · intro h
      obtain rfl := Option.some.inj h
      exact ⟨rfl, fun hnil => hempty (List.isEmpty_iff.mpr hnil)⟩
    · rintro ⟨rfl, -⟩
      rfl

theorem filledText_eq_none {t : Text} : filledText t = none ↔ trim t = [] := by
  unfold filledText
  split_ifs with hempty
  · exact iff_of_true rfl (List.isEmpty_iff.mp hempty)
  · exact iff_of_false (by simp) fun hnil => hempty (List.isEmpty_iff.mpr hnil)

theorem find_user {before front : List ChatMessage} (prompt : Text)
    (hfront : ∀ m ∈ front, m.role ≠ .user) :
    ((before ++ ChatMessage.ofUser prompt :: front).reverse.find?
      fun m => decide (m.role = .user)) = some (ChatMessage.ofUser prompt) := by
  have hnone : (front.reverse.find? fun m => decide (m.role = .user)) = none := by
    simpa [List.find?_eq_none] using hfront
  rw [List.reverse_append, List.reverse_cons, List.append_assoc, List.find?_append, hnone,
    Option.none_or, List.singleton_append, List.find?_cons]
  rfl

theorem callsGeneratePlan_ofUser (prompt : Text) :
    callsGeneratePlan (ChatMessage.ofUser prompt) = false := rfl

/-- The prompt of the last turn that calls `generate_plan` is what is recalled. -/
theorem findOriginalPlanRequest_turn {earlier later : List Turn} {t : Turn}
    (hprompt : ∀ m ∈ t.body, m.role ≠ .user) (hreplans : t.replans = true)
    (hlater : ∀ t' ∈ later, t'.replans = false) (plan : Option PlanState) :
    findOriginalPlanRequest ((earlier ++ t :: later).flatMap Turn.messages) plan =
      (filledText t.prompt).or (plan.bind fun p => p.researchQuestion.bind filledText) := by
  obtain ⟨front, call, behind, hbody, hcall, hbehind⟩ := exists_last hreplans
  have hsplit : (earlier ++ t :: later).flatMap Turn.messages =
      (earlier.flatMap Turn.messages ++ ChatMessage.ofUser t.prompt :: front) ++
        call :: (behind ++ later.flatMap Turn.messages) := by
    rw [List.flatMap_append, List.flatMap_cons, Turn.messages, hbody]
    simp only [List.append_assoc, List.cons_append]
  have hnone : ∀ m ∈ behind ++ later.flatMap Turn.messages, callsGeneratePlan m = false := by
    intro m hm
    rcases List.mem_append.mp hm with hm | hm
    · exact hbehind m hm
    · obtain ⟨t', ht', hm⟩ := List.mem_flatMap.mp hm
      have hquiet := hlater t' ht'
      rcases List.mem_cons.mp hm with rfl | hm
      · exact callsGeneratePlan_ofUser _
      · exact (List.any_eq_false.mp hquiet m hm : ¬ _) |> Bool.eq_false_iff.mpr
  have hfront : ∀ m ∈ front, m.role ≠ .user := by
    intro m hm
    apply hprompt
    rw [hbody]
    exact List.mem_append_left _ hm
  unfold findOriginalPlanRequest
  rw [hsplit, rposition_append_cons hcall hnone, Option.bind_some, List.take_left,
    find_user _ hfront]
  rfl

theorem generates_calls {messages : List ChatMessage} {p : PlanState}
    (h : Generates json messages p) : messages.any callsGeneratePlan = true := by
  obtain ⟨m, hm, -, call, hcall, hname, -⟩ := h
  exact List.any_eq_true.mpr ⟨m, hm, List.any_eq_true.mpr ⟨call, hcall, decide_eq_true hname⟩⟩

/-- Which words are recalled for the plan of a source. -/
theorem findOriginalPlanRequest_source {earlier later : List Turn} {source : Turn}
    (hprompt : ∀ t ∈ source :: later, ∀ m ∈ t.body, m.role ≠ .user)
    (hproduces : source.Produces json p) :
    findOriginalPlanRequest ((earlier ++ source :: later).flatMap Turn.messages) (some p) =
      some (trim source.prompt) ↔ Recalls p source later := by
  unfold Recalls
  by_cases hany : later.any Turn.replans = true
  · obtain ⟨between, t, behind, rfl, ht, hbehind⟩ := exists_last hany
    have hlast : ((between ++ t :: behind).filter Turn.replans).getLast? = some t := by
      have hnone : behind.filter Turn.replans = [] := by
        simpa [List.filter_eq_nil_iff] using hbehind
      rw [List.filter_append, List.filter_cons_of_pos ht, hnone, List.getLast?_concat]
    have hturn := @findOriginalPlanRequest_turn (earlier ++ source :: between) behind t
      (hprompt t (by simp)) ht hbehind (some p)
    rw [List.append_assoc, List.cons_append] at hturn
    rw [hturn, hlast]
    simp only [Option.mem_some_iff, forall_eq', Option.bind_some]
    cases hwords : filledText t.prompt with
    | none =>
      have hblank := filledText_eq_none.mp hwords
      rw [Option.none_or, hblank]
      constructor
      · intro h
        obtain ⟨question, -, hquestion⟩ := Option.bind_eq_some_iff.mp h
        exact ⟨(filledText_eq_some.mp hquestion).2, Or.inr ⟨rfl, h⟩⟩
      · rintro ⟨hne, hsame | ⟨-, h⟩⟩
        · exact absurd hsame.symm hne
        · exact h
    | some w =>
      obtain ⟨rfl, hne⟩ := filledText_eq_some.mp hwords
      rw [Option.some_or, Option.some.injEq]
      constructor
      · intro h
        exact ⟨h ▸ hne, Or.inl h⟩
      · rintro ⟨-, h | ⟨hblank, -⟩⟩
        · exact h
        · exact absurd hblank hne
  · have hnone : ∀ t ∈ later, t.replans = false := by simpa using hany
    have hfilter : later.filter Turn.replans = [] := by
      simpa [List.filter_eq_nil_iff] using hnone
    obtain ⟨q, -, hgenerates, -⟩ := hproduces
    rw [findOriginalPlanRequest_turn (hprompt source List.mem_cons_self)
      (generates_calls hgenerates) hnone, hfilter]
    simp only [List.getLast?_nil, Option.not_mem_none, false_implies, implies_true, and_true,
      Option.bind_some]
    cases hwords : filledText source.prompt with
    | none =>
      have hblank := filledText_eq_none.mp hwords
      rw [Option.none_or, hblank]
      apply iff_of_false _ (fun h => h rfl)
      intro h
      obtain ⟨question, -, hquestion⟩ := Option.bind_eq_some_iff.mp h
      exact (filledText_eq_some.mp hquestion).2 rfl
    | some w =>
      obtain ⟨rfl, hne⟩ := filledText_eq_some.mp hwords
      exact iff_of_true rfl hne

/-- A plan that may be executed comes from a turn of the session, and the execution recalls the
request of that turn under the condition on the later turns. -/
def RequestRecalled (json : SerdeJson) (r : Recorded) : Prop :=
  r.server.active.session.messages = r.turns.flatMap Turn.messages ∧
    ∀ p, r.server.active.session.plan.filter planRequiresExecution = some p →
      ∃ earlier source later, r.turns = earlier ++ source :: later ∧ source.Produces json p ∧
        (∀ t ∈ later, t.Keeps p) ∧
        (findOriginalPlanRequest r.server.active.session.messages (some p) =
          some (trim source.prompt) ↔ Recalls p source later)

theorem Accounted.recalled (h : Accounted json r) : RequestRecalled json r := by
  refine ⟨h.messages, fun p hp => ?_⟩
  obtain ⟨hplan, -⟩ := Option.filter_eq_some_iff.mp hp
  obtain ⟨earlier, source, later, hturns, hproduces, hlater⟩ := h.source p hplan
  refine ⟨earlier, source, later, hturns, hproduces, hlater, ?_⟩
  rw [h.messages, hturns]
  apply findOriginalPlanRequest_source _ hproduces
  intro t ht
  apply h.noPrompt
  rw [hturns]
  exact List.mem_append_right _ ht

/-- Over every history of approvals and runs of a session that starts empty, the execution of an
approved plan recalls the request that produced the plan exactly when no later turn has called
`generate_plan` for other words. -/
theorem original_request_recalled_iff (serde : RowSerde) (s : Text) {error : Json → Text}
    (hmessages : r.server.active.session.messages = []) (hplan : r.server.active.session.plan = none)
    (hturns : r.turns = []) (requests : List SessionRequest)
    (hrequests : ∀ request ∈ requests, request.RunsTools json error) :
    Always (Recorded.step serde s) (RequestRecalled json) r requests := by
  have hstart : Accounted json r := by
    constructor
    · rw [hmessages, hturns]
      rfl
    · rw [hturns]
      exact fun t ht => absurd ht List.not_mem_nil
    · rw [hplan]
      intro p hp
      cases hp
  have hstep : ∀ (r : Recorded) (request : SessionRequest), Accounted json r →
      request.RunsTools json error → Accounted json (r.step serde s request) :=
    fun r request h hguard => step_accounted serde s h hguard
  exact always_of_guarded hstep (fun r h => h.recalled) hstart (allSteps_of_mem fun request hmem _ => hrequests request hmem)

end

/-! A sample: a run generates a plan, and its execution calls `generate_plan` without steps. -/

def measureArgs : Text := "\x7b\"steps\":[\x7b\"title\":\"measure\"\x7d]\x7d".toList

def noStepsArgs : Text := "\x7b\"steps\":[]\x7d".toList

/-- The decoder, as far as the sample needs it. -/
def planJson : SerdeJson where
  fromStr := fun text =>
    if text = measureArgs then
      some (.object [("steps".toList,
        .array [.object [("title".toList, .string "measure".toList)]])])
    else some (.object [("steps".toList, .array [])])
  toText := fun _ => []

/-- A run of one iteration, whose model calls `generate_plan`. -/
structure ReplanRun where
  planMode : Bool
  prompt : Text
  args : Text
  runId : Text
  session : Session
  plan : Option PlanState
  worker : CheckpointWorker

namespace ReplanRun

section
variable (c : ReplanRun)

def items : List (Except Text StreamEvent) :=
  [.ok (.toolCallDelta ⟨0, some "call-1".toList, some "generate_plan".toList, some c.args⟩),
    .ok (.finish none)]

def input : RunInput where
  runId := c.runId
  executePlan := !c.planMode
  request :=
    { helloRequest with
      prompt := c.prompt
      planMode := c.planMode
      tools := planRegistry
      json := planJson
      turns := fun _ =>
        { stream := .ok c.items
          callIds := natText
          tasks := planTasks } }

def request : RunRequest CheckpointWorker :=
  { c.input.request with
    historyCheckpoint := some (persistHistoryCheckpoint sampleSerde
      (workerContext "s1".toList c.input)) }

def setup : RunSetup := runSetup c.request c.session { plan := c.plan }

def start : RunState CheckpointWorker :=
  (startRun c.request c.session { plan := c.plan } {} c.worker).2

def iteration : IterationSetup := ⟨1, false, hasUpdatableApprovedPlan c.plan⟩

def opened (requests : List ChatRequest) : RunState CheckpointWorker :=
  { c.start with
    tx := (c.start.tx.offer (.iteration 1)).2
    progress := c.start.progress.beginIteration
    requests := requests }

def asked : RunState CheckpointWorker :=
  c.opened [chatRequest c.request c.setup c.iteration (c.opened []).session]

def acc : ToolCallAccumulator :=
  ⟨[(0, ⟨some "call-1".toList, some "generate_plan".toList, c.args⟩)], byteLen c.args, 0⟩

def reply : List ToolCall := [ToolCall.ofFunction "call-1".toList "generate_plan".toList c.args]

/-- The state behind the decision on the call. -/
def decided : Except RunOutcome Unit × RunState CheckpointWorker :=
  outcome (decideTurn c.request c.setup c.iteration { toolAcc := c.acc, sawFinish := true }
    ⟨c.reply, [], [], true⟩) c.asked

/-- The history of the view. -/
def history : List ChatMessage :=
  Compact.projection (c.opened []).session.messages (c.opened []).session.compaction

theorem setup_limit : c.setup.iterationLimit = 1 ∧ c.setup.userIterationCapActive = false := by
  have h : ∀ policy : Text, effectiveIterationLimit ([c.prompt, policy].filterMap
      fun _ => (none : Option ℕ)).min? 1 = (1, false) := fun _ => rfl
  have hsetup := h scienceExecutionPolicy
  exact ⟨congrArg Prod.fst hsetup, congrArg Prod.snd hsetup⟩

theorem begins : outcome (beginIteration c.setup) c.start = (.ok c.iteration, c.opened []) := by
  have hbegin : outcome (beginIteration c.setup) c.start =
      (.ok ⟨1, c.setup.userIterationCapActive && (1 == c.setup.iterationLimit),
        hasUpdatableApprovedPlan c.plan⟩, c.opened []) := rfl
  rw [hbegin, c.setup_limit.2]
  rfl

theorem view_le (h : Compact.estimateMessagesTokens c.history ≤ 900) :
    viewTokens c.request c.setup c.iteration (c.opened []).session ≤ 2000 := by
  have hschema : toolSchemaTokens c.request c.iteration = 0 := by
    have htext : c.request.json.toText (.array ((toolDefs c.request c.iteration).map
      ToolDef.toJson)) = [] := rfl
    rw [toolSchemaTokens, htext]
    decide
  have hview : buildView c.request c.setup (c.opened []).session =
      harnessNotice scienceExecutionPolicy :: (c.history ++ []) := rfl
  have hpolicy := scienceExecutionPolicy_length_le
  rw [viewTokens, hschema, hview, List.append_nil, Compact.saturatingAdd]
  apply (Nat.min_le_left _ _).trans
  rw [Compact.estimateMessagesTokens, List.map_cons, List.sum_cons, estimate_harnessNotice]
  change (scienceExecutionPolicy.length + 8) / 4 + Compact.estimateMessagesTokens c.history + 0 ≤ 2000
  omega

theorem asks (h : Compact.estimateMessagesTokens c.history ≤ 900) :
    outcome (askProvider c.request c.setup c.iteration) (c.opened []) = (.ok c.items, c.asked) := by
  have hview := c.view_le h
  have htrigger : Compact.compactionTriggerTokens c.request.ratios c.request.contextWindow =
      96000 := by
    change min (128000 * 3 / 4) 300000 = 96000
    decide
  have hwall : Compact.hardWallTokens c.request.ratios c.request.contextWindow = 115200 := by
    change min (128000 * 9 / 10) 300000 = 115200
    decide
  apply askProvider_asks rfl rfl _ _ rfl
  · rw [Compact.isOverTrigger, htrigger]
    simp only [OfNat.ofNat_ne_zero, if_false, decide_eq_false_iff_not]
    omega
  · rw [hwall]
    omega

theorem iterates (h : Compact.estimateMessagesTokens c.history ≤ 900)
    (hconsume : outcome (consumeStream {} c.items) c.asked =
      (.ok { toolAcc := c.acc, sawFinish := true }, c.asked)) :
    outcome (Agent.iteration c.request c.setup) c.start = c.decided :=
  iteration_outcome c.begins (c.asks h) hconsume rfl rfl rfl

/-- What the run leaves, when the decision ends it with the outcome. -/
def executed (o : RunOutcome) (s : RunState CheckpointWorker) : Executed :=
  ⟨o, s.session, s.store, s.tx.sent⟩

theorem executes_of_exit {o : RunOutcome} (h : Compact.estimateMessagesTokens c.history ≤ 900)
    (hconsume : outcome (consumeStream {} c.items) c.asked =
      (.ok { toolAcc := c.acc, sawFinish := true }, c.asked))
    (hexit : c.decided.1 = .error o) :
    execute sampleSerde "s1".toList c.input c.plan c.session c.worker =
      executed o c.decided.2 := by
  have hrun : run c.request c.session { plan := c.plan } {} c.worker = (o, c.decided.2) :=
    run_of_exit rfl c.setup_limit.1 ((c.iterates h hconsume).trans (Prod.ext hexit rfl))
  have hexecute : execute sampleSerde "s1".toList c.input c.plan c.session c.worker =
      let result := run c.request c.session { plan := c.plan } {} c.worker
      ⟨result.1, result.2.session, result.2.store, result.2.tx.sent⟩ := rfl
  rw [hexecute, hrun]
  rfl

/-- The state behind the used up budget. -/
def exhausted : Except RunOutcome RunOutcome × RunState CheckpointWorker :=
  outcome (iterationsExhausted c.request c.setup) c.decided.2

theorem executes_of_exhausted {o : RunOutcome}
    (h : Compact.estimateMessagesTokens c.history ≤ 900)
    (hconsume : outcome (consumeStream {} c.items) c.asked =
      (.ok { toolAcc := c.acc, sawFinish := true }, c.asked))
    (hgoes : c.decided.1 = .ok ()) (hexit : c.exhausted.1 = .error o) :
    execute sampleSerde "s1".toList c.input c.plan c.session c.worker =
      executed o c.exhausted.2 := by
  have hrun : run c.request c.session { plan := c.plan } {} c.worker = (o, c.exhausted.2) :=
    run_of_exhausted rfl c.setup_limit.1 ((c.iterates h hconsume).trans (Prod.ext hgoes rfl))
      (Prod.ext hexit rfl)
  have hexecute : execute sampleSerde "s1".toList c.input c.plan c.session c.worker =
      let result := run c.request c.session { plan := c.plan } {} c.worker
      ⟨result.1, result.2.session, result.2.store, result.2.tx.sent⟩ := rfl
  rw [hexecute, hrun]
  rfl

end

end ReplanRun

/-- The server behind a run whose execution is known. -/
theorem streamSse_executed {st : ServerState} {input : RunInput} {initialPlan : Option PlanState}
    {e : Executed} (hid : ¬ ((trim input.runId).isEmpty = true ∨ 128 < byteLen (trim input.runId)))
    (htrim : trim input.runId = input.runId)
    (hplan : selectRunPlan st.active.session.plan input.request.planMode input.executePlan =
      .ok initialPlan)
    (haccepted : (!input.accepted || (clearsPlan st input && input.clearPlanFailure.isSome)) = false)
    (hstatus : (input.executePlan && input.setStatusFailure.isSome) = false) {marked : ServerState}
    (hmarked : markProcessing "s1".toList (clearPlan "s1".toList st input) input = marked)
    (hcursor : marked.active.persistedCount = marked.active.session.messages.length)
    (hexecute : execute sampleSerde "s1".toList input initialPlan marked.active.session
      (freshWorker marked input) = e) :
    (streamSse sampleSerde "s1".toList st input).2 =
      (finalizeRun sampleSerde "s1".toList input
        ((marked.db.sessions.find "s1".toList).any fun row => row.title.isNone)
        (DurableSessionSnapshot.capture marked.active.session) marked.active.persistedCount
        marked.active.session.messages.length e).2 := by
  have hinput : { input with runId := trim input.runId } = input := by rw [htrim]
  rw [streamSse_accepted hid hplan haccepted hstatus, hinput, hmarked, runTask_eq hcursor, finalized,
    hexecute]

def planRun : ReplanRun where
  planMode := true
  prompt := "Plan the measurement.".toList
  args := measureArgs
  runId := "r1".toList
  session := sampleSession []
  plan := none
  worker :=
    { db := freshDb
      persistedCount := 0
      expectedCount := 0
      title := some ("Plan the measurement.".toList.take 60) }

def awaitingApproval : RunOutcome where
  kind := .awaiting
  finalText := []
  awaiting := some "plan_approval".toList
  usage := {}
  iterations := 1

/-- The server behind the run that generates the plan, and behind the approval of the plan. -/
def plannedState : ServerState :=
  (finalizeRun sampleSerde "s1".toList planRun.input true
    (DurableSessionSnapshot.capture (sampleSession [])) 0 0
    (ReplanRun.executed awaitingApproval planRun.decided.2)).2

def approvedState : ServerState := (approvePlan sampleSerde "s1".toList [] none plannedState).2

theorem planRun_consumes : outcome (consumeStream {} planRun.items) planRun.asked =
    (.ok { toolAcc := planRun.acc, sawFinish := true }, planRun.asked) := rfl

theorem planRun_decided : planRun.decided.1 = .error awaitingApproval := by decide +kernel

theorem planned : (streamSse sampleSerde "s1".toList helloState planRun.input).2 = plannedState := by
  have hexecute := planRun.executes_of_exit (by decide +kernel) planRun_consumes planRun_decided
  have htrim : trim planRun.input.runId = planRun.input.runId := by decide
  have hid : ¬ ((trim planRun.input.runId).isEmpty = true ∨
      128 < byteLen (trim planRun.input.runId)) := by decide
  exact streamSse_executed hid htrim rfl rfl rfl rfl rfl hexecute

/-- The execution of the approved plan. -/
def executionOf (st : ServerState) : ReplanRun where
  planMode := false
  prompt := "Go on.".toList
  args := noStepsArgs
  runId := "r2".toList
  session := st.active.session
  plan := some measurePlan
  worker :=
    { db := st.db
      persistedCount := st.active.persistedCount
      expectedCount := st.active.persistedCount
      title := some ("Go on.".toList.take 60) }

def executeInput : RunInput := (executionOf helloState).input

def executingState : ServerState := markProcessing "s1".toList approvedState executeInput

def executionRun : ReplanRun := executionOf executingState

def usedUp : RunOutcome where
  kind := .maxIters
  finalText := []
  error := some "reached max iterations (1)".toList
  usage := {}
  iterations := 1

def executedState : ServerState :=
  (finalizeRun sampleSerde "s1".toList executeInput false
    (DurableSessionSnapshot.capture executingState.active.session) 3 3
    (ReplanRun.executed usedUp executionRun.exhausted.2)).2

theorem execution_consumes (st : ServerState) :
    outcome (consumeStream {} (executionOf st).items) (executionOf st).asked =
      (.ok { toolAcc := (executionOf st).acc, sawFinish := true }, (executionOf st).asked) := rfl

theorem executed_run : (streamSse sampleSerde "s1".toList approvedState executeInput).2 =
    executedState := by
  have hgoes : executionRun.decided.1 = .ok () := by decide +kernel
  have hexit : executionRun.exhausted.1 = .error usedUp := by decide +kernel
  have hexecute := executionRun.executes_of_exhausted (by decide +kernel)
    (execution_consumes executingState) hgoes hexit
  have htrim : trim executeInput.runId = executeInput.runId := by decide
  have hid : ¬ ((trim executeInput.runId).isEmpty = true ∨
      128 < byteLen (trim executeInput.runId)) := by decide
  have hplan : selectRunPlan approvedState.active.session.plan executeInput.request.planMode
      executeInput.executePlan = .ok (some measurePlan) := by decide +kernel
  have hcount : executingState.active.persistedCount = 3 := by decide +kernel
  have hlength : executingState.active.session.messages.length = 3 := by decide +kernel
  have htitle : ((executingState.db.sessions.find "s1".toList).any fun row => row.title.isNone) =
      false := by decide +kernel
  have hmarked : markProcessing "s1".toList (clearPlan "s1".toList approvedState executeInput)
      executeInput = executingState := rfl
  have hend := streamSse_executed hid htrim hplan rfl rfl hmarked (hcount.trans hlength.symm) hexecute
  rw [hend, htitle, hcount, hlength]
  rfl

def sampleRequests : List SessionRequest := [.run planRun.input, .approve [] none, .run executeInput]

/-- The history of the sample. -/
def sampleRecorded : Recorded :=
  Runs.run (Recorded.step sampleSerde "s1".toList) ⟨helloState, []⟩ sampleRequests

def callMessage (args : Text) : ChatMessage :=
  ChatMessage.ofAssistantToolCalls
    [ToolCall.ofFunction "call-1".toList "generate_plan".toList args]

def resultMessage (content : Text) (failed : Bool) : ChatMessage :=
  { ChatMessage.ofTool "call-1".toList content (some "generate_plan".toList) with
    isError := some failed }

def planTurn : Turn where
  prompt := planRun.prompt
  body := [callMessage measureArgs, resultMessage
    "plan generated (1 steps); run will pause for user approval.".toList false]
  plan := some { measurePlan with approved := false }

def executeTurn : Turn where
  prompt := executionRun.prompt
  body := [callMessage noStepsArgs, resultMessage "plan must have at least one step".toList true]
  plan := some measurePlan

theorem plannedState_session : plannedState.active.session.messages = planTurn.messages ∧
    plannedState.active.session.plan = planTurn.plan := by decide +kernel

theorem approvedState_session : approvedState.active.session.messages = planTurn.messages := by
  decide +kernel

theorem executedState_session :
    executedState.active.session.messages = planTurn.messages ++ executeTurn.messages ∧
      executedState.active.session.plan = executeTurn.plan := by decide +kernel

theorem sampleRecorded_eq : sampleRecorded = ⟨executedState, [planTurn, executeTurn]⟩ := by
  have hplanned : Recorded.step sampleSerde "s1".toList ⟨helloState, []⟩ (.run planRun.input) =
      ⟨plannedState, [planTurn]⟩ := by
    obtain ⟨hmessages, hplan⟩ := plannedState_session
    have hstep := @step_run ⟨helloState, []⟩ sampleSerde "s1".toList planRun.input plannedState _ _
      planned hmessages
    rw [hstep, hplan]
    rfl
  have happroved : Recorded.step sampleSerde "s1".toList ⟨plannedState, [planTurn]⟩
      (.approve [] none) = ⟨approvedState, [planTurn]⟩ := rfl
  have hexecuted : Recorded.step sampleSerde "s1".toList ⟨approvedState, [planTurn]⟩
      (.run executeInput) = ⟨executedState, [planTurn, executeTurn]⟩ := by
    obtain ⟨hmessages, hplan⟩ := executedState_session
    rw [← approvedState_session] at hmessages
    have hstep := @step_run ⟨approvedState, [planTurn]⟩ sampleSerde "s1".toList executeInput
      executedState _ _ executed_run hmessages
    rw [hstep, hplan]
    rfl
  rw [sampleRecorded, sampleRequests, run_cons, run_cons, run_cons, run_nil, hplanned, happroved,
    hexecuted]

/-- The plan of the sample comes from its first turn; its execution recalls the second prompt. -/
theorem executionPrompt_recalled :
    (∀ request ∈ sampleRequests, request.RunsTools planJson fun _ => []) ∧
    sampleRecorded.turns = [planTurn, executeTurn] ∧ planTurn.Produces planJson measurePlan ∧
    sampleRecorded.server.active.session.plan.filter planRequiresExecution = some measurePlan ∧
    findOriginalPlanRequest sampleRecorded.server.active.session.messages (some measurePlan) =
      some "Go on.".toList ∧
    trim planTurn.prompt = "Plan the measurement.".toList := by
  rw [sampleRecorded_eq]
  refine ⟨?_, rfl, ⟨_, rfl, ?_, rfl⟩, ?_, ?_, by decide⟩
  · simp only [sampleRequests, List.forall_mem_cons]
    exact ⟨⟨rfl, fun _ => planTasks_follow⟩, trivial, ⟨rfl, fun _ => planTasks_follow⟩,
      fun _ h => absurd h List.not_mem_nil⟩
  · refine ⟨_, List.mem_cons_self, rfl, _, List.mem_singleton_self _, rfl,
      ⟨_, List.mem_cons_of_mem _ (List.mem_singleton_self _), rfl, rfl, rfl⟩,
      ⟨["measure".toList], none⟩, ?_, rfl⟩
    decide +kernel
  · rw [executedState_session.2]
    decide
  · rw [executedState_session.1]
    decide +kernel

/-- The main theorem on the sample. -/
theorem original_request_recalled_sample :
    Always (Recorded.step sampleSerde "s1".toList) (RequestRecalled planJson) ⟨helloState, []⟩
      sampleRequests := by
  apply original_request_recalled_iff sampleSerde "s1".toList rfl rfl rfl
  simp only [sampleRequests, List.forall_mem_cons]
  exact ⟨⟨rfl, fun _ => planTasks_follow⟩, trivial, ⟨rfl, fun _ => planTasks_follow⟩,
    fun _ h => absurd h List.not_mem_nil⟩

end DeepseekScience.Api
