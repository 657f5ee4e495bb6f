import DeepseekScience.A2a.Invoke

/-! The budgets of an invocation: what one operation can do to it, the operations that leave the
process, and the numbers and the size of the recorded frames. -/
namespace DeepseekScience.A2a

open DeepseekScience.Core

variable {lib : A2aLib} {codec : SegmentCodec} {config : A2aAgentConfig}
  {interface : SelectedInterface} {registryAnonymous : Bool} {remote : Remote}
  {request : InvokeRequest} {op : RemoteOp} {run run' : Invocation}

/-- The run has sent one more operation, recorded the frame that answers it, and read it. -/
structure Answered (op : RemoteOp) (readings : List Reading) (run run' : Invocation) : Prop where
  sent : run'.sent = run.sent ++ [op]
  read : run'.readings = run.readings ++ readings
  recorded : ∃ frame result, pushFrame run.result frame = .ok result ∧
    run'.result.responses = result.responses

/-- What one operation can do, which is asked for under a name and with expected ids: it fails
unsent, without a frame or behind it, or its answer means something. -/
inductive Reports (op : RemoteOp) (name : Text) (expectedTask expectedContext : Option Text)
    (run : Invocation) : Invocation × Except A2aTerminal ResponseMeaning → Prop
  | unsent {terminal : A2aTerminal} (failed : terminal.success = false) :
    Reports op name expectedTask expectedContext run (run, .error terminal)
  | lost {terminal : A2aTerminal} (failed : terminal.success = false) :
    Reports op name expectedTask expectedContext run (run.push op, .error terminal)
  | refused {run' : Invocation} {terminal : A2aTerminal} (answered : Answered op [] run run')
    (failed : terminal.success = false) :
    Reports op name expectedTask expectedContext run (run', .error terminal)
  | mismatch {run' : Invocation} {named : TaskMeaning} {error : Text} {terminal : A2aTerminal}
    (answered : Answered op [.task named none] run run')
    (check : checkIdentity name expectedTask expectedContext named = .error error)
    (failed : terminal.success = false) :
    Reports op name expectedTask expectedContext run (run', .error terminal)
  | task {run' : Invocation} {named kept : TaskMeaning}
    (answered : Answered op [.task named (some kept)] run run')
    (check : checkIdentity name expectedTask expectedContext named = .ok kept) :
    Reports op name expectedTask expectedContext run (run', .ok (.task kept))
  | message {run' : Invocation} {contextId taskId : Option Text} (sends : op = .sendMessage taskId)
    (answered : Answered op [.message contextId] run run') :
    Reports op name expectedTask expectedContext run (run', .ok (.message contextId))
  | remoteError {run' : Invocation} {message : Text} (answered : Answered op [] run run') :
    Reports op name expectedTask expectedContext run (run', .ok (.remoteError message))

/-- An operation is not sent, sent in vain, or answered with a body of an allowed size. -/
theorem executeOperation_spec (remote : Remote) (interface : SelectedInterface) (op : RemoteOp)
    (run : Invocation) (operation : OutboundOperation) :
    (∃ error, executeOperation remote interface op operation run = (run, .error error)) ∨
    (∃ error, executeOperation remote interface op operation run = (run.push op, .error error)) ∨
    ∃ frame, executeOperation remote interface op operation run = (run.push op, .ok frame) := by
  rw [executeOperation]
  cases remote.reply run.result.responses.length with
  | expired => exact Or.inl ⟨_, rfl⟩
  | failed error => exact Or.inr (Or.inl ⟨_, rfl⟩)
  | body status payload wireBytes receivedAt =>
    dsimp only
    split_ifs
    · exact Or.inr (Or.inl ⟨_, rfl⟩)
    · exact Or.inr (Or.inr ⟨_, rfl⟩)

section
variable (lib : A2aLib) (codec : SegmentCodec) (config : A2aAgentConfig)
  (interface : SelectedInterface) (registryAnonymous : Bool) (remote : Remote)

theorem taskAndRecord_reports (call : TaskCall) (run : Invocation) (taskId : Text)
    (contextId state : Option Text) (requestId : Text) :
    Reports (call.op taskId) call.name (some taskId) contextId run
      (taskAndRecord config interface registryAnonymous remote call run taskId contextId state
        requestId) := by
  rw [taskAndRecord]
  cases call.build interface taskId requestId with
  | error error => exact .unsent rfl
  | ok operation =>
    dsimp only
    obtain ⟨error, h⟩ | ⟨error, h⟩ | ⟨frame, h⟩ := executeOperation_spec remote interface
      (call.op taskId) run operation
    · rw [h]
      cases error <;> exact .unsent rfl
    · rw [h]
      cases error <;> exact .lost rfl
    · rw [h]
      dsimp only
      cases hpush : pushFrame (run.push (call.op taskId)).result frame with
      | error error => exact .lost rfl
      | ok result =>
        have answered : Answered (call.op taskId) [] run
            { run.push (call.op taskId) with result := result } :=
          ⟨rfl, by simp [Invocation.push], frame, result, hpush, rfl⟩
        dsimp only
        split_ifs
        · exact .refused answered rfl
        · cases call.parse interface frame.payload frame.requestId with
          | error error => exact .refused answered rfl
          | ok meaning =>
            cases meaning with
            | message contextId => exact .refused answered rfl
            | remoteError message => exact .refused answered rfl
            | task named =>
              dsimp only
              cases hcheck : checkIdentity call.name (some taskId) contextId named with
              | error error => exact .mismatch ⟨rfl, rfl, frame, result, hpush, rfl⟩ hcheck rfl
              | ok kept => exact .task ⟨rfl, rfl, frame, result, hpush, rfl⟩ hcheck

theorem getTaskAndRecord_reports (run : Invocation) (taskId : Text)
    (contextId state : Option Text) (requestId : Text) :
    Reports (.getTask taskId) "GetTask".toList (some taskId) contextId run
      (getTaskAndRecord lib codec config interface registryAnonymous remote run taskId contextId
        state requestId) :=
  taskAndRecord_reports config interface registryAnonymous remote (getTaskCall lib codec) run
    taskId contextId state requestId

theorem cancelTaskAndRecord_reports (run : Invocation) (taskId : Text) (contextId : Option Text)
    (requestId : Text) :
    Reports (.cancelTask taskId) "CancelTask".toList (some taskId) contextId run
      (cancelTaskAndRecord lib codec config interface registryAnonymous remote run taskId contextId
        requestId) :=
  taskAndRecord_reports config interface registryAnonymous remote (cancelTaskCall lib codec) run
    taskId contextId none requestId

theorem sendAndRecord_reports (card : CardSnapshot) (request : InvokeRequest)
    (run : Invocation) :
    Reports (.sendMessage request.taskId) "SendMessage".toList (nonEmpty request.taskId)
      request.contextId run
      (sendAndRecord lib codec config interface registryAnonymous remote card request run) := by
  rw [sendAndRecord]
  cases negotiateOutputModes card.raw with
  | error error => exact .unsent rfl
  | ok modes =>
    dsimp only
    cases buildSend lib codec interface request remote.invocationId remote.messageId modes with
    | error error => exact .unsent rfl
    | ok operation =>
      dsimp only
      obtain ⟨error, h⟩ | ⟨error, h⟩ | ⟨frame, h⟩ := executeOperation_spec remote interface
        (.sendMessage request.taskId) run operation
      · rw [h]
        cases error <;> exact .unsent rfl
      · rw [h]
        cases error <;> exact .lost rfl
      · rw [h]
        dsimp only
        cases hpush : pushFrame (run.push (.sendMessage request.taskId)).result frame with
        | error error => exact .lost rfl
        | ok result =>
          dsimp only
          by_cases hstatus : frame.httpStatus < 200 ∨ 300 ≤ frame.httpStatus
          · rw [if_pos hstatus]
            exact .refused ⟨rfl, by simp [Invocation.push], frame, result, hpush, rfl⟩ rfl
          · rw [if_neg hstatus]
            generalize (if registryAnonymous then
              parseRegistrySendResponse interface frame.payload frame.requestId
              else (parseSendResponse interface frame.payload frame.requestId).map (·, false)) =
                parsed
            cases parsed with
            | error error =>
              exact .refused ⟨rfl, by simp [Invocation.push], frame, result, hpush, rfl⟩ rfl
            | ok parsed =>
              obtain ⟨said, fallback⟩ := parsed
              dsimp only
              generalize hrun : (if fallback = true then _ else _ : Invocation) = run'
              have hsent : run'.sent = run.sent ++ [.sendMessage request.taskId] := by
                subst hrun
                cases fallback <;> rfl
              have hread : run'.readings = run.readings := by
                subst hrun
                cases fallback <;> rfl
              have hresponses : run'.result.responses = result.responses := by
                subst hrun
                cases fallback <;> rfl
              have answered : ∀ reading, Answered (.sendMessage request.taskId) [reading] run
                  (run'.read reading) := fun reading =>
                ⟨hsent, congrArg (· ++ [reading]) hread, frame, result, hpush, hresponses⟩
              cases said with
              | message contextId => exact .message rfl (answered _)
              | remoteError message =>
                exact .remoteError ⟨hsent, by rw [hread, List.append_nil], frame, result, hpush,
                  hresponses⟩
              | task named =>
                dsimp only
                cases hcheck : checkIdentity "SendMessage".toList (nonEmpty request.taskId)
                    request.contextId named with
                | error error => exact .mismatch (answered _) hcheck rfl
                | ok kept => exact .task (answered _) hcheck

end

/-- What a terminal says of the meaning that ends an invocation. -/
def EndsIn : ResponseMeaning → A2aTerminal → Prop
  | .message contextId, terminal =>
    terminal.success = true ∧ terminal.taskId = none ∧ terminal.contextId = contextId
  | .remoteError _, terminal => terminal.success = false
  | .task task, terminal =>
    terminal.taskId = some task.taskId ∧ terminal.contextId = task.contextId

/-- The rule for the loop of the polls: `P` holds of every meaning that the loop comes to, with
the polls that are left, and `Q` holds at its end. -/
theorem pollTask_rule {P : ℕ → Invocation → ResponseMeaning → Prop} {Q : Invocation → Prop}
    (ends : ∀ polls run meaning terminal, P polls run meaning → EndsIn meaning terminal →
      Q (run.finish terminal))
    (polled : ∀ polls run task out, P (polls + 1) run (.task task) →
      Reports (.getTask task.taskId) "GetTask".toList (some task.taskId) task.contextId run out →
      match out with
      | (run', .ok meaning) => P polls run' meaning
      | (run', .error terminal) => Q (run'.finish terminal))
    {polls : ℕ} {run : Invocation} {meaning : ResponseMeaning} (h : P polls run meaning) :
    Q (pollTask lib codec config interface registryAnonymous remote request polls run meaning) := by
  induction polls generalizing run meaning with
  | zero =>
    cases meaning with
    | message contextId => exact ends _ _ _ _ h ⟨rfl, rfl, rfl⟩
    | remoteError message => exact ends _ _ _ _ h rfl
    | task task =>
      rw [pollTask]
      cases task.disposition <;> dsimp only
      case inProgress => split_ifs <;> exact ends _ _ _ _ h ⟨rfl, rfl⟩
      all_goals exact ends _ _ _ _ h ⟨rfl, rfl⟩
  | succ polls ih =>
    cases meaning with
    | message contextId => exact ends _ _ _ _ h ⟨rfl, rfl, rfl⟩
    | remoteError message => exact ends _ _ _ _ h rfl
    | task task =>
      rw [pollTask]
      cases task.disposition <;> dsimp only
      case inProgress =>
        split_ifs
        · exact ends _ _ _ _ h ⟨rfl, rfl⟩
        · exact ends _ _ _ _ h ⟨rfl, rfl⟩
        · have hout := polled polls run task _ h (getTaskAndRecord_reports lib codec config
            interface registryAnonymous remote run task.taskId task.contextId (some task.state)
            (remote.requestId run.result.responses.length))
          revert hout
          generalize getTaskAndRecord lib codec config interface registryAnonymous remote run
            task.taskId task.contextId (some task.state)
            (remote.requestId run.result.responses.length) = out
          obtain ⟨run', outcome⟩ := out
          intro hout
          cases outcome with
          | ok meaning => exact ih hout
          | error terminal => exact hout
      all_goals exact ends _ _ _ _ h ⟨rfl, rfl⟩

section
/-! The operations that leave the process. -/

/-- The operations that a request may send. -/
def AllowedOps (maxPolls : ℕ) (request : InvokeRequest) (sent : List RemoteOp) : Prop :=
  match request.action with
  | .send | .submit =>
    sent = [] ∨ ∃ ids : List Text, ids.length ≤ maxPolls ∧
      sent = .sendMessage request.taskId :: ids.map RemoteOp.getTask
  | .getTask => ∃ ids : List Text, ids.length ≤ maxPolls + 1 ∧ sent = ids.map RemoteOp.getTask
  | .cancelTask => sent = [] ∨ sent = [.cancelTask (request.taskId.getD [])]

@[simp] theorem finish_sent (terminal : A2aTerminal) : (run.finish terminal).sent = run.sent := rfl

@[simp] theorem finish_responses (terminal : A2aTerminal) :
    (run.finish terminal).result.responses = run.result.responses := rfl

@[simp] theorem finish_terminal (terminal : A2aTerminal) :
    (run.finish terminal).result.terminal = terminal := rfl

@[simp] theorem push_sent (op : RemoteOp) : (run.push op).sent = run.sent ++ [op] := rfl

@[simp] theorem push_result (op : RemoteOp) : (run.push op).result = run.result := rfl

variable {name : Text} {expectedTask expectedContext : Option Text} {terminal : A2aTerminal}
  {meaning : ResponseMeaning}

theorem Reports.sent_of_error (h : Reports op name expectedTask expectedContext run (run', .error terminal)) :
    run'.sent = run.sent ∨ run'.sent = run.sent ++ [op] := by
  cases h with
  | unsent failed => exact Or.inl rfl
  | lost failed => exact Or.inr rfl
  | refused answered failed => exact Or.inr answered.sent
  | mismatch answered check failed => exact Or.inr answered.sent

theorem Reports.sent_of_ok (h : Reports op name expectedTask expectedContext run (run', .ok meaning)) :
    run'.sent = run.sent ++ [op] := by
  cases h with
  | task answered check => exact answered.sent
  | message sends answered => exact answered.sent
  | remoteError answered => exact answered.sent

theorem pollTask_sent (lib : A2aLib) (codec : SegmentCodec) (config : A2aAgentConfig)
    (interface : SelectedInterface) (registryAnonymous : Bool) (remote : Remote)
    (request : InvokeRequest) (polls : ℕ) (run : Invocation) (meaning : ResponseMeaning) :
    ∃ ids : List Text, ids.length ≤ polls ∧
      (pollTask lib codec config interface registryAnonymous remote request polls run
        meaning).sent = run.sent ++ ids.map RemoteOp.getTask := by
  apply pollTask_rule
    (P := fun left now _ => ∃ ids : List Text, ids.length + left ≤ polls ∧
      now.sent = run.sent ++ ids.map RemoteOp.getTask)
    (Q := fun now => ∃ ids : List Text, ids.length ≤ polls ∧
      now.sent = run.sent ++ ids.map RemoteOp.getTask)
  · intro left now meaning terminal hnow hends
    obtain ⟨ids, hlength, hsent⟩ := hnow
    exact ⟨ids, by omega, hsent⟩
  · intro left now task out hnow hreports
    obtain ⟨ids, hlength, hsent⟩ := hnow
    obtain ⟨now', outcome⟩ := out
    have hmore : (ids ++ [task.taskId]).length + left ≤ polls := by
      rw [List.length_append, List.length_singleton]
      omega
    cases outcome with
    | ok meaning =>
      refine ⟨ids ++ [task.taskId], hmore, ?_⟩
      rw [hreports.sent_of_ok, hsent]
      simp
    | error terminal =>
      obtain h | h := hreports.sent_of_error
      · exact ⟨ids, by omega, by simp [h, hsent]⟩
      · exact ⟨ids ++ [task.taskId], by omega, by simp [h, hsent]⟩
  · exact ⟨[], by simp, by simp⟩

/-- The operation that an invocation begins with, and the polls behind its answer. -/
theorem settle_sent (lib : A2aLib) (codec : SegmentCodec) (config : A2aAgentConfig)
    (interface : SelectedInterface) (registryAnonymous : Bool) (remote : Remote)
    (request : InvokeRequest) (polls : ℕ) {out : Invocation × Except A2aTerminal ResponseMeaning}
    (h : Reports op name expectedTask expectedContext run out) :
    (settle lib codec config interface registryAnonymous remote request polls out).sent =
        run.sent ∨
      ∃ ids : List Text, ids.length ≤ polls ∧
        (settle lib codec config interface registryAnonymous remote request polls out).sent =
          run.sent ++ op :: ids.map RemoteOp.getTask := by
  obtain ⟨run', outcome⟩ := out
  cases outcome with
  | error terminal =>
    obtain hsent | hsent := h.sent_of_error
    · exact Or.inl hsent
    · exact Or.inr ⟨[], by simp, hsent⟩
  | ok meaning =>
    obtain ⟨ids, hlength, hsent⟩ := pollTask_sent lib codec config interface
      registryAnonymous remote request polls run' meaning
    exact Or.inr ⟨ids, hlength, by rw [settle, hsent, h.sent_of_ok]; simp⟩

theorem operate_sent (maxPolls : ℕ) (card : CardSnapshot) (hrun : run.sent = []) :
    AllowedOps maxPolls request
      (operate lib codec maxPolls config request registryAnonymous remote card run).sent := by
  have hsend := settle_sent lib codec config card.selectedInterface registryAnonymous remote request
    maxPolls (sendAndRecord_reports lib codec config card.selectedInterface registryAnonymous
      remote card request run)
  simp only [hrun, List.nil_append] at hsend
  rw [AllowedOps, operate]
  cases request.action with
  | send => exact hsend
  | submit => exact hsend
  | getTask =>
    obtain hsent | ⟨ids, hlength, hsent⟩ := settle_sent lib codec config card.selectedInterface
      registryAnonymous remote request maxPolls (getTaskAndRecord_reports lib codec config
        card.selectedInterface registryAnonymous remote run (request.taskId.getD [])
        request.contextId none remote.invocationId)
    · exact ⟨[], by simp, by simpa [hrun] using hsent⟩
    · refine ⟨request.taskId.getD [] :: ids, by simpa using hlength, ?_⟩
      simpa [hrun] using hsent
  | cancelTask =>
    have hcancel := cancelTaskAndRecord_reports lib codec config card.selectedInterface
      registryAnonymous remote run (request.taskId.getD []) request.contextId (remote.requestId 0)
    dsimp only
    revert hcancel
    generalize cancelTaskAndRecord lib codec config card.selectedInterface registryAnonymous
      remote run (request.taskId.getD []) request.contextId (remote.requestId 0) = out
    obtain ⟨run', outcome⟩ := out
    intro hcancel
    cases outcome with
    | error terminal =>
      have hsent := hcancel.sent_of_error
      rw [hrun] at hsent
      exact hsent
    | ok meaning =>
      have hsent := hcancel.sent_of_ok
      rw [hrun] at hsent
      cases meaning <;> exact Or.inr hsent

theorem AllowedOps.nil (maxPolls : ℕ) (request : InvokeRequest) :
    AllowedOps maxPolls request [] := by
  rw [AllowedOps]
  cases request.action with
  | send => exact Or.inl rfl
  | submit => exact Or.inl rfl
  | getTask => exact ⟨[], by simp, rfl⟩
  | cancelTask => exact Or.inl rfl

theorem gets_of_append {ids : List Text} {sent left : List RemoteOp}
    (h : sent ++ left = ids.map RemoteOp.getTask) :
    ∃ ids' : List Text, ids'.length ≤ ids.length ∧ sent = ids'.map RemoteOp.getTask := by
  obtain ⟨front, back, rfl, hfront, -⟩ := List.append_eq_map_iff.mp h
  exact ⟨front, by simp, hfront.symm⟩

/-- What is sent of the allowed operations before a call is dropped is allowed too. -/
theorem AllowedOps.of_append {maxPolls : ℕ} {sent left : List RemoteOp}
    (h : AllowedOps maxPolls request (sent ++ left)) : AllowedOps maxPolls request sent := by
  have hmessage : (sent ++ left = [] ∨ ∃ ids : List Text, ids.length ≤ maxPolls ∧
      sent ++ left = .sendMessage request.taskId :: ids.map RemoteOp.getTask) →
      sent = [] ∨ ∃ ids : List Text, ids.length ≤ maxPolls ∧
        sent = .sendMessage request.taskId :: ids.map RemoteOp.getTask := by
    rintro (hnil | ⟨ids, hlength, hops⟩)
    · exact Or.inl (List.append_eq_nil_iff.mp hnil).1
    · cases sent with
      | nil => exact Or.inl rfl
      | cons op sent =>
        rw [List.cons_append] at hops
        obtain ⟨rfl, hgets⟩ := List.cons.inj hops
        obtain ⟨ids', hlength', rfl⟩ := gets_of_append hgets
        exact Or.inr ⟨ids', by omega, rfl⟩
  rw [AllowedOps] at h ⊢
  cases haction : request.action <;> simp only [haction] at h ⊢
  case send => exact hmessage h
  case submit => exact hmessage h
  case getTask =>
    obtain ⟨ids, hlength, hops⟩ := h
    obtain ⟨ids', hlength', rfl⟩ := gets_of_append hops
    exact ⟨ids', by omega, rfl⟩
  case cancelTask =>
    obtain hnil | hops := h
    · exact Or.inl (List.append_eq_nil_iff.mp hnil).1
    · obtain ⟨h, -⟩ | ⟨h, -⟩ := List.append_eq_singleton_iff.mp hops
      · exact Or.inl h
      · exact Or.inr h

theorem invokeWithPolicy_sent (lib : A2aLib) (codec : SegmentCodec) (maxPolls : ℕ)
    (config : A2aAgentConfig) (request : InvokeRequest) (policy : Option RegistryInvocationPolicy)
    (remote : Remote) :
    AllowedOps maxPolls request
      (invokeWithPolicy lib codec maxPolls config request policy remote).sent := by
  rw [invokeWithPolicy]
  cases validateInvocation lib config request policy with
  | error error => exact AllowedOps.nil _ _
  | ok _ =>
    cases remote.card with
    | timedOut => exact AllowedOps.nil _ _
    | failed error => exact AllowedOps.nil _ _
    | card card warnings => exact operate_sent maxPolls card rfl

theorem invokeRegistryAnonymous_sent (lib : A2aLib) (codec : SegmentCodec) (maxPolls : ℕ)
    (config : A2aAgentConfig) (request : InvokeRequest) (policy : RegistryInvocationPolicy)
    (preflight : Option A2aError) (remote : Remote) :
    AllowedOps maxPolls request
      (invokeRegistryAnonymous lib codec maxPolls config request policy preflight remote).sent := by
  unfold invokeRegistryAnonymous
  dsimp only
  cases validateInvocation lib config request (some policy) with
  | error error => exact AllowedOps.nil _ _
  | ok _ =>
    cases preflight with
    | some error => exact AllowedOps.nil _ _
    | none => exact invokeWithPolicy_sent lib codec maxPolls config request (some policy) remote

end

section
/-! The frames that an invocation records. -/

/-- Frames with the numbers from one on, and no more bytes than an invocation accepts. -/
structure Recorded (responses : List ResponseFrame) : Prop where
  numbered : responses.map ResponseFrame.sequence = List.range' 1 responses.length
  bounded : acceptedBytes responses ≤ maxTotalResponseBytes

theorem recorded_nil : Recorded [] := ⟨rfl, by simp [acceptedBytes]⟩

theorem pushFrame_recorded {result pushed : A2aToolResult} {frame : ResponseFrame}
    (h : pushFrame result frame = .ok pushed) (hresult : Recorded result.responses) :
    Recorded pushed.responses := by
  rw [pushFrame] at h
  split_ifs at h with hbytes
  cases h
  constructor
  · simp only [List.map_append, hresult.numbered, List.map_cons, List.map_nil, List.length_append,
      List.length_singleton, List.range'_concat]
    simp [Nat.add_comm]
  · simp only [acceptedBytes, List.map_append, List.map_cons, List.map_nil, List.sum_append,
      List.sum_singleton] at hbytes ⊢
    omega

theorem Answered.recorded_run {readings : List Reading} (h : Answered op readings run run')
    (hrun : Recorded run.result.responses) : Recorded run'.result.responses := by
  obtain ⟨frame, result, hpush, hresponses⟩ := h.recorded
  rw [hresponses]
  exact pushFrame_recorded hpush hrun

variable {name : Text} {expectedTask expectedContext : Option Text}
  {out : Invocation × Except A2aTerminal ResponseMeaning}

theorem Reports.recorded (h : Reports op name expectedTask expectedContext run out) (hrun : Recorded run.result.responses) :
    Recorded out.1.result.responses := by
  cases h with
  | unsent failed => exact hrun
  | lost failed => exact hrun
  | refused answered failed => exact answered.recorded_run hrun
  | mismatch answered check failed => exact answered.recorded_run hrun
  | task answered check => exact answered.recorded_run hrun
  | message sends answered => exact answered.recorded_run hrun
  | remoteError answered => exact answered.recorded_run hrun

theorem pollTask_recorded {polls : ℕ} {meaning : ResponseMeaning}
    (hrun : Recorded run.result.responses) :
    Recorded (pollTask lib codec config interface registryAnonymous remote request polls run
      meaning).result.responses := by
  apply pollTask_rule (P := fun _ now _ => Recorded now.result.responses)
    (Q := fun now => Recorded now.result.responses)
  · intro _ now meaning terminal hnow hends
    exact hnow
  · intro left now task out hnow hreports
    obtain ⟨now', outcome⟩ := out
    have hnext := hreports.recorded hnow
    cases outcome <;> exact hnext
  · exact hrun

theorem settle_recorded {polls : ℕ} (h : Reports op name expectedTask expectedContext run out)
    (hrun : Recorded run.result.responses) :
    Recorded (settle lib codec config interface registryAnonymous remote request polls
      out).result.responses := by
  have hout := h.recorded hrun
  obtain ⟨run', outcome⟩ := out
  cases outcome with
  | error terminal => exact hout
  | ok meaning => exact pollTask_recorded hout

end
end DeepseekScience.A2a
