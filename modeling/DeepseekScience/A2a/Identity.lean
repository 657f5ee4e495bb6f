import DeepseekScience.A2a.Budget
import DeepseekScience.Lib.Runs

/-! The identity of an invocation: the task and the context that the client knows, from its request
or from an answer, and what becomes of them while further answers come in. -/
namespace DeepseekScience.A2a

open DeepseekScience.Core Runs

section
/-! What is known, and what should become of it. -/

def Reading.taskId : Reading → Option Text
  | .task named _ => some named.taskId
  | .message _ => none

/-- The context id of an answer, where it has one with something in it. -/
def Reading.contextId : Reading → Option Text
  | .task named _ => nonEmpty named.contextId
  | .message contextId => nonEmpty contextId

/-- The task that is known from the request, or else from the first answer that names one. -/
def knownTask (request : InvokeRequest) (readings : List Reading) : Option Text :=
  (nonEmpty request.taskId).or (readings.findSome? Reading.taskId)

def knownContext (request : InvokeRequest) (readings : List Reading) : Option Text :=
  (nonEmpty request.contextId).or (readings.findSome? Reading.contextId)

/-- The answer names another task or another context than the one that is known. -/
def Differs (request : InvokeRequest) (before : List Reading) (named : TaskMeaning) : Prop :=
  (∃ id, knownTask request before = some id ∧ id ≠ named.taskId) ∨
    ∃ known returned, knownContext request before = some known ∧
      nonEmpty named.contextId = some returned ∧ known ≠ returned

/-- The invocation keeps its identity: an answer with other ids ends it in an error, every other
answer leaves the client with what is known, and a successful terminal carries what is known. -/
structure KeepsIdentity (request : InvokeRequest) (run : Invocation) : Prop where
  mismatch : ∀ before named kept after, run.readings = before ++ .task named kept :: after →
    Differs request before named → kept = none
  ends : ∀ before named after, run.readings = before ++ .task named none :: after →
    after = [] ∧ run.result.terminal.success = false
  remembers : ∀ before named kept after,
    run.readings = before ++ .task named (some kept) :: after →
      knownTask request (before ++ [.task named (some kept)]) = some kept.taskId ∧
      knownContext request (before ++ [.task named (some kept)]) = nonEmpty kept.contextId
  terminal : run.result.terminal.success = true →
    (∀ id, knownTask request run.readings = some id → run.result.terminal.taskId = some id) ∧
      ∀ id, knownContext request run.readings = some id → run.result.terminal.contextId = some id

/-- What the answers must not do: name the task with an empty context id when a context is known,
or be a message where the request names a task, or a context that the message does not repeat. -/
structure AnswersKeep (request : InvokeRequest) (readings : List Reading) : Prop where
  contexts : ∀ before named kept after, readings = before ++ .task named kept :: after →
    (∀ id, knownTask request before = some id → id = named.taskId) →
      (knownContext request before).isSome = true → named.contextId ≠ some []
  messages : ∀ contextId, .message contextId ∈ readings → nonEmpty request.taskId = none ∧
    ∀ id, nonEmpty request.contextId = some id → contextId = some id

end

section
/-! The check of one answer. -/

variable {name : Text} {expectedTask expectedContext : Option Text} {named kept : TaskMeaning}
  {value : Option Text} {id : Text}

theorem nonEmpty_eq_some : nonEmpty value = some id ↔ value = some id ∧ id ≠ [] := by
  cases value with
  | none => simp [nonEmpty]
  | some text =>
    rw [nonEmpty, Option.filter_some]
    split_ifs with h
    · constructor
      · rintro ⟨⟩
        exact ⟨rfl, by rintro rfl; simp at h⟩
      · exact fun h => h.1
    · constructor
      · simp
      · rintro ⟨⟨⟩, hne⟩
        simp [hne] at h

@[simp] theorem nonEmpty_nonEmpty : nonEmpty (nonEmpty value) = nonEmpty value := by
  cases value with
  | none => rfl
  | some text => cases text <;> rfl

theorem checkIdentity_eq_ok : checkIdentity name expectedTask expectedContext named = .ok kept ↔
    (∀ id, expectedTask = some id → id = named.taskId) ∧
    (∀ known returned, nonEmpty expectedContext = some known →
      nonEmpty named.contextId = some returned → known = returned) ∧
    kept = { named with contextId := named.contextId.or (nonEmpty expectedContext) } := by
  rw [checkIdentity]
  split_ifs with htask hcontext
  · constructor
    · simp
    · rintro ⟨hid, -, -⟩
      cases expectedTask with
      | none => simp at htask
      | some id => simp [hid id rfl] at htask
  · constructor
    · simp
    · rintro ⟨-, hids, -⟩
      cases hexpected : nonEmpty expectedContext with
      | none => simp [hexpected] at hcontext
      | some known =>
        cases hreturned : nonEmpty named.contextId with
        | none => simp [hexpected, hreturned] at hcontext
        | some returned =>
          simp [hexpected, hreturned, hids known returned hexpected hreturned] at hcontext
  · rw [Except.ok.injEq]
    constructor
    · rintro rfl
      refine ⟨?_, ?_, rfl⟩
      · rintro id rfl
        simpa using htask
      · intro known returned hexpected hreturned
        simpa [hexpected, hreturned] using hcontext
    · rintro ⟨-, -, rfl⟩
      rfl

/-- What an answer that was not refused leaves of the contexts, unless it hides the known one. -/
theorem nonEmpty_carried {returned expected : Option Text}
    (hsame : ∀ known id, nonEmpty expected = some known → nonEmpty returned = some id → known = id)
    (hvisible : (nonEmpty expected).isSome = true → returned ≠ some []) :
    nonEmpty (returned.or (nonEmpty expected)) = (nonEmpty expected).or (nonEmpty returned) := by
  cases returned with
  | none => simp [nonEmpty]
  | some id =>
    rw [Option.some_or]
    cases hexpected : nonEmpty expected with
    | none => rfl
    | some known =>
      have hne : id ≠ [] := by
        rintro rfl
        exact hvisible (by rw [hexpected]; rfl) rfl
      have hid : nonEmpty (some id) = some id := nonEmpty_eq_some.mpr ⟨rfl, hne⟩
      rw [hid, hsame known id hexpected hid, Option.some_or]

end

section
/-! What the client holds while the answers come in. -/

variable {request : InvokeRequest} {readings : List Reading} {held : Option TaskMeaning}
  {named kept : TaskMeaning}

/-- The ids that the next answer is checked against. -/
def expectedTask (request : InvokeRequest) : Option TaskMeaning → Option Text
  | none => nonEmpty request.taskId
  | some task => some task.taskId

def expectedContext (request : InvokeRequest) : Option TaskMeaning → Option Text
  | none => request.contextId
  | some task => task.contextId

/-- The answers so far, each checked against what the client held of the one before. -/
inductive Threads (request : InvokeRequest) : List Reading → Option TaskMeaning → Prop
  | nil : Threads request [] none
  | snoc {readings : List Reading} {held : Option TaskMeaning} {name : Text}
    {named kept : TaskMeaning} (threads : Threads request readings held)
    (check : checkIdentity name (expectedTask request held) (expectedContext request held) named =
      .ok kept) : Threads request (readings ++ [.task named (some kept)]) (some kept)

/-- How an invocation can end: behind the answers it kept, with one that it did not keep, or with
a message. -/
inductive Closes (request : InvokeRequest) (run : Invocation) : Prop
  | held {held : Option TaskMeaning} (threads : Threads request run.readings held)
    (ends : run.result.terminal.success = true → ∃ task, held = some task ∧
      run.result.terminal.taskId = some task.taskId ∧
      run.result.terminal.contextId = task.contextId)
  | rejected {readings : List Reading} {held : Option TaskMeaning} {name error : Text}
    {named : TaskMeaning} (threads : Threads request readings held)
    (check : checkIdentity name (expectedTask request held) (expectedContext request held) named =
      .error error) (read : run.readings = readings ++ [.task named none])
    (failed : run.result.terminal.success = false)
  | message {contextId : Option Text} (read : run.readings = [.message contextId])
    (success : run.result.terminal.success = true) (task : run.result.terminal.taskId = none)
    (context : run.result.terminal.contextId = contextId)

theorem knownTask_append (reading : Reading) :
    knownTask request (readings ++ [reading]) =
      (knownTask request readings).or reading.taskId := by
  simp [knownTask, List.findSome?_append, Option.or_assoc]

theorem knownContext_append (reading : Reading) :
    knownContext request (readings ++ [reading]) =
      (knownContext request readings).or reading.contextId := by
  simp [knownContext, List.findSome?_append, Option.or_assoc]

/-- The client always knows the task. -/
theorem Threads.task (h : Threads request readings held) :
    expectedTask request held = knownTask request readings := by
  induction h with
  | nil => simp [expectedTask, knownTask]
  | @snoc readings held name named kept threads check ih =>
    obtain ⟨htask, -, rfl⟩ := checkIdentity_eq_ok.mp check
    rw [knownTask_append, ← ih]
    cases hexpected : expectedTask request held with
    | none => rfl
    | some id =>
      rw [Option.some_or, htask id hexpected]
      rfl

/-- The client knows the context as long as no answer has an empty one behind it. -/
theorem Threads.context (h : Threads request readings held) (hkeep : AnswersKeep request readings) :
    nonEmpty (expectedContext request held) = knownContext request readings := by
  induction h with
  | nil => simp [expectedContext, knownContext]
  | @snoc readings held name named kept threads check ih =>
    have hbefore : AnswersKeep request readings := by
      refine ⟨fun before named kept after hsplit => ?_, fun contextId hmem => ?_⟩
      · exact hkeep.contexts before named kept (after ++ _) (by rw [hsplit]; simp; rfl)
      · exact hkeep.messages contextId (List.mem_append_left _ hmem)
    have hvisible := hkeep.contexts readings named (some kept) [] rfl
    obtain ⟨htask, hsame, rfl⟩ := checkIdentity_eq_ok.mp check
    rw [← threads.task, ← ih hbefore] at hvisible
    rw [knownContext_append, ← ih hbefore]
    exact nonEmpty_carried hsame (hvisible htask)

/-- Every answer that was kept was checked against what the answers before it had left. -/
theorem Threads.split (h : Threads request readings held) {before after : List Reading}
    {reading : Reading} (hsplit : readings = before ++ reading :: after) :
    ∃ held name named kept, Threads request before held ∧ reading = .task named (some kept) ∧
      checkIdentity name (expectedTask request held) (expectedContext request held) named =
        .ok kept := by
  induction h generalizing after with
  | nil => simp at hsplit
  | @snoc readings held name named kept threads check ih =>
    obtain ⟨-, rfl, rfl⟩ | ⟨rest, -, hrest⟩ := concat_eq_split.mp hsplit
    · exact ⟨held, name, named, kept, threads, rfl, check⟩
    · exact ih hrest

end

section
/-! How an invocation ends. -/

variable {lib : A2aLib} {codec : SegmentCodec} {config : A2aAgentConfig}
  {interface : SelectedInterface} {registryAnonymous : Bool} {remote : Remote}
  {request : InvokeRequest} {op : RemoteOp} {name : Text} {run run' : Invocation}
  {held : Option TaskMeaning} {terminal : A2aTerminal}

/-- The meaning that an invocation has come to, with the answers behind it. -/
def Holds (request : InvokeRequest) (run : Invocation) : ResponseMeaning → Prop
  | .task task => Threads request run.readings (some task)
  | .message contextId => run.readings = [.message contextId]
  | .remoteError _ => ∃ held, Threads request run.readings held

@[simp] theorem finish_readings : (run.finish terminal).readings = run.readings := rfl

@[simp] theorem push_readings : (run.push op).readings = run.readings := rfl

theorem closes_of_failed (h : Threads request run.readings held)
    (hfailed : terminal.success = false) : Closes request (run.finish terminal) :=
  .held h fun hsuccess => by simp [hfailed] at hsuccess

/-- An operation that is checked against what the client holds goes on with what it leaves, or
ends the invocation. -/
theorem Reports.closes_of_error (held : Option TaskMeaning)
    (h : Reports op name (expectedTask request held) (expectedContext request held) run
      (run', .error terminal))
    (hrun : Threads request run.readings held) : Closes request (run'.finish terminal) := by
  cases h with
  | unsent failed => exact closes_of_failed hrun failed
  | lost failed => exact closes_of_failed hrun failed
  | refused answered failed =>
    have hread := answered.read
    rw [List.append_nil] at hread
    exact closes_of_failed (hread ▸ hrun) failed
  | mismatch answered check failed => exact .rejected hrun check answered.read failed

theorem Reports.holds_of_ok (held : Option TaskMeaning) {meaning : ResponseMeaning}
    (h : Reports op name (expectedTask request held) (expectedContext request held) run
      (run', .ok meaning))
    (hrun : Threads request run.readings held)
    (hmessage : ∀ taskId, op = .sendMessage taskId → run.readings = []) :
    Holds request run' meaning := by
  cases h with
  | task answered check =>
    show Threads request run'.readings _
    rw [answered.read]
    exact hrun.snoc check
  | message sends answered =>
    show run'.readings = _
    rw [answered.read, hmessage _ sends, List.nil_append]
  | remoteError answered =>
    have hread := answered.read
    rw [List.append_nil] at hread
    exact ⟨held, hread ▸ hrun⟩

theorem closes_of_ends {meaning : ResponseMeaning} (h : Holds request run meaning)
    (hends : EndsIn meaning terminal) (hmessage : ∀ contextId, meaning = .message contextId →
      terminal.success = true) : Closes request (run.finish terminal) := by
  cases meaning with
  | task task => exact .held h fun _ => ⟨task, rfl, hends.1, hends.2⟩
  | message contextId => exact .message h (hmessage contextId rfl) hends.2.1 hends.2.2
  | remoteError message =>
    obtain ⟨held, hheld⟩ := h
    exact closes_of_failed hheld hends

theorem pollTask_closes {polls : ℕ} {meaning : ResponseMeaning} (h : Holds request run meaning) :
    Closes request (pollTask lib codec config interface registryAnonymous remote request polls run
      meaning) := by
  apply pollTask_rule (P := fun _ now meaning => Holds request now meaning)
    (Q := fun now => Closes request now)
  · intro _ now meaning terminal hnow hends
    refine closes_of_ends hnow hends ?_
    rintro contextId rfl
    exact hends.1
  · intro _ now task out hnow hreports
    obtain ⟨now', outcome⟩ := out
    cases outcome with
    | ok meaning =>
      exact hreports.holds_of_ok (some task) hnow (by simp)
    | error terminal => exact hreports.closes_of_error (some task) hnow
  · exact h

theorem settle_closes {polls : ℕ} {out : Invocation × Except A2aTerminal ResponseMeaning}
    (h : Reports op name (expectedTask request none) (expectedContext request none) run out)
    (hrun : run.readings = []) :
    Closes request
      (settle lib codec config interface registryAnonymous remote request polls out) := by
  have hthreads : Threads request run.readings none := hrun ▸ .nil
  obtain ⟨run', outcome⟩ := out
  cases outcome with
  | ok meaning => exact pollTask_closes (h.holds_of_ok none hthreads fun _ _ => hrun)
  | error terminal => exact h.closes_of_error none hthreads

theorem cancelTerminal_ids (task : TaskMeaning) :
    (cancelTerminal task).taskId = some task.taskId ∧
      (cancelTerminal task).contextId = task.contextId := by
  rw [cancelTerminal]
  split_ifs
  · exact ⟨rfl, rfl⟩
  · cases task.disposition <;> exact ⟨rfl, rfl⟩

/-- A checked request that asks for a task names it. -/
theorem taskId_of_validate (h : request.validate = .ok ())
    (haction : request.action = .getTask ∨ request.action = .cancelTask) :
    nonEmpty request.taskId = some (request.taskId.getD []) := by
  unfold InvokeRequest.validate at h
  split_ifs at h with _ _ hmissing
  · obtain ⟨_, -, h⟩ := Transactions.bind_eq_ok.mp h
    cases h
  · cases htaskId : request.taskId with
    | none => simp [htaskId, haction] at hmissing
    | some id =>
      have hne : id ≠ [] := by
        rintro rfl
        exact hmissing ⟨haction, by rw [htaskId]; rfl⟩
      exact nonEmpty_eq_some.mpr ⟨rfl, hne⟩

theorem operate_closes {maxPolls : ℕ} {card : CardSnapshot} (hrun : run.readings = [])
    (htask : request.action = .getTask ∨ request.action = .cancelTask →
      nonEmpty request.taskId = some (request.taskId.getD [])) :
    Closes request
      (operate lib codec maxPolls config request registryAnonymous remote card run) := by
  have hsend : Closes request (settle lib codec config card.selectedInterface registryAnonymous
      remote request maxPolls (sendAndRecord lib codec config card.selectedInterface
        registryAnonymous remote card request run)) :=
    settle_closes (sendAndRecord_reports lib codec config card.selectedInterface
      registryAnonymous remote card request run) hrun
  rw [operate]
  cases haction : request.action with
  | send => exact hsend
  | submit => exact hsend
  | getTask =>
    have hreports := getTaskAndRecord_reports lib codec config card.selectedInterface
      registryAnonymous remote run (request.taskId.getD []) request.contextId none
      remote.invocationId
    rw [← htask (Or.inl haction)] at hreports
    exact settle_closes hreports hrun
  | cancelTask =>
    have hreports := cancelTaskAndRecord_reports lib codec config card.selectedInterface
      registryAnonymous remote run (request.taskId.getD []) request.contextId (remote.requestId 0)
    rw [← htask (Or.inr haction)] at hreports
    have hthreads : Threads request run.readings none := hrun ▸ .nil
    dsimp only
    revert hreports
    generalize cancelTaskAndRecord lib codec config card.selectedInterface registryAnonymous
      remote run (request.taskId.getD []) request.contextId (remote.requestId 0) = out
    obtain ⟨run', outcome⟩ := out
    intro hreports
    cases outcome with
    | error terminal => exact hreports.closes_of_error none hthreads
    | ok meaning =>
      have hholds := hreports.holds_of_ok none hthreads (by simp)
      cases meaning with
      | task task =>
        obtain ⟨hid, hcontext⟩ := cancelTerminal_ids task
        exact .held hholds fun _ => ⟨task, rfl, hid, hcontext⟩
      | message contextId => cases hreports with | message sends answered => cases sends
      | remoteError message =>
        obtain ⟨held, hheld⟩ := hholds
        exact closes_of_failed hheld rfl

theorem invokeWithPolicy_closes (lib : A2aLib) (codec : SegmentCodec) (maxPolls : ℕ)
    (config : A2aAgentConfig) (request : InvokeRequest) (policy : Option RegistryInvocationPolicy)
    (remote : Remote) :
    Closes request (invokeWithPolicy lib codec maxPolls config request policy remote) := by
  have hnothing : Threads request [] none := .nil
  rw [invokeWithPolicy]
  cases hvalid : validateInvocation lib config request policy with
  | error error => exact closes_of_failed hnothing rfl
  | ok _ =>
    cases remote.card with
    | timedOut => exact closes_of_failed hnothing rfl
    | failed error => exact closes_of_failed hnothing rfl
    | card card warnings =>
      refine operate_closes rfl (taskId_of_validate ?_)
      unfold validateInvocation at hvalid
      obtain ⟨_, -, hvalid⟩ := Transactions.bind_eq_ok.mp hvalid
      obtain ⟨_, hrequest, -⟩ := Transactions.bind_eq_ok.mp hvalid
      exact hrequest

end

section
/-! When an invocation keeps its identity. -/

variable {request : InvokeRequest} {run : Invocation} {readings before after : List Reading}
  {held : Option TaskMeaning} {named : TaskMeaning} {kept : Option TaskMeaning} {reading : Reading}

theorem AnswersKeep.init {later : List Reading} (h : AnswersKeep request (readings ++ later)) :
    AnswersKeep request readings := by
  constructor
  · intro before named kept after hsplit
    exact h.contexts before named kept (after ++ later) (by simp [hsplit])
  · intro contextId hmem
    exact h.messages contextId (List.mem_append_left later hmem)

/-- An answer that was kept had no other ids, and left what was known then. -/
theorem Threads.keeps (h : Threads request readings held) (hkeep : AnswersKeep request readings)
    (hsplit : readings = before ++ .task named kept :: after) :
    ∃ task, kept = some task ∧ ¬ Differs request before named ∧
      knownTask request (before ++ [.task named kept]) = some task.taskId ∧
      knownContext request (before ++ [.task named kept]) = nonEmpty task.contextId := by
  obtain ⟨held', name, named', task, threads, hreading, check⟩ := h.split hsplit
  cases hreading
  have hupto : readings = (before ++ [.task named (some task)]) ++ after := by simp [hsplit]
  have hthrough : AnswersKeep request (before ++ [.task named (some task)]) :=
    AnswersKeep.init (hupto ▸ hkeep)
  have hnext := threads.snoc check
  refine ⟨task, rfl, ?_, hnext.task.symm, (hnext.context hthrough).symm⟩
  obtain ⟨htask, hcontext, -⟩ := checkIdentity_eq_ok.mp check
  rw [threads.task] at htask
  rw [threads.context hthrough.init] at hcontext
  rintro (⟨id, hknown, hne⟩ | ⟨known, returned, hknown, hreturned, hne⟩)
  · exact hne (htask id hknown)
  · exact hne (hcontext known returned hknown hreturned)

/-- An empty context id of an answer that was kept stands in the place of the known one. -/
theorem Threads.forgets (h : Threads request readings held)
    (hsplit : readings = before ++ .task named kept :: after) (hempty : named.contextId = some []) :
    ∃ task, kept = some task ∧ task.contextId = some [] := by
  obtain ⟨held', name, named', task, -, hreading, check⟩ := h.split hsplit
  cases hreading
  obtain ⟨-, -, rfl⟩ := checkIdentity_eq_ok.mp check
  exact ⟨_, rfl, by rw [hempty]; rfl⟩

theorem Threads.no_message {contextId : Option Text} (h : Threads request readings held) :
    .message contextId ∉ readings := by
  intro hmem
  obtain ⟨before, after, hsplit⟩ := List.append_of_mem hmem
  obtain ⟨_, _, _, _, -, hreading, -⟩ := h.split hsplit
  cases hreading

theorem not_message {contextId : Option Text}
    (h : [.message contextId] = before ++ .task named kept :: after) : False := by
  have hmem : Reading.task named kept ∈ [.message contextId] := by simp [h]
  simp at hmem

theorem Closes.keepsIdentity (h : Closes request run) (hkeep : AnswersKeep request run.readings) :
    KeepsIdentity request run := by
  cases h with
  | held threads ends =>
    constructor
    · intro before named kept after hsplit hdiffers
      obtain ⟨task, -, hsame, -⟩ := threads.keeps hkeep hsplit
      exact absurd hdiffers hsame
    · intro before named after hsplit
      obtain ⟨task, hnone, -⟩ := threads.keeps hkeep hsplit
      cases hnone
    · intro before named kept after hsplit
      obtain ⟨task, htask, -, hknown⟩ := threads.keeps hkeep hsplit
      cases htask
      exact hknown
    · intro hsuccess
      obtain ⟨task, rfl, htask, hcontext⟩ := ends hsuccess
      rw [← threads.task, ← threads.context hkeep, htask, hcontext]
      exact ⟨fun id hid => hid, fun id hid => (nonEmpty_eq_some.mp hid).1⟩
  | rejected threads check read failed =>
    rw [read] at hkeep
    have hinit := hkeep.init
    constructor
    · intro before named kept after hsplit hdiffers
      rw [read] at hsplit
      obtain ⟨-, -, hlast⟩ | ⟨rest, -, hrest⟩ := concat_eq_split.mp hsplit
      · cases hlast
        rfl
      · obtain ⟨task, -, hsame, -⟩ := threads.keeps hinit hrest
        exact absurd hdiffers hsame
    · intro before named after hsplit
      rw [read] at hsplit
      obtain ⟨hnil, -, -⟩ | ⟨rest, -, hrest⟩ := concat_eq_split.mp hsplit
      · exact ⟨hnil, failed⟩
      · obtain ⟨task, hnone, -⟩ := threads.keeps hinit hrest
        cases hnone
    · intro before named kept after hsplit
      rw [read] at hsplit
      obtain ⟨-, -, hlast⟩ | ⟨rest, -, hrest⟩ := concat_eq_split.mp hsplit
      · cases hlast
      · obtain ⟨task, htask, -, hknown⟩ := threads.keeps hinit hrest
        cases htask
        exact hknown
    · intro hsuccess
      simp [failed] at hsuccess
  | @message contextId read success task context =>
    obtain ⟨htask, hcontext⟩ := hkeep.messages contextId (by simp [read])
    constructor
    · intro before named kept after hsplit
      exact (not_message (read ▸ hsplit)).elim
    · intro before named after hsplit
      exact (not_message (read ▸ hsplit)).elim
    · intro before named kept after hsplit
      exact (not_message (read ▸ hsplit)).elim
    · intro _
      rw [read, context]
      constructor
      · intro id hid
        simp [knownTask, htask, Reading.taskId] at hid
      · intro id hid
        cases hknown : nonEmpty request.contextId with
        | some known =>
          have hsame : known = id := by simpa [knownContext, hknown] using hid
          exact hsame ▸ hcontext known hknown
        | none =>
          have hread : nonEmpty contextId = some id := by
            simpa [knownContext, hknown, Reading.contextId] using hid
          exact (nonEmpty_eq_some.mp hread).1

/-- An answer that hides the known context leaves the client with none. -/
theorem KeepsIdentity.not_hidden (h : KeepsIdentity request run)
    (hthreads : Threads request readings held)
    (hsplit : readings = before ++ .task named kept :: after)
    {later : List Reading} (hread : run.readings = readings ++ later)
    (hknown : (knownContext request before).isSome = true) : named.contextId ≠ some [] := by
  intro hempty
  obtain ⟨task, rfl, hcontext⟩ := hthreads.forgets hsplit hempty
  obtain ⟨-, hleft⟩ := h.remembers before named task (after ++ later) (by simp [hread, hsplit])
  have hnone : nonEmpty (some []) = none := rfl
  rw [knownContext_append, hcontext, hnone, Option.or_eq_none_iff] at hleft
  simp [hleft.1] at hknown

theorem Closes.answersKeep (h : Closes request run) (hkeep : KeepsIdentity request run) :
    AnswersKeep request run.readings := by
  cases h with
  | held threads ends =>
    constructor
    · intro before named kept after hsplit _ hknown
      exact hkeep.not_hidden threads hsplit (List.append_nil _).symm hknown
    · intro contextId hmem
      exact absurd hmem threads.no_message
  | rejected threads check read failed =>
    constructor
    · intro before named kept after hsplit htask hknown
      rw [read] at hsplit
      obtain ⟨-, rfl, hlast⟩ | ⟨rest, -, hrest⟩ := concat_eq_split.mp hsplit
      · cases hlast
        intro hempty
        rw [← threads.task] at htask
        rw [checkIdentity_eq_ok.mpr ⟨htask, by simp [hempty, nonEmpty], rfl⟩] at check
        cases check
      · exact hkeep.not_hidden threads hrest read hknown
    · intro contextId hmem
      rw [read, List.mem_append] at hmem
      obtain hmem | hmem := hmem
      · exact absurd hmem threads.no_message
      · simp at hmem
  | @message contextId read success task context =>
    obtain ⟨hids, hcontexts⟩ := hkeep.terminal success
    constructor
    · intro before named kept after hsplit
      exact (not_message (read ▸ hsplit)).elim
    · intro other hmem
      simp only [read, List.mem_singleton, Reading.message.injEq] at hmem
      subst hmem
      constructor
      · cases hknown : nonEmpty request.taskId with
        | none => rfl
        | some id =>
          have hid := hids id (by simp [knownTask, hknown])
          simp [task] at hid
      · intro id hid
        rw [← context]
        exact hcontexts id (by simp [knownContext, hid])

end

section
/-! The contract of an invocation. -/

variable {lib : A2aLib} {codec : SegmentCodec} {config : A2aAgentConfig} {remote : Remote}
  {request : InvokeRequest} {run : Invocation} {registryAnonymous : Bool}

theorem operate_recorded {maxPolls : ℕ} {card : CardSnapshot}
    (hrun : Recorded run.result.responses) :
    Recorded (operate lib codec maxPolls config request registryAnonymous remote card
      run).result.responses := by
  have hsend : Recorded (settle lib codec config card.selectedInterface registryAnonymous remote
      request maxPolls (sendAndRecord lib codec config card.selectedInterface registryAnonymous
        remote card request run)).result.responses :=
    settle_recorded (sendAndRecord_reports lib codec config card.selectedInterface
      registryAnonymous remote card request run) hrun
  rw [operate]
  cases request.action with
  | send => exact hsend
  | submit => exact hsend
  | getTask =>
    exact settle_recorded (getTaskAndRecord_reports lib codec config card.selectedInterface
      registryAnonymous remote run (request.taskId.getD []) request.contextId none
      remote.invocationId) hrun
  | cancelTask =>
    have hcancel := (cancelTaskAndRecord_reports lib codec config card.selectedInterface
      registryAnonymous remote run (request.taskId.getD []) request.contextId
      (remote.requestId 0)).recorded hrun
    dsimp only
    revert hcancel
    generalize cancelTaskAndRecord lib codec config card.selectedInterface registryAnonymous
      remote run (request.taskId.getD []) request.contextId (remote.requestId 0) = out
    obtain ⟨run', outcome⟩ := out
    intro hcancel
    cases outcome with
    | error terminal => exact hcancel
    | ok meaning => cases meaning <;> exact hcancel

theorem invokeWithPolicy_recorded (lib : A2aLib) (codec : SegmentCodec) (maxPolls : ℕ)
    (config : A2aAgentConfig) (request : InvokeRequest) (policy : Option RegistryInvocationPolicy)
    (remote : Remote) :
    Recorded (invokeWithPolicy lib codec maxPolls config request policy
      remote).result.responses := by
  rw [invokeWithPolicy]
  cases validateInvocation lib config request policy with
  | error error => exact recorded_nil
  | ok _ =>
    cases remote.card with
    | timedOut => exact recorded_nil
    | failed error => exact recorded_nil
    | card card warnings => exact operate_recorded recorded_nil

/-- What an invocation promises: its operations and its frames stay within their budgets, and it
keeps the identity of its task and its context. -/
structure KeepsContract (maxPolls : ℕ) (request : InvokeRequest) (run : Invocation) : Prop where
  operations : AllowedOps maxPolls request run.sent
  frames : Recorded run.result.responses
  identity : KeepsIdentity request run

/-- The budgets hold whatever the remote side answers. The identity is kept just when no answer
hides a known context behind an empty id, and no message comes where a task was asked for. -/
theorem invokeWithPolicy_contract (lib : A2aLib) (codec : SegmentCodec) (maxPolls : ℕ)
    (config : A2aAgentConfig) (request : InvokeRequest) (policy : Option RegistryInvocationPolicy)
    (remote : Remote) :
    KeepsContract maxPolls request
        (invokeWithPolicy lib codec maxPolls config request policy remote) ↔
      AnswersKeep request
        (invokeWithPolicy lib codec maxPolls config request policy remote).readings := by
  have hcloses := invokeWithPolicy_closes lib codec maxPolls config request policy remote
  constructor
  · intro h
    exact hcloses.answersKeep h.identity
  · intro h
    constructor
    · exact invokeWithPolicy_sent lib codec maxPolls config request policy remote
    · exact invokeWithPolicy_recorded lib codec maxPolls config request policy remote
    · exact hcloses.keepsIdentity h

/-! A sample agent, whose answer has an empty context id. -/

def sampleAgent : A2aAgentConfig where
  id := "agent".toList
  name := "Agent".toList
  endpoint := sampleEndpoint

def sampleCard : CardSnapshot where
  cardUrl := sampleEndpoint
  fetchedAt := []
  sha256 := []
  refreshKind := .modified
  etag := none
  lastModified := none
  summary := ⟨[], [], [], .v1, false, []⟩
  selectedInterface := ⟨sampleEndpoint, .httpJson, .v1, none⟩
  raw := .object [("defaultOutputModes".toList, .array [.string "text/plain".toList])]

def forgetfulRemote : Remote where
  invocationId := "call-1".toList
  messageId := "message-1".toList
  requestId _ := "call-2".toList
  card := .card sampleCard []
  reply _ := .body 200
    (.object [("task".toList, .object [("id".toList, .string "task-1".toList),
      ("contextId".toList, .string []),
      ("status".toList, .object [("state".toList, .string "TASK_STATE_COMPLETED".toList)])])]) 90 []
  late _ := false

def continuedRequest : InvokeRequest where
  action := .send
  task := "go on".toList
  contextId := some "context-1".toList
  timeoutSeconds := some sampleAgent.timeoutSeconds

/-- The task is completed, and its terminal has the empty context id of the answer. -/
theorem known_context_forgotten : ¬ ∀ (lib : A2aLib) (codec : SegmentCodec) (maxPolls : ℕ)
    (config : A2aAgentConfig) (request : InvokeRequest) (policy : Option RegistryInvocationPolicy)
    (remote : Remote), KeepsContract maxPolls request
      (invokeWithPolicy lib codec maxPolls config request policy remote) := by
  intro h
  have hterminal := (h sampleA2aLib sampleCodec 128 sampleAgent continuedRequest none
    forgetfulRemote).identity.terminal (by decide +kernel)
  have hcontext := hterminal.2 "context-1".toList (by decide +kernel)
  revert hcontext
  decide +kernel

end
end DeepseekScience.A2a
