import DeepseekScience.A2a.Response
import DeepseekScience.TextSearch

/-! One invocation of a remote agent (dss-a2a, `client.rs` and `result.rs`): the card is refreshed,
one operation is sent, a task in progress is polled, and the run ends in a terminal. What the
remote side and the clock do is a parameter of the run. -/
namespace DeepseekScience.A2a

open DeepseekScience.Core Net

section
/-! What an invocation records. -/

inductive TerminalKind where
  | message
  | task
  | taskPending
  | taskInterrupted
  | cardRefreshError
  | transportError
  | protocolError
  | timeout
  | sizeLimit
  | outcomeUnknown
  deriving DecidableEq

structure A2aTerminal where
  kind : TerminalKind
  taskId : Option Text := none
  contextId : Option Text := none
  state : Option Text := none
  success : Bool := false
  error : Option Text := none
  deriving DecidableEq

structure ResponseFrame where
  sequence : ℕ
  operation : Text
  receivedAt : Text
  httpStatus : ℕ
  protocolVersion : ProtocolVersion
  binding : ProtocolBinding
  requestId : Option Text
  payload : Json
  wireBytes : ℕ

structure A2aAgentRef where
  configId : Text
  displayName : Text
  configuredEndpoint : Text

structure A2aRequestRecord where
  invocationId : Text
  action : InvokeAction
  messageId : Option Text
  skillId : Option Text
  taskId : Option Text
  contextId : Option Text
  task : Text
  timeoutSeconds : ℕ

structure A2aToolResult where
  agent : A2aAgentRef
  card : Option CardSnapshot := none
  request : A2aRequestRecord
  responses : List ResponseFrame := []
  terminal : A2aTerminal
  warnings : List Text := []

/-- `A2aTerminal::error`. -/
def errorTerminal (kind : TerminalKind) (message : Text) : A2aTerminal where
  kind := kind
  error := some message

/-- The states of a task that waits for its user. -/
def resumableStates : List Text :=
  ["TASK_STATE_INPUT_REQUIRED".toList, "TASK_STATE_AUTH_REQUIRED".toList,
    "input-required".toList, "auth-required".toList]

def A2aTerminal.isResumableInterruption (terminal : A2aTerminal) : Bool :=
  terminal.kind = .taskInterrupted ||
    (terminal.kind = .task && terminal.state.any resumableStates.contains)

def A2aToolResult.isError (result : A2aToolResult) : Bool :=
  !result.terminal.success && !result.terminal.isResumableInterruption

def effectiveTimeoutSeconds (config : A2aAgentConfig) (request : InvokeRequest) : ℕ :=
  min (request.timeoutSeconds.getD config.timeoutSeconds) config.timeoutSeconds

def emptyResult (config : A2aAgentConfig) (request : InvokeRequest) (invocationId : Text)
    (messageId : Option Text) (timeoutSeconds : ℕ) : A2aToolResult where
  agent := ⟨config.id, config.name, config.endpoint⟩
  request := ⟨invocationId, request.action, messageId, request.skillId, request.taskId,
    request.contextId, request.task, timeoutSeconds⟩
  terminal := errorTerminal .protocolError "invocation not started".toList

/-- The bytes of the frames that were accepted. -/
def acceptedBytes (responses : List ResponseFrame) : ℕ :=
  (responses.map ResponseFrame.wireBytes).sum

def pushFrame (result : A2aToolResult) (frame : ResponseFrame) : Except A2aError A2aToolResult :=
  if maxTotalResponseBytes < acceptedBytes result.responses + frame.wireBytes then
    .error (.totalResponseTooLarge maxTotalResponseBytes)
  else
    .ok { result with
      responses := result.responses ++ [{ frame with sequence := result.responses.length + 1 }] }

def redactText (config : A2aAgentConfig) (value : Text) : Text :=
  match config.bearerToken.filter (!·.isEmpty) with
  | some token => replaceText token "<redacted>".toList value
  | none => value

end

section
/-! Terminals of tasks. -/

def taskTerminal (task : TaskMeaning) (success : Bool) (error : Option Text) : A2aTerminal where
  kind := .task
  taskId := some task.taskId
  contextId := task.contextId
  state := some task.state
  success := success
  error := error

def taskPendingTerminal (task : TaskMeaning) : A2aTerminal where
  kind := .taskPending
  taskId := some task.taskId
  contextId := task.contextId
  state := some task.state
  success := true

def taskInterruptedTerminal (task : TaskMeaning) : A2aTerminal where
  kind := .taskInterrupted
  taskId := some task.taskId
  contextId := task.contextId
  state := some task.state
  success := true

def cancelledStates : List Text :=
  ["TASK_STATE_CANCELED".toList, "TASK_STATE_CANCELLED".toList, "canceled".toList]

def cancelTerminal (task : TaskMeaning) : A2aTerminal :=
  if cancelledStates.contains task.state then taskTerminal task true none
  else
    match task.disposition with
    | .inProgress => taskPendingTerminal task
    | .success => taskTerminal task true none
    | .interrupted => taskInterruptedTerminal task
    | .failure =>
      taskTerminal task false (some "remote cancellation ended unsuccessfully".toList)

def taskErrorTerminal (kind : TerminalKind) (taskId : Text) (contextId state : Option Text)
    (error : Text) : A2aTerminal where
  kind := kind
  taskId := some taskId
  contextId := contextId
  state := state
  error := some error

def continuationErrorTerminal (request : InvokeRequest) (error : Text) : A2aTerminal where
  kind := .protocolError
  taskId := request.taskId
  contextId := request.contextId
  error := some error

def protocolTerminal (config : A2aAgentConfig) (error : A2aError) : A2aTerminal :=
  let kind := match error with
    | .responseTooLarge _ _ | .totalResponseTooLarge _ => .sizeLimit
    | .timeout => .timeout
    | _ => .protocolError
  errorTerminal kind (redactText config error.text)

def operationHttpError (operation : Text) (status : ℕ) (registryAnonymous : Bool) : A2aTerminal :=
  errorTerminal .protocolError
    (if registryAnonymous && (status = 401 || status = 403) then
      "Registry descriptor declared anonymous access, but ".toList ++ operation ++
        " returned HTTP ".toList ++ natText status ++
        "; no credentials were sent and the request was not retried".toList
    else operation ++ " returned HTTP ".toList ++ natText status)

end

section
/-! The remote side, and one operation with its answer. -/

inductive CardAnswer where
  | timedOut
  | failed (error : A2aError)
  | card (card : CardSnapshot) (warnings : List Text)

/-- What becomes of one operation: no time is left to send it, it fails behind its sending, or a
body comes back, here as the JSON value that the client makes of it. -/
inductive Reply where
  | expired
  | failed (error : A2aError)
  | body (status : ℕ) (payload : Json) (wireBytes : ℕ) (receivedAt : Text)

/-- What an invocation meets: the fresh ids, the card, the answers in their order, and whether the
deadline has passed when a further poll is due. -/
structure Remote where
  invocationId : Text
  messageId : Text
  requestId : ℕ → Text
  card : CardAnswer
  reply : ℕ → Reply
  late : ℕ → Bool

inductive RemoteOp where
  | sendMessage (taskId : Option Text)
  | getTask (taskId : Text)
  | cancelTask (taskId : Text)
  deriving DecidableEq

/-- What the client takes an answer for: a task as the agent names it, with what the client keeps
of it unless the task ends the invocation, or a message. -/
inductive Reading where
  | task (named : TaskMeaning) (kept : Option TaskMeaning)
  | message (contextId : Option Text)

/-- What an invocation has recorded, the operations that have left the process, and what the
client has taken the answers for. -/
structure Invocation where
  result : A2aToolResult
  sent : List RemoteOp := []
  readings : List Reading := []

def Invocation.finish (run : Invocation) (terminal : A2aTerminal) : Invocation :=
  { run with result := { run.result with terminal := terminal } }

def Invocation.push (run : Invocation) (op : RemoteOp) : Invocation :=
  { run with sent := run.sent ++ [op] }

def Invocation.read (run : Invocation) (reading : Reading) : Invocation :=
  { run with readings := run.readings ++ [reading] }

def executeOperation (remote : Remote) (interface : SelectedInterface) (op : RemoteOp)
    (operation : OutboundOperation) (run : Invocation) :
    Invocation × Except A2aError ResponseFrame :=
  match remote.reply run.result.responses.length with
  | .expired => (run, .error .timeout)
  | .failed error => (run.push op, .error error)
  | .body status payload wireBytes receivedAt =>
    if maxResponseBytes < wireBytes then
      (run.push op, .error (.responseTooLarge operation.operation maxResponseBytes))
    else
      (run.push op, .ok ⟨0, operation.operation, receivedAt, status, interface.protocolVersion,
        interface.binding, operation.requestId, payload, wireBytes⟩)

/-- A text with something in it. -/
def nonEmpty (value : Option Text) : Option Text := value.filter (!·.isEmpty)

/-- The check of an answer's ids against those that are expected, and the ids it leaves. -/
def checkIdentity (operation : Text) (expectedTask expectedContext : Option Text)
    (task : TaskMeaning) : Except Text TaskMeaning :=
  if expectedTask.any (· ≠ task.taskId) then
    .error (operation ++ " returned task id ".toList ++ task.taskId ++ ", expected ".toList ++
      expectedTask.getD [])
  else if (nonEmpty expectedContext).any fun expected =>
      (nonEmpty task.contextId).any (expected ≠ ·) then
    .error (operation ++ " returned context id ".toList ++ task.contextId.getD [] ++
      ", expected ".toList ++ expectedContext.getD [])
  else .ok { task with contextId := task.contextId.or (nonEmpty expectedContext) }

end

section
/-! The operations on tasks. -/

variable (lib : A2aLib) (codec : SegmentCodec) (config : A2aAgentConfig)
  (interface : SelectedInterface) (registryAnonymous : Bool) (remote : Remote)

/-- The values in which the two operations on a task differ. -/
structure TaskCall where
  name : Text
  op : Text → RemoteOp
  build : SelectedInterface → Text → Text → Except A2aError OutboundOperation
  parse : SelectedInterface → Json → Option Text → Except A2aError ResponseMeaning
  timedOut : TerminalKind
  timedOutText : Text
  lost : TerminalKind
  lostText : Text → Text

def taskAndRecord (call : TaskCall) (run : Invocation) (taskId : Text)
    (contextId state : Option Text) (requestId : Text) :
    Invocation × Except A2aTerminal ResponseMeaning :=
  let failed (kind : TerminalKind) (error : Text) : Except A2aTerminal ResponseMeaning :=
    .error (taskErrorTerminal kind taskId contextId state error)
  match call.build interface taskId requestId with
  | .error error => (run, failed .protocolError (redactText config error.text))
  | .ok operation =>
    match executeOperation remote interface (call.op taskId) operation run with
    | (run, .error error) =>
      (run, match error with
        | .responseTooLarge _ _ | .totalResponseTooLarge _ =>
          failed .sizeLimit (redactText config error.text)
        | .timeout => failed call.timedOut call.timedOutText
        | _ => failed call.lost (call.lostText (redactText config error.text)))
    | (run, .ok frame) =>
      match pushFrame run.result frame with
      | .error error => (run, failed .sizeLimit error.text)
      | .ok result =>
        let run := { run with result := result }
        if frame.httpStatus < 200 ∨ 300 ≤ frame.httpStatus then
          (run, .error
            { operationHttpError call.name frame.httpStatus registryAnonymous with
              taskId := some taskId
              contextId := contextId
              state := state })
        else
          match call.parse interface frame.payload frame.requestId with
          | .ok (.task task) =>
            match checkIdentity call.name (some taskId) contextId task with
            | .ok kept => (run.read (.task task (some kept)), .ok (.task kept))
            | .error error => (run.read (.task task none), failed .protocolError error)
          | .ok (.remoteError message) =>
            (run, failed .protocolError (redactText config message))
          | .ok (.message _) =>
            (run, failed .protocolError
              (call.name ++ " returned a Message instead of a Task".toList))
          | .error error => (run, failed .protocolError (redactText config error.text))

def getTaskCall : TaskCall where
  name := "GetTask".toList
  op := .getTask
  build := buildGetTask lib codec
  parse := parseGetTaskResponse
  timedOut := .timeout
  timedOutText := "GetTask timed out; remote task outcome is unknown".toList
  lost := .transportError
  lostText := fun error => error

def cancelTaskCall : TaskCall where
  name := "CancelTask".toList
  op := .cancelTask
  build := buildCancelTask lib codec
  parse := parseCancelTaskResponse
  timedOut := .outcomeUnknown
  timedOutText :=
    "CancelTask timed out after it may have reached the remote Agent; it was not retried".toList
  lost := .outcomeUnknown
  lostText := fun error =>
    "CancelTask outcome is unknown and was not retried: ".toList ++ error

def getTaskAndRecord (run : Invocation) (taskId : Text) (contextId state : Option Text)
    (requestId : Text) : Invocation × Except A2aTerminal ResponseMeaning :=
  taskAndRecord config interface registryAnonymous remote (getTaskCall lib codec) run taskId
    contextId state requestId

def cancelTaskAndRecord (run : Invocation) (taskId : Text) (contextId : Option Text)
    (requestId : Text) : Invocation × Except A2aTerminal ResponseMeaning :=
  taskAndRecord config interface registryAnonymous remote (cancelTaskCall lib codec) run taskId
    contextId none requestId

/-- The end of a failed message. -/
def sendErrorTerminal (error : A2aError) : A2aTerminal :=
  match error with
  | .responseTooLarge _ _ | .totalResponseTooLarge _ =>
    errorTerminal .sizeLimit (redactText config error.text)
  | .timeout =>
    errorTerminal .outcomeUnknown
      ("SendMessage timed out after it may have reached the remote Agent; ".toList ++
        "it was not retried".toList)
  | _ =>
    errorTerminal .outcomeUnknown ("SendMessage outcome is unknown and was not retried: ".toList ++
      redactText config error.text)

def registryDirectTaskWarning : Text := "registry_direct_task_send_response".toList

/-- The message of an invocation, and what its answer means. -/
def sendAndRecord (card : CardSnapshot) (request : InvokeRequest) (run : Invocation) :
    Invocation × Except A2aTerminal ResponseMeaning :=
  match negotiateOutputModes card.raw with
  | .error error => (run, .error (errorTerminal .cardRefreshError (redactText config error.text)))
  | .ok modes =>
    match buildSend lib codec interface request remote.invocationId remote.messageId modes with
    | .error error => (run, .error (protocolTerminal config error))
    | .ok operation =>
      match executeOperation remote interface (.sendMessage request.taskId) operation run with
      | (run, .error error) => (run, .error (sendErrorTerminal config error))
      | (run, .ok frame) =>
        match pushFrame run.result frame with
        | .error error => (run, .error (errorTerminal .sizeLimit error.text))
        | .ok result =>
          let run := { run with result := result }
          if frame.httpStatus < 200 ∨ 300 ≤ frame.httpStatus then
            (run, .error (operationHttpError "SendMessage".toList frame.httpStatus
              registryAnonymous))
          else
            let parsed :=
              if registryAnonymous then
                parseRegistrySendResponse interface frame.payload frame.requestId
              else
                (parseSendResponse interface frame.payload frame.requestId).map (·, false)
            match parsed with
            | .error error => (run, .error (protocolTerminal config error))
            | .ok (meaning, directTaskFallback) =>
              let run :=
                if directTaskFallback then
                  { run with result :=
                    { run.result with
                      warnings := run.result.warnings ++ [registryDirectTaskWarning] } }
                else run
              match meaning with
              | .task task =>
                match checkIdentity "SendMessage".toList (nonEmpty request.taskId)
                    request.contextId task with
                | .ok kept => (run.read (.task task (some kept)), .ok (.task kept))
                | .error error =>
                  (run.read (.task task none), .error (continuationErrorTerminal request error))
              | .message contextId => (run.read (.message contextId), .ok (.message contextId))
              | .remoteError message => (run, .ok (.remoteError message))

/-- The loop of the polls: what a meaning ends the invocation with, as long as no further poll is
due. The first argument counts the polls that are left. -/
def pollTask (request : InvokeRequest) : ℕ → Invocation → ResponseMeaning → Invocation
  | _, run, .message contextId =>
    run.finish { kind := .message, contextId := contextId, success := true }
  | _, run, .remoteError message =>
    run.finish (errorTerminal .protocolError (redactText config message))
  | polls, run, .task task =>
    match task.disposition with
    | .success => run.finish (taskTerminal task true none)
    | .interrupted => run.finish (taskInterruptedTerminal task)
    | .failure =>
      run.finish (taskTerminal task false (some "remote task ended unsuccessfully".toList))
    | .inProgress =>
      if request.action = .submit then run.finish (taskPendingTerminal task)
      else
        let timedOut := run.finish
          { kind := .timeout, taskId := some task.taskId, contextId := task.contextId,
            state := some task.state,
            error := some "local wait timed out; remote task outcome is unknown".toList }
        match polls with
        | 0 => timedOut
        | polls + 1 =>
          if remote.late run.result.responses.length then timedOut
          else
            match getTaskAndRecord lib codec config interface registryAnonymous remote run
                task.taskId task.contextId (some task.state)
                (remote.requestId run.result.responses.length) with
            | (run, .ok meaning) => pollTask request polls run meaning
            | (run, .error terminal) => run.finish terminal

/-- The polls behind the answer to a message or to a first question for a task. -/
def settle (request : InvokeRequest) (maxPolls : ℕ) :
    Invocation × Except A2aTerminal ResponseMeaning → Invocation
  | (run, .ok meaning) =>
    pollTask lib codec config interface registryAnonymous remote request maxPolls run meaning
  | (run, .error terminal) => run.finish terminal

end

section
/-! The whole invocation. -/

/-- What the registry's descriptor lets an invocation reach. -/
structure RegistryInvocationPolicy where
  descriptorEndpoint : Url
  allowLoopbackHttp : Bool

variable (lib : A2aLib) (codec : SegmentCodec)

def RegistryInvocationPolicy.validateConfigBinding (policy : RegistryInvocationPolicy)
    (config : A2aAgentConfig) : Except A2aError Unit := do
  let configuredEndpoint ← validateEndpoint lib config.endpoint
  if configuredEndpoint ≠ policy.descriptorEndpoint then
    .error (.invalidConfig
      "Registry invocation endpoint differs from the validated descriptor endpoint".toList)
  else if config.bearerToken.isSome then
    .error (.invalidConfig
      "Registry-anonymous invocation must not carry A2A credentials".toList)
  else .ok ()

def validateInvocation (config : A2aAgentConfig) (request : InvokeRequest)
    (policy : Option RegistryInvocationPolicy) : Except A2aError Unit := do
  validateConfig lib config
  request.validate
  match policy with
  | some policy => policy.validateConfigBinding lib config
  | none => .ok ()

/-- The operation of an invocation whose card is known, and the polls behind it. -/
def operate (maxPolls : ℕ) (config : A2aAgentConfig) (request : InvokeRequest)
    (registryAnonymous : Bool) (remote : Remote) (card : CardSnapshot) (run : Invocation) :
    Invocation :=
  let interface := card.selectedInterface
  let taskId := request.taskId.getD []
  match request.action with
  | .send | .submit =>
    settle lib codec config interface registryAnonymous remote request maxPolls
      (sendAndRecord lib codec config interface registryAnonymous remote card request run)
  | .getTask =>
    settle lib codec config interface registryAnonymous remote request maxPolls
      (getTaskAndRecord lib codec config interface registryAnonymous remote run taskId
        request.contextId none remote.invocationId)
  | .cancelTask =>
    match cancelTaskAndRecord lib codec config interface registryAnonymous remote run taskId
        request.contextId (remote.requestId 0) with
    | (run, .ok (.task task)) => run.finish (cancelTerminal task)
    | (run, .ok _) =>
      run.finish (taskErrorTerminal .protocolError taskId request.contextId none
        "CancelTask returned a non-Task response".toList)
    | (run, .error terminal) => run.finish terminal

def invokeWithPolicy (maxPolls : ℕ) (config : A2aAgentConfig) (request : InvokeRequest)
    (policy : Option RegistryInvocationPolicy) (remote : Remote) : Invocation :=
  let messageId :=
    if request.action = .send ∨ request.action = .submit then some remote.messageId else none
  let run : Invocation :=
    { result := emptyResult config request remote.invocationId messageId
        (effectiveTimeoutSeconds config request) }
  match validateInvocation lib config request policy with
  | .error error =>
    run.finish (errorTerminal .protocolError (redactText config error.text))
  | .ok _ =>
    match remote.card with
    | .timedOut =>
      run.finish (errorTerminal .cardRefreshError "Agent Card refresh timed out".toList)
    | .failed error =>
      run.finish (errorTerminal .cardRefreshError (redactText config error.text))
    | .card card warnings =>
      operate lib codec maxPolls config request policy.isSome remote card
        { run with result := { run.result with
            card := some card
            warnings := run.result.warnings ++ warnings } }

def invoke (maxPolls : ℕ) (config : A2aAgentConfig) (request : InvokeRequest) (remote : Remote) :
    Invocation :=
  invokeWithPolicy lib codec maxPolls config request none remote

/-- What comes before an anonymous invocation of an agent that the registry names: `preflight` is
the failure, if any, to find public addresses for its endpoint. -/
def invokeRegistryAnonymous (maxPolls : ℕ) (config : A2aAgentConfig) (request : InvokeRequest)
    (policy : RegistryInvocationPolicy) (preflight : Option A2aError) (remote : Remote) :
    Invocation :=
  let refused (kind : TerminalKind) (message : Text) : Invocation :=
    { result := { emptyResult config request remote.invocationId none
        (effectiveTimeoutSeconds config request) with terminal := errorTerminal kind message } }
  match validateInvocation lib config request (some policy) with
  | .error error => refused .protocolError (redactText config error.text)
  | .ok _ =>
    match preflight with
    | some error =>
      let kind := match error with
        | .timeout => .timeout
        | .transport _ => .transportError
        | _ => .cardRefreshError
      refused kind ("Registry endpoint validation failed before HTTP access: ".toList ++
        redactText config error.text)
    | none => invokeWithPolicy lib codec maxPolls config request (some policy) remote

end
end DeepseekScience.A2a
