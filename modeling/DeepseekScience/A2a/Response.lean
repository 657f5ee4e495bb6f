import DeepseekScience.A2a.Card
import DeepseekScience.Mcp.Response

/-! Messages to remote agents and what their answers mean (dss-a2a, `protocol.rs`): the operation
that sends a message, and the readers of the answers in every version and binding. -/
namespace DeepseekScience.A2a

open Net

inductive TaskDisposition where
  | inProgress
  | interrupted
  | success
  | failure
  deriving DecidableEq

/-- What an answer says of a task. -/
structure TaskMeaning where
  taskId : Text
  contextId : Option Text
  state : Text
  disposition : TaskDisposition

inductive ResponseMeaning where
  | message (contextId : Option Text)
  | task (task : TaskMeaning)
  | remoteError (message : Text)

section
/-! The operation that sends a message. -/

/-- The ids of a message that continues an exchange: the members stay sorted. -/
def addContinuation (request : InvokeRequest) (message : List (Text × Json)) :
    List (Text × Json) :=
  let message := match request.taskId with
    | some taskId => insertMember "taskId".toList (.string taskId) message
    | none => message
  match request.contextId with
  | some contextId => insertMember "contextId".toList (.string contextId) message
  | none => message

/-- The message of a request: its fixed members, its continuation, its skill. -/
def outboundMessage (request : InvokeRequest) (message : List (Text × Json)) : Json :=
  let message := addContinuation request message
  match request.skillId with
  | some skillId =>
    .object (insertMember "metadata".toList (.object [("skillId".toList, .string skillId)]) message)
  | none => .object message

def textModes (modes : List Text) : Json := .array (modes.map .string)

def buildV1SendParams (interface : SelectedInterface) (request : InvokeRequest)
    (messageId : Text) (acceptedOutputModes : List Text) (includeTenant : Bool) : Json :=
  let message := outboundMessage request
    [("messageId".toList, .string messageId),
      ("parts".toList, .array [.object [("text".toList, .string request.task)]]),
      ("role".toList, .string "ROLE_USER".toList)]
  let params :=
    [("configuration".toList, .object
        [("acceptedOutputModes".toList, textModes acceptedOutputModes),
          ("historyLength".toList, .number "50".toList),
          ("returnImmediately".toList, .bool true)]),
      ("message".toList, message)]
  match interface.tenant with
  | some tenant =>
    if includeTenant then .object (insertMember "tenant".toList (.string tenant) params)
    else .object params
  | none => .object params

/-- The parameters of a message in the older version, around its members. -/
def v03SendParams (request : InvokeRequest) (message : List (Text × Json))
    (acceptedOutputModes : List Text) : Json :=
  .object
    [("configuration".toList, .object
        [("acceptedOutputModes".toList, textModes acceptedOutputModes),
          ("blocking".toList, .bool false), ("historyLength".toList, .number "50".toList)]),
      ("message".toList, outboundMessage request message)]

def buildV03JsonrpcSendParams (request : InvokeRequest) (messageId : Text)
    (acceptedOutputModes : List Text) : Json :=
  v03SendParams request
    [("messageId".toList, .string messageId),
      ("parts".toList, .array
        [.object [("kind".toList, .string "text".toList), ("text".toList, .string request.task)]]),
      ("role".toList, .string "user".toList)] acceptedOutputModes

def buildV03RestSendParams (request : InvokeRequest) (messageId : Text)
    (acceptedOutputModes : List Text) : Json :=
  v03SendParams request
    [("content".toList, .array [.object [("text".toList, .string request.task)]]),
      ("messageId".toList, .string messageId),
      ("role".toList, .string "ROLE_USER".toList)] acceptedOutputModes

def buildSend (lib : A2aLib) (codec : SegmentCodec) (interface : SelectedInterface)
    (request : InvokeRequest) (requestId messageId : Text) (acceptedOutputModes : List Text) :
    Except A2aError OutboundOperation :=
  if acceptedOutputModes.isEmpty then
    .error (.unsupportedCard "no mutually supported output mode is available".toList)
  else
    let params := match interface.protocolVersion, interface.binding with
      | .v1, .jsonRpc => buildV1SendParams interface request messageId acceptedOutputModes true
      | .v1, .httpJson => buildV1SendParams interface request messageId acceptedOutputModes false
      | .v03, .jsonRpc => buildV03JsonrpcSendParams request messageId acceptedOutputModes
      | .v03, .httpJson => buildV03RestSendParams request messageId acceptedOutputModes
    match interface.binding with
    | .jsonRpc => do
      let method := match interface.protocolVersion with
        | .v1 => "SendMessage".toList
        | .v03 => "message/send".toList
      let url ← parseInterfaceUrl lib interface
      return ⟨url, .post, some (rpcBody requestId method params), some requestId, method⟩
    | .httpJson => do
      let base ← parseInterfaceUrl lib interface
      let url ← match interface.protocolVersion with
        | .v1 => appendV1RestSegments codec base interface.tenant ["message:send".toList]
        | .v03 => appendSegments codec base ["v1".toList, "message:send".toList]
      return ⟨url, .post, some params, none, "message:send".toList⟩

end

section
/-! The readers of the answers. -/

def stringField (value : Json) (key : Text) : Option Text := (value.get? key).bind Json.asStr

/-- How a code of a remote error is displayed. -/
def codeText : ℤ → Text
  | .ofNat n => natText n
  | .negSucc n => '-' :: natText (n + 1)

def remoteErrorMessage (error : Json) : Text :=
  let message := ((error.get? "message".toList).bind Json.asStr).getD
    "remote JSON-RPC error".toList
  match (error.get? "code".toList).bind Mcp.asI64 with
  | some code => "JSON-RPC error ".toList ++ codeText code ++ ": ".toList ++ message
  | none => "JSON-RPC error: ".toList ++ message

def validateTransport (binding : ProtocolBinding) (payload : Json)
    (expectedRequestId : Option Text) (operation : Text) :
    Except A2aError (Option ResponseMeaning) :=
  match binding with
  | .httpJson => .ok none
  | .jsonRpc =>
    match asObject payload with
    | none => .error (.protocol (operation ++ " response must be an object".toList))
    | some object =>
      if (object.lookup "jsonrpc".toList).bind Json.asStr ≠ some "2.0".toList then
        .error (.protocol (operation ++ " response has invalid jsonrpc version".toList))
      else
        match expectedRequestId with
        | none => .error (.protocol (operation ++ " has no local JSON-RPC request id".toList))
        | some expected =>
          if (object.lookup "id".toList).bind Json.asStr ≠ some expected then
            .error (.protocol (operation ++ " response id does not match the request".toList))
          else
            match object.lookup "error".toList with
            | some error => .ok (some (.remoteError (remoteErrorMessage error)))
            | none =>
              if (object.lookup "result".toList).isNone then
                .error (.protocol (operation ++ " response has neither result nor error".toList))
              else .ok none

def successValue (binding : ProtocolBinding) (payload : Json) : Json :=
  match binding with
  | .jsonRpc => payload.get "result".toList
  | .httpJson => payload

/-- The role and the name of the contents that a message of an agent has. -/
def messageShape : ProtocolVersion → ProtocolBinding → Text × Text
  | .v1, _ => ("ROLE_AGENT".toList, "parts".toList)
  | .v03, .jsonRpc => ("agent".toList, "parts".toList)
  | .v03, .httpJson => ("ROLE_AGENT".toList, "content".toList)

def parseMessage (value : Json) (version : ProtocolVersion) (binding : ProtocolBinding) :
    Except A2aError ResponseMeaning :=
  match asObject value with
  | none => .error (.protocol "A2A Message must be an object".toList)
  | some object =>
    let (expectedRole, contentField) := messageShape version binding
    if (((object.lookup "messageId".toList).bind Json.asStr).filter (!·.isEmpty)).isNone then
      .error (.protocol "A2A Message has no messageId".toList)
    else if (object.lookup "role".toList).bind Json.asStr ≠ some expectedRole then
      .error (.protocol ("A2A Message role must be ".toList ++ expectedRole))
    else if ((object.lookup contentField).bind Json.asArray).all List.isEmpty then
      .error (.protocol ("A2A Message ".toList ++ contentField ++
        " must be a non-empty array".toList))
    else .ok (.message (stringField value "contextId".toList))

/-- The states of a task in one version and binding, and its name in an error. -/
structure TaskStates where
  inProgress : List Text
  interrupted : List Text
  success : List Text
  failure : List Text
  unsupported : Text

def v1TaskStates : TaskStates where
  inProgress := ["TASK_STATE_UNSPECIFIED".toList, "TASK_STATE_SUBMITTED".toList,
    "TASK_STATE_WORKING".toList]
  interrupted := ["TASK_STATE_INPUT_REQUIRED".toList, "TASK_STATE_AUTH_REQUIRED".toList]
  success := ["TASK_STATE_COMPLETED".toList]
  failure := ["TASK_STATE_FAILED".toList, "TASK_STATE_CANCELED".toList,
    "TASK_STATE_REJECTED".toList]
  unsupported := "unsupported v1 Task state ".toList

def v03TaskStates : TaskStates where
  inProgress := ["unknown".toList, "submitted".toList, "working".toList]
  interrupted := ["input-required".toList, "auth-required".toList]
  success := ["completed".toList]
  failure := ["failed".toList, "canceled".toList, "rejected".toList]
  unsupported := "unsupported v0.3 Task state ".toList

def v03RestTaskStates : TaskStates where
  inProgress := v1TaskStates.inProgress
  interrupted := v1TaskStates.interrupted
  success := v1TaskStates.success
  failure := ["TASK_STATE_FAILED".toList, "TASK_STATE_CANCELLED".toList,
    "TASK_STATE_REJECTED".toList]
  unsupported := "unsupported v0.3 REST Task state ".toList

def taskStates : ProtocolVersion → ProtocolBinding → TaskStates
  | .v1, _ => v1TaskStates
  | .v03, .jsonRpc => v03TaskStates
  | .v03, .httpJson => v03RestTaskStates

def taskDisposition (version : ProtocolVersion) (binding : ProtocolBinding) (state : Text) :
    Except A2aError TaskDisposition :=
  let states := taskStates version binding
  if states.inProgress.contains state then .ok .inProgress
  else if states.interrupted.contains state then .ok .interrupted
  else if states.success.contains state then .ok .success
  else if states.failure.contains state then .ok .failure
  else .error (.protocol (states.unsupported ++ state))

/-- `Value::pointer` to the state of a task. -/
def statusState (value : Json) : Option Text :=
  ((value.get? "status".toList).bind fun status => status.get? "state".toList).bind Json.asStr

def parseTask (value : Json) (version : ProtocolVersion) (binding : ProtocolBinding) :
    Except A2aError ResponseMeaning :=
  match (stringField value "id".toList).filter (!·.isEmpty) with
  | none => .error (.protocol "A2A Task has no id".toList)
  | some taskId =>
    match statusState value with
    | none => .error (.protocol "A2A Task has no status.state".toList)
    | some state => do
      let disposition ← taskDisposition version binding state
      return .task ⟨taskId, stringField value "contextId".toList, state, disposition⟩

/-- The member of a union of a message and a task, read as the version and the binding have it. -/
def parseSendUnion (value : Json) (version : ProtocolVersion) (binding : ProtocolBinding)
    (subject : Text) : Except A2aError ResponseMeaning :=
  match asObject value with
  | none => .error (.protocol (subject ++ " must be an object".toList))
  | some object =>
    match object.lookup "message".toList, object.lookup "task".toList with
    | some message, none => parseMessage message version binding
    | none, some task => parseTask task version binding
    | _, _ =>
      .error (.protocol (subject ++ " must contain exactly one of message or task".toList))

def parseV1SendUnion (value : Json) : Except A2aError ResponseMeaning :=
  parseSendUnion value .v1 .jsonRpc "v1 SendMessage result".toList

def parseV03RestUnion (value : Json) : Except A2aError ResponseMeaning :=
  parseSendUnion value .v03 .httpJson "v0.3 REST send response".toList

def parseV03Direct (value : Json) : Except A2aError ResponseMeaning :=
  if stringField value "kind".toList = some "message".toList then
    parseMessage value .v03 .jsonRpc
  else if stringField value "kind".toList = some "task".toList then
    parseTask value .v03 .jsonRpc
  else .error (.protocol "v0.3 JSON-RPC send result must be a message or task".toList)

def parseSendResponse (interface : SelectedInterface) (payload : Json)
    (expectedRequestId : Option Text) : Except A2aError ResponseMeaning := do
  match ← validateTransport interface.binding payload expectedRequestId "SendMessage".toList with
  | some error => .ok error
  | none =>
    let value := successValue interface.binding payload
    match interface.protocolVersion, interface.binding with
    | .v1, _ => parseV1SendUnion value
    | .v03, .jsonRpc => parseV03Direct value
    | .v03, .httpJson => parseV03RestUnion value

/-- A task that stands in the place of the union: what it must have before it is read. -/
def directTask (value : Json) : Bool :=
  match asObject value with
  | none => false
  | some object =>
    (object.lookup "message".toList).isNone && (object.lookup "task".toList).isNone &&
      ((object.lookup "id".toList).bind Json.asStr).any (fun id =>
        !(trim id).isEmpty && decide (byteLen id ≤ 512) && !id.any isControl) &&
      ((((object.lookup "status".toList).bind asObject).bind fun status =>
        status.lookup "state".toList).bind Json.asStr).any fun state => !(trim state).isEmpty

/-- The meaning, and whether it took the compatibility of the registry to read it. -/
def parseRegistrySendResponse (interface : SelectedInterface) (payload : Json)
    (expectedRequestId : Option Text) : Except A2aError (ResponseMeaning × Bool) :=
  match parseSendResponse interface payload expectedRequestId with
  | .ok meaning => .ok (meaning, false)
  | .error strictError =>
    if interface.protocolVersion ≠ .v1 then .error strictError
    else do
      let transport ← validateTransport interface.binding payload expectedRequestId
        "SendMessage".toList
      let value := successValue interface.binding payload
      if transport.isSome || !directTask value then .error strictError
      else
        let meaning ← parseTask value .v1 interface.binding
        return (meaning, true)

/-- The answer to an operation on a task. -/
def parseTaskResponse (operation : Text) (interface : SelectedInterface) (payload : Json)
    (expectedRequestId : Option Text) : Except A2aError ResponseMeaning := do
  match ← validateTransport interface.binding payload expectedRequestId operation with
  | some error => .ok error
  | none =>
    parseTask (successValue interface.binding payload) interface.protocolVersion interface.binding

def parseGetTaskResponse := parseTaskResponse "GetTask".toList
def parseCancelTaskResponse := parseTaskResponse "CancelTask".toList

end
end DeepseekScience.A2a
