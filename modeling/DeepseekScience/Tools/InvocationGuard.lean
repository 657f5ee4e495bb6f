import DeepseekScience.A2a.Budget
import DeepseekScience.Lib.Guarded
import DeepseekScience.Tools.Router

/-! The remote tools of one user run (dss-tools, `builtin/a2a.rs`, `builtin/agent_registry.rs` and
`builtin/mcp.rs`): what each of them reserves before it touches the network, and what a run in
which their calls overlap can do. -/
namespace DeepseekScience.Tools

open DeepseekScience.Core DeepseekScience.A2a

section
/-! The guard of one agent's tool. -/

/-- The sets only grow, and the run starts with all of them empty. -/
structure InvocationGuard where
  mutatingAttempted : Bool := false
  observedExistingTask : Bool := false
  cancelledTaskIds : List Text := []
  resumableTaskIds : List Text := []

def duplicateMessage : ToolError :=
  .invalidArgs ("an A2A Message was already attempted in this user run; refusing to create a ".toList
    ++ "duplicate remote side effect".toList)

def newTaskAfterQuery : ToolError :=
  .invalidArgs ("refusing to create a new remote Task after get_task/cancel_task in the same ".toList
    ++ "user run; start a new user turn, or send a follow-up only for the same ".toList
    ++ "input-required/auth-required task_id".toList)

def duplicateCancel (taskId : Text) : ToolError :=
  .invalidArgs ("cancel_task was already attempted for task_id ".toList ++ taskId ++
    " in this user run".toList)

namespace InvocationGuard

def reserve (guard : InvocationGuard) (request : InvokeRequest) :
    Except ToolError Unit × InvocationGuard :=
  match request.action with
  | .send | .submit =>
    if guard.mutatingAttempted then (.error duplicateMessage, guard)
    else if guard.observedExistingTask &&
        !(request.action = .send && request.taskId.any guard.resumableTaskIds.contains) then
      (.error newTaskAfterQuery, guard)
    else (.ok (), { guard with mutatingAttempted := true })
  | .getTask => (.ok (), { guard with observedExistingTask := true })
  | .cancelTask =>
    let guard := { guard with observedExistingTask := true }
    let taskId := request.taskId.getD []
    if guard.cancelledTaskIds.contains taskId then (.error (duplicateCancel taskId), guard)
    else (.ok (), { guard with cancelledTaskIds := taskId :: guard.cancelledTaskIds })

def observe (guard : InvocationGuard) (result : A2aToolResult) : InvocationGuard :=
  match result.terminal.taskId with
  | some taskId =>
    if result.terminal.isResumableInterruption then
      { guard with resumableTaskIds := taskId :: guard.resumableTaskIds }
    else guard
  | none => guard

end InvocationGuard

/-- How the arguments of the tools are decoded; `serde` is not part of the sources. -/
structure ArgumentReader (α : Type) where
  fromValue : Json → Except Text α

namespace A2aRemoteTool

def effectiveTimeout (config : A2aAgentConfig) (args : Json) : ℕ :=
  match (args.get? "timeout_seconds".toList).bind Json.asU64 with
  | some requested => min requested config.timeoutSeconds
  | none => config.timeoutSeconds

/-- What a call asks for, once its arguments are decoded and checked. -/
def request (reader : ArgumentReader InvokeRequest) (config : A2aAgentConfig) (args : Json) :
    Except ToolError InvokeRequest :=
  match reader.fromValue args with
  | .error error => .error (.invalidArgs ("invalid A2A arguments: ".toList ++ error))
  | .ok request =>
    let request := { request with timeoutSeconds := some (effectiveTimeout config args) }
    match request.validate with
    | .error error => .error (.other error.text)
    | .ok _ => .ok request

/-- The calls of one agent's tool: the lock is held from the reservation to the observation. -/
def machine (lib : A2aLib) (codec : SegmentCodec) (maxPolls : ℕ)
    (reader : ArgumentReader InvokeRequest) (config : A2aAgentConfig) :
    Guarded.Machine InvocationGuard Json InvokeRequest ToolError RemoteOp A2aToolResult where
  init := {}
  admits args request := A2aRemoteTool.request reader config args = .ok request
  reserve := InvocationGuard.reserve
  invokes request sent result :=
    ∃ remote, (invoke lib codec maxPolls config request remote).result = result ∧
      (invoke lib codec maxPolls config request remote).sent = sent
  observe := InvocationGuard.observe

end A2aRemoteTool

end

section
/-! The bridge to the agents of the registry. -/

structure RegistryAgentDescriptor where
  resourceUri : Text
  name : Text
  endpointUrl : Text
  probeStatus : Option Text
  version : Option Text
  deriving DecidableEq

structure RegistryInvocationGuard where
  boundDescriptor : Option RegistryAgentDescriptor := none
  inner : InvocationGuard := {}

/-- A request together with the agent that it is for. -/
structure RegistryRequest where
  descriptor : RegistryAgentDescriptor
  request : InvokeRequest

/-- An operation together with the agent that it goes to. -/
structure RegistryOp where
  descriptor : RegistryAgentDescriptor
  op : RemoteOp

def descriptorChanged : ToolError :=
  .invalidArgs ("the Registry Agent descriptor changed during this user run; refusing to forward ".toList
    ++ "an existing task or create a side effect for a different remote identity".toList)

namespace RegistryInvocationGuard

def reserve (guard : RegistryInvocationGuard) (r : RegistryRequest) :
    Except ToolError Unit × RegistryInvocationGuard :=
  if guard.boundDescriptor.any (· ≠ r.descriptor) then (.error descriptorChanged, guard)
  else
    match guard.inner.reserve r.request with
    | (.error error, inner) => (.error error, { guard with inner := inner })
    | (.ok _, inner) =>
      (.ok (), ⟨some (guard.boundDescriptor.getD r.descriptor), inner⟩)

def observe (guard : RegistryInvocationGuard) (result : A2aToolResult) :
    RegistryInvocationGuard :=
  { guard with inner := guard.inner.observe result }

end RegistryInvocationGuard

def maxResourceUriBytes : ℕ := 16 * 1024
def defaultAgentTimeoutSeconds : ℕ := 120

structure RegistryCallArgs where
  resourceUri : Text
  action : InvokeAction := .send
  task : Text := []
  skillId : Option Text := none
  timeoutSeconds : Option ℕ := none

def RegistryCallArgs.invokeRequest (args : RegistryCallArgs) : InvokeRequest where
  action := args.action
  task := args.task
  skillId := args.skillId
  timeoutSeconds :=
    some (min (args.timeoutSeconds.getD defaultAgentTimeoutSeconds) defaultAgentTimeoutSeconds)

def validateResourceUri (uri : Text) : Except ToolError Unit :=
  if uri.isEmpty || decide (maxResourceUriBytes < byteLen uri) || uri.any isControl then
    .error (.invalidArgs "resource_uri must be a bounded non-empty string".toList)
  else .ok ()

namespace RegistryA2aTool

/-- The checks of a call before the registry is asked. -/
def arguments (reader : ArgumentReader RegistryCallArgs) (args : Json) :
    Except ToolError RegistryCallArgs :=
  match reader.fromValue args with
  | .error error => .error (.invalidArgs ("invalid Agent Registry arguments: ".toList ++ error))
  | .ok call => do
    validateResourceUri call.resourceUri
    if call.action ≠ .send then
      .error (.invalidArgs ("Registry call_agent permits one fresh send only; task reads, ".toList
        ++ "continuation, submit, and cancellation require a configured Agent with locally ".toList
        ++ "trusted task provenance".toList))
    else
      match call.invokeRequest.validate with
      | .error error => .error (.other error.text)
      | .ok _ => .ok call

/-- The configuration that stands for an agent of the registry. -/
def config (lib : A2aLib) (descriptor : RegistryAgentDescriptor) : A2aAgentConfig where
  id := stableToolName lib descriptor.resourceUri
  name := descriptor.name
  endpoint := descriptor.endpointUrl
  enabled := true
  bearerToken := none
  timeoutSeconds := defaultAgentTimeoutSeconds

/-- The calls of the bridge: the registry answers a checked call with any descriptor of the
resource that it names, or with none. -/
def machine (lib : A2aLib) (codec : SegmentCodec) (maxPolls : ℕ)
    (reader : ArgumentReader RegistryCallArgs) :
    Guarded.Machine RegistryInvocationGuard Json RegistryRequest ToolError RegistryOp
      A2aToolResult where
  init := {}
  admits args r := ∃ call, arguments reader args = .ok call ∧
    r.descriptor.resourceUri = call.resourceUri ∧ r.request = call.invokeRequest
  reserve := RegistryInvocationGuard.reserve
  invokes r sent result := ∃ policy preflight remote run,
    invokeRegistryAnonymous lib codec maxPolls (config lib r.descriptor) r.request policy preflight
      remote = run ∧ run.result = result ∧ sent = run.sent.map (RegistryOp.mk r.descriptor)
  observe := RegistryInvocationGuard.observe

end RegistryA2aTool

end

section
/-! The tools of MCP servers. -/

structure McpDynamicTool where
  server : Text
  toolName : Text
  retrySafe : Bool

inductive McpEvent where
  | begun (tool : McpDynamicTool) (args : Json)
  | called (tool : McpDynamicTool)

/-- The attempts that the contexts of a run share, and the calls that are under way. -/
structure McpCalls where
  attempts : List (Text × Text) := []
  inFlight : List McpDynamicTool := []
  log : List McpEvent := []

/-- What a call reserves before its one request. -/
def McpDynamicTool.reserve (tool : McpDynamicTool) (args : Json) (attempts : List (Text × Text)) :
    Except ToolError (List (Text × Text)) :=
  if !args.isObject then
    .error (.invalidArgs "MCP tool arguments must be a JSON object".toList)
  else if tool.retrySafe then .ok attempts
  else if attempts.contains (tool.server, tool.toolName) then
    .error (.invalidArgs ("MCP tool ".toList ++ tool.toolName ++ " on ".toList ++ tool.server ++
      (" was already attempted in this user run; refusing a possible duplicate remote ".toList ++
        "side effect".toList)))
  else .ok ((tool.server, tool.toolName) :: attempts)

/-- One step of one of the calls; a call under way can end without its request. -/
inductive McpStep : McpCalls → McpCalls → Prop
  | refuse {s : McpCalls} {tool : McpDynamicTool} {args : Json} {error : ToolError}
    (refused : tool.reserve args s.attempts = .error error) : McpStep s s
  | begin {s : McpCalls} {tool : McpDynamicTool} {args : Json} {attempts : List (Text × Text)}
    (accepted : tool.reserve args s.attempts = .ok attempts) :
    McpStep s { attempts := attempts, inFlight := s.inFlight ++ [tool],
                log := s.log ++ [.begun tool args] }
  | call {s : McpCalls} {front back : List McpDynamicTool} {tool : McpDynamicTool}
    (waits : s.inFlight = front ++ tool :: back) :
    McpStep s { s with inFlight := front ++ back, log := s.log ++ [.called tool] }
  | drop {s : McpCalls} {front back : List McpDynamicTool} {tool : McpDynamicTool}
    (waits : s.inFlight = front ++ tool :: back) :
    McpStep s { s with inFlight := front ++ back }

end

section
/-! A user run. -/

/-- What the remote tools of a run are made of. -/
structure RemoteTools where
  lib : A2aLib
  codec : SegmentCodec
  maxPolls : ℕ
  Agent : Type
  config : Agent → A2aAgentConfig
  requestReader : ArgumentReader InvokeRequest
  registryReader : ArgumentReader RegistryCallArgs

variable (tools : RemoteTools)

def RemoteTools.agentMachine (agent : tools.Agent) :=
  A2aRemoteTool.machine tools.lib tools.codec tools.maxPolls tools.requestReader
    (tools.config agent)

def RemoteTools.registryMachine :=
  RegistryA2aTool.machine tools.lib tools.codec tools.maxPolls tools.registryReader

structure RemoteState where
  agents : tools.Agent → Guarded.State InvocationGuard InvokeRequest RemoteOp A2aToolResult
  registry : Guarded.State RegistryInvocationGuard RegistryRequest RegistryOp A2aToolResult
  mcp : McpCalls

def RemoteTools.start : RemoteState tools where
  agents agent := (tools.agentMachine agent).start
  registry := tools.registryMachine.start
  mcp := {}

variable {tools}

/-- One step of one call of one tool. -/
inductive RemoteStep : RemoteState tools → RemoteState tools → Prop
  | agent {s s' : RemoteState tools} (agent : tools.Agent)
    (step : Guarded.Step (tools.agentMachine agent) (s.agents agent) (s'.agents agent))
    (others : ∀ other, other ≠ agent → s'.agents other = s.agents other)
    (registry : s'.registry = s.registry) (mcp : s'.mcp = s.mcp) : RemoteStep s s'
  | registry {s : RemoteState tools}
    {registry : Guarded.State RegistryInvocationGuard RegistryRequest RegistryOp A2aToolResult}
    (step : Guarded.Step tools.registryMachine s.registry registry) :
    RemoteStep s { s with registry := registry }
  | mcp {s : RemoteState tools} {mcp : McpCalls} (step : McpStep s.mcp mcp) :
    RemoteStep s { s with mcp := mcp }

/-- The states that some run of the tools comes to. -/
def RemoteState.Reachable (s : RemoteState tools) : Prop :=
  Relation.ReflTransGen RemoteStep tools.start s

end
end DeepseekScience.Tools
