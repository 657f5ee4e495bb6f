import DeepseekScience.A2a.Identity
import DeepseekScience.Tools.RemoteEffects

/-! At most one remote side effect in a user run. The bounds hold whatever the remote sides answer;
a message can follow up a task that has ended since it was interrupted, since the guard never
forgets an interruption. -/
namespace DeepseekScience.Tools

open DeepseekScience.Core DeepseekScience.A2a Guarded

section
/-! The calls of MCP tools. -/

variable {s s' : McpCalls}

def isCallTo (server tool : Text) (t : McpDynamicTool) : Bool :=
  !t.retrySafe && t.server = server && t.toolName = tool

/-- What the attempts know of the calls that are under way or were made. -/
structure McpTells (s : McpCalls) : Prop where
  once : ∀ server tool, s.inFlight.countP (isCallTo server tool) +
    s.log.countP (isCallOf server tool) ≤ if s.attempts.contains (server, tool) then 1 else 0
  begun : ∀ server tool, s.attempts.contains (server, tool) = true →
    ∃ earlier args, .begun earlier args ∈ s.log ∧ args.isObject = true ∧
      earlier.server = server ∧ earlier.toolName = tool

theorem mcp_reserve_eq_ok {tool : McpDynamicTool} {args : Json} {attempts attempts' : List (Text × Text)}
    (h : tool.reserve args attempts = .ok attempts') :
    args.isObject = true ∧ ((tool.retrySafe = true ∧ attempts' = attempts) ∨
      (tool.retrySafe = false ∧ attempts.contains (tool.server, tool.toolName) = false ∧
        attempts' = (tool.server, tool.toolName) :: attempts)) := by
  rw [McpDynamicTool.reserve] at h
  split_ifs at h with hobject hsafe hattempted
  · exact ⟨by simpa using hobject, Or.inl ⟨hsafe, (Except.ok.inj h).symm⟩⟩
  · exact ⟨by simpa using hobject, Or.inr ⟨by simpa using hsafe, by simpa using hattempted,
      (Except.ok.inj h).symm⟩⟩

theorem mcp_reserve_eq_error {tool : McpDynamicTool} {args : Json} {attempts : List (Text × Text)}
    {error : ToolError} (hargs : args.isObject = true)
    (h : tool.reserve args attempts = .error error) :
    attempts.contains (tool.server, tool.toolName) = true := by
  rw [McpDynamicTool.reserve] at h
  split_ifs at h with hobject hsafe hattempted
  · simp [hargs] at hobject
  · exact hattempted

theorem McpTells.begin (h : McpTells s) {tool : McpDynamicTool} {args : Json}
    {attempts : List (Text × Text)} (hreserve : tool.reserve args s.attempts = .ok attempts) :
    McpTells { attempts := attempts, inFlight := s.inFlight ++ [tool],
               log := s.log ++ [.begun tool args] } := by
  obtain ⟨hargs, ⟨hsafe, rfl⟩ | ⟨hblocked, hfresh, rfl⟩⟩ := mcp_reserve_eq_ok hreserve
  · constructor
    case once =>
      intro server name
      have hold := h.once server name
      simpa [List.countP_append, isCallTo, isCallOf, hsafe] using hold
    case begun =>
      intro server name hattempted
      obtain ⟨earlier, earlierArgs, hmem, hearlier⟩ := h.begun server name hattempted
      exact ⟨earlier, earlierArgs, List.mem_append_left _ hmem, hearlier⟩
  · constructor
    case once =>
      intro server name
      have hold := h.once server name
      have hlog : (s.log ++ [McpEvent.begun tool args]).countP (isCallOf server name) =
          s.log.countP (isCallOf server name) := by
        simp [List.countP_append, isCallOf]
      rw [hlog, List.countP_append, List.countP_singleton]
      by_cases hsame : tool.server = server ∧ tool.toolName = name
      · obtain ⟨rfl, rfl⟩ := hsame
        rw [hfresh, if_neg (by simp)] at hold
        rw [if_pos (by simp [isCallTo, hblocked]), if_pos (by simp)]
        omega
      · have hother : isCallTo server name tool = false := by
          simp only [isCallTo, hblocked, Bool.not_false, Bool.true_and]
          simpa using fun hserver hname => hsame ⟨hserver, hname⟩
        have hcontains : ((tool.server, tool.toolName) :: s.attempts).contains (server, name) =
            s.attempts.contains (server, name) := by
          have hne : (server, name) ≠ (tool.server, tool.toolName) := by
            rintro heq
            obtain ⟨rfl, rfl⟩ := Prod.mk.inj heq
            exact hsame ⟨rfl, rfl⟩
          rw [List.contains_cons, beq_eq_false_iff_ne.mpr hne, Bool.false_or]
        rw [if_neg (by simp [hother]), hcontains]
        exact hold
    case begun =>
      intro server name hattempted
      rw [List.contains_cons, Bool.or_eq_true, beq_iff_eq] at hattempted
      obtain heq | hold := hattempted
      · obtain ⟨rfl, rfl⟩ := Prod.mk.inj heq
        exact ⟨tool, args, by simp, hargs, rfl, rfl⟩
      · obtain ⟨earlier, earlierArgs, hmem, hearlier⟩ := h.begun server name hold
        exact ⟨earlier, earlierArgs, List.mem_append_left _ hmem, hearlier⟩

theorem McpStep.tells (hstep : McpStep s s') (h : McpTells s) : McpTells s' := by
  cases hstep with
  | refuse refused => exact h
  | begin accepted => exact h.begin accepted
  | @call front back tool waits =>
    constructor
    case once =>
      intro server name
      have hold := h.once server name
      rw [waits, List.countP_append, List.countP_cons] at hold
      have hcall : isCallOf server name (.called tool) = isCallTo server name tool := rfl
      simp only [List.countP_append, List.countP_singleton, hcall]
      omega
    case begun =>
      intro server name hattempted
      obtain ⟨earlier, earlierArgs, hmem, hearlier⟩ := h.begun server name hattempted
      exact ⟨earlier, earlierArgs, List.mem_append_left _ hmem, hearlier⟩
  | @drop front back tool waits =>
    constructor
    case once =>
      intro server name
      have hold := h.once server name
      rw [waits, List.countP_append, List.countP_cons] at hold
      simp only [List.countP_append]
      omega
    case begun => exact h.begun

end

section
/-! The whole run. -/

variable {tools : RemoteTools} {s s' : RemoteState tools}

/-- Every tool of a run is in a state that its own calls lead to. -/
structure Sound (s : RemoteState tools) : Prop where
  agents : ∀ agent, Guarded.Reachable (tools.agentMachine agent) (s.agents agent)
  registry : Guarded.Reachable tools.registryMachine s.registry
  mcp : McpTells s.mcp

theorem RemoteStep.sound (hstep : RemoteStep s s') (h : Sound s) : Sound s' := by
  cases hstep with
  | agent agent step others registry mcp =>
    constructor
    case agents =>
      intro other
      by_cases heq : other = agent
      · subst heq
        exact (h.agents other).tail step
      · rw [others other heq]
        exact h.agents other
    case registry => rw [registry]; exact h.registry
    case mcp => rw [mcp]; exact h.mcp
  | registry step => exact { h with registry := h.registry.tail step }
  | mcp step => exact { h with mcp := step.tells h.mcp }

theorem RemoteState.Reachable.sound (h : s.Reachable) : Sound s := by
  induction h with
  | refl =>
    exact ⟨fun _ => Relation.ReflTransGen.refl, Relation.ReflTransGen.refl,
      ⟨by simp [RemoteTools.start], by simp [RemoteTools.start]⟩⟩
  | tail _ hstep ih => exact hstep.sound ih

theorem Sound.guardTells (h : Sound s) (agent : tools.Agent) :
    GuardTells (s.agents agent).guard (s.agents agent).log :=
  guardTells_of_serial (h.agents agent).serial

theorem Sound.effectsOnce (h : Sound s) : EffectsOnce s := by
  have hregistry := registryTells_of_serial h.registry.serial
  constructor
  case agentMessages =>
    intro agent
    have hcount := (h.guardTells agent).messages
    split_ifs at hcount <;> omega
  case agentCancels =>
    intro agent id
    have hcount := (h.guardTells agent).cancels id
    split_ifs at hcount <;> omega
  case registryMessages =>
    have hcount := hregistry.inner.messages
    rw [List.countP_map, isMessage_stripAgent] at hcount
    split_ifs at hcount <;> omega
  case registryBound => exact hregistry.only
  case mcpCalls =>
    intro server name
    have hcount := h.mcp.once server name
    split_ifs at hcount <;> omega
  case agentRefusals =>
    intro agent request error guard hreserve
    obtain ⟨earlier, hmem, hconflict⟩ := (h.guardTells agent).conflict hreserve
    obtain ⟨args, hargs⟩ := (h.agents agent).serial.admitted hmem
    exact ⟨earlier, args, hmem, hconflict, hargs⟩
  case registryRefusals =>
    intro r error guard hreserve
    obtain ⟨earlier, hmem⟩ := hregistry.conflict hreserve
    obtain ⟨args, call, hcall, -⟩ := h.registry.serial.admitted hmem
    exact ⟨earlier, args, call, hmem, hcall⟩
  case mcpRefusals =>
    intro tool args error hargs hreserve
    exact h.mcp.begun _ _ (mcp_reserve_eq_error hargs hreserve)

/-- In every run the bounds hold, and messages only follow up interrupted tasks as long as none
names a task that was interrupted and has another terminal since. -/
theorem remote_effects (tools : RemoteTools) (s : RemoteState tools) (h : s.Reachable) :
    EffectsOnce s ∧ ∀ agent,
      (FollowsUp (s.agents agent).log ↔ NamesInterrupted (s.agents agent).log) :=
  ⟨h.sound.effectsOnce, fun agent => (h.sound.guardTells agent).followsUp_iff⟩

end

section
/-! A sample: one agent, whose task is interrupted and then completed. -/

def oneTask : Text := "task-1".toList

def sampleRequestReader : ArgumentReader InvokeRequest where
  fromValue args :=
    .ok { action := if stringField args "action".toList = some "get_task".toList then .getTask
            else .send
          task := (stringField args "task".toList).getD []
          taskId := stringField args "task_id".toList }

def sampleTools : RemoteTools where
  lib := sampleA2aLib
  codec := sampleCodec
  maxPolls := 128
  Agent := Unit
  config _ := sampleAgent
  requestReader := sampleRequestReader
  registryReader := ⟨fun _ => .error []⟩

def queryArgs : Json :=
  .object [("action".toList, .string "get_task".toList), ("task_id".toList, .string oneTask)]

def followUpArgs : Json :=
  .object [("task".toList, .string "go on".toList), ("task_id".toList, .string oneTask)]

def sampleRequest (action : InvokeAction) (task : Text) : InvokeRequest where
  action := action
  task := task
  taskId := some oneTask
  timeoutSeconds := some sampleAgent.timeoutSeconds

def query : InvokeRequest := sampleRequest .getTask []
def followUp : InvokeRequest := sampleRequest .send "go on".toList

/-- An agent that answers with the task in a state. -/
def inState (state : Text) : Remote where
  invocationId := "call-1".toList
  messageId := "message-1".toList
  requestId _ := "call-2".toList
  card := .card sampleCard []
  reply _ := .body 200
    (.object [("id".toList, .string oneTask),
      ("status".toList, .object [("state".toList, .string state)])]) 60 []
  late _ := false

def interrupted : Remote := inState "TASK_STATE_INPUT_REQUIRED".toList
def completed : Remote := inState "TASK_STATE_COMPLETED".toList

/-- What a call of the sample agent's tool does. -/
def sampleRun (request : InvokeRequest) (remote : Remote) : Invocation :=
  invoke sampleA2aLib sampleCodec 128 sampleAgent request remote

theorem query_admitted :
    (sampleTools.agentMachine ()).admits queryArgs query := rfl

theorem followUp_admitted :
    (sampleTools.agentMachine ()).admits followUpArgs followUp := rfl

theorem query_sent (remote : Remote) (h : (sampleRun query remote).sent = [.getTask oneTask]) :
    (sampleTools.agentMachine ()).invokes query [.getTask oneTask] (sampleRun query remote).result :=
  ⟨remote, rfl, h⟩

/-- The log of a question whose answer was observed. -/
def queryLog (remote : Remote) : List AgentEvent :=
  sectionLog query [.getTask oneTask] ++ [.observed (sampleRun query remote).result]

/-- The guard behind a question whose answer was observed. -/
def afterQuery (guard : InvocationGuard) (remote : Remote) : InvocationGuard :=
  { guard with observedExistingTask := true }.observe (sampleRun query remote).result

def followUpLog : List AgentEvent := sectionLog followUp [.sendMessage (some oneTask)]

variable {guard : InvocationGuard} {log : List AgentEvent}

theorem query_serial (h : Serial (sampleTools.agentMachine ()) guard log) (remote : Remote)
    (hsent : (sampleRun query remote).sent = [.getTask oneTask]) :
    Serial (sampleTools.agentMachine ()) (afterQuery guard remote) (log ++ queryLog remote) := by
  rw [queryLog, ← List.append_assoc]
  exact .completed h query_admitted rfl (query_sent remote hsent)

theorem followUp_accepted (hmutating : guard.mutatingAttempted = false)
    (hresumable : guard.resumableTaskIds.contains oneTask = true) :
    guard.reserve followUp = (.ok (), { guard with mutatingAttempted := true }) := by
  simp only [InvocationGuard.reserve, followUp, sampleRequest, hmutating, Option.any_some,
    hresumable]
  simp

theorem followUp_serial (h : Serial (sampleTools.agentMachine ()) guard log)
    (hmutating : guard.mutatingAttempted = false)
    (hresumable : guard.resumableTaskIds.contains oneTask = true) :
    Serial (sampleTools.agentMachine ()) { guard with mutatingAttempted := true }
      (log ++ followUpLog) := by
  have hinvoked : (sampleTools.agentMachine ()).invokes followUp
      ([.sendMessage (some oneTask)] ++ []) (sampleRun followUp completed).result :=
    ⟨completed, rfl, (by decide +kernel : (sampleRun followUp completed).sent = _)⟩
  exact .dropped h followUp_admitted (followUp_accepted hmutating hresumable) hinvoked

/-- A run of the tools in which only the agent's tool is called. -/
def onlyAgent (s : Guarded.State InvocationGuard InvokeRequest RemoteOp A2aToolResult) :
    RemoteState sampleTools :=
  { sampleTools.start with agents := fun _ => s }

theorem onlyAgent_reachable
    {s : Guarded.State InvocationGuard InvokeRequest RemoteOp A2aToolResult}
    (h : Guarded.Reachable (sampleTools.agentMachine ()) s) : (onlyAgent s).Reachable := by
  induction h with
  | refl => exact Relation.ReflTransGen.refl
  | tail _ hstep ih =>
    exact ih.tail (.agent () hstep (fun other hother => absurd rfl hother) rfl rfl)

theorem interrupted_serial : Serial (sampleTools.agentMachine ()) (afterQuery {} interrupted)
    ([] ++ queryLog interrupted) :=
  query_serial .nil interrupted (by decide +kernel)

theorem completed_serial : Serial (sampleTools.agentMachine ())
    (afterQuery (afterQuery {} interrupted) completed)
    (([] ++ queryLog interrupted) ++ queryLog completed) :=
  query_serial interrupted_serial completed (by decide +kernel)

/-- The main theorem where the agent's tool asks for an interrupted task and follows it up. -/
theorem remote_effects_followUp :
    ∃ s : RemoteState sampleTools, (s.agents ()).log = [] ++ queryLog interrupted ++ followUpLog ∧
      EffectsOnce s ∧ ∀ agent,
        (FollowsUp (s.agents agent).log ↔ NamesInterrupted (s.agents agent).log) :=
  ⟨_, rfl, remote_effects sampleTools _ (onlyAgent_reachable (followUp_serial interrupted_serial
    (by decide +kernel) (by decide +kernel)).reachable)⟩

/-- A message to a task that is completed: the guard still has it as interrupted. -/
theorem completed_task_followed_up : ¬ ∀ (tools : RemoteTools) (s : RemoteState tools),
    s.Reachable → EffectsOnce s ∧ ∀ agent, FollowsUp (s.agents agent).log := by
  intro h
  have hfollows := (h sampleTools _ (onlyAgent_reachable (followUp_serial completed_serial
    (by decide +kernel) (by decide +kernel)).reachable)).2 ()
  have hlast := hfollows
    (([] ++ queryLog interrupted) ++ queryLog completed ++ [.reserved followUp]) _ []
    (by simp [onlyAgent, between, followUpLog, sectionLog]) (some oneTask) rfl
    (by decide +kernel)
  revert hlast
  decide +kernel

end
end DeepseekScience.Tools
