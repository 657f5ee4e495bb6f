import DeepseekScience.Tools.InvocationGuard

/-! The remote side effects of a user run: how many messages, cancellations and calls leave it, to
whom, and which messages follow up a task. -/
namespace DeepseekScience.Tools

open DeepseekScience.Core DeepseekScience.A2a Guarded

section
/-! What a log says. -/

abbrev AgentEvent := Event InvokeRequest RemoteOp A2aToolResult
abbrev RegistryEvent := Event RegistryRequest RegistryOp A2aToolResult

def isMessage : AgentEvent → Bool
  | .sent (.sendMessage _) => true
  | _ => false

def isCancelOf (taskId : Text) : AgentEvent → Bool
  | .sent (.cancelTask id) => id = taskId
  | _ => false

def isRegistryMessage : RegistryEvent → Bool
  | .sent ⟨_, .sendMessage _⟩ => true
  | _ => false

/-- The event is the reservation of a question for a task or of its cancellation. -/
def isTaskAttempt : AgentEvent → Bool
  | .reserved request => request.action = .getTask || request.action = .cancelTask
  | _ => false

/-- The terminal that the event observes, where it is one of the task. -/
def terminalOf (taskId : Text) : AgentEvent → Option A2aTerminal
  | .observed result =>
    if result.terminal.taskId = some taskId then some result.terminal else none
  | _ => none

/-- The most recent terminal of a task. -/
def lastTerminal (taskId : Text) (log : List AgentEvent) : Option A2aTerminal :=
  log.reverse.findSome? (terminalOf taskId)

/-- The task was once observed in a resumable interruption. -/
def wasInterrupted (taskId : Text) (log : List AgentEvent) : Bool :=
  log.any fun event => (terminalOf taskId event).any A2aTerminal.isResumableInterruption

/-- The most recent terminal of the task is a resumable interruption. -/
def isInterrupted (taskId : Text) (log : List AgentEvent) : Bool :=
  (lastTerminal taskId log).any A2aTerminal.isResumableInterruption

/-- Once a question for a task or a cancellation was attempted, a message only follows up a task
whose most recent terminal is a resumable interruption. -/
def FollowsUp (log : List AgentEvent) : Prop :=
  Along (fun before event => ∀ taskId, event = .sent (.sendMessage taskId) →
    before.any isTaskAttempt = true → taskId.any fun id => isInterrupted id before) log

/-- No message names a task that was interrupted once and has another terminal since. -/
def NamesInterrupted (log : List AgentEvent) : Prop :=
  Along (fun before event => ∀ id, event = .sent (.sendMessage (some id)) →
    wasInterrupted id before = true → isInterrupted id before = true) log

/-- The first descriptor that a run binds. -/
def firstBound : List RegistryEvent → Option RegistryAgentDescriptor
  | [] => none
  | .reserved r :: _ => some r.descriptor
  | _ :: log => firstBound log

def isCallOf (server tool : Text) : McpEvent → Bool
  | .called t => !t.retrySafe && t.server = server && t.toolName = tool
  | _ => false

/-- A call that was let in and that stands in the way of a request: for a message any call, for a
cancellation one of the same task, for a question none. -/
def Conflicts (request earlier : InvokeRequest) : Prop :=
  match request.action with
  | .send | .submit => True
  | .getTask => False
  | .cancelTask => earlier.action = .cancelTask ∧ earlier.taskId.getD [] = request.taskId.getD []

/-- The effects of a run that hold whatever the remote sides answer. -/
structure EffectsOnce {tools : RemoteTools} (s : RemoteState tools) : Prop where
  agentMessages : ∀ agent, (s.agents agent).log.countP isMessage ≤ 1
  agentCancels : ∀ agent taskId, (s.agents agent).log.countP (isCancelOf taskId) ≤ 1
  registryMessages : s.registry.log.countP isRegistryMessage ≤ 1
  registryBound : ∀ op, .sent op ∈ s.registry.log → firstBound s.registry.log = some op.descriptor
  mcpCalls : ∀ server tool, s.mcp.log.countP (isCallOf server tool) ≤ 1
  agentRefusals : ∀ agent request error guard,
    (s.agents agent).guard.reserve request = (.error error, guard) →
      ∃ earlier args, .reserved earlier ∈ (s.agents agent).log ∧ Conflicts request earlier ∧
        A2aRemoteTool.request tools.requestReader (tools.config agent) args = .ok earlier
  registryRefusals : ∀ r error guard, s.registry.guard.reserve r = (.error error, guard) →
    ∃ earlier args call, .reserved earlier ∈ s.registry.log ∧
      RegistryA2aTool.arguments tools.registryReader args = .ok call
  mcpRefusals : ∀ (tool : McpDynamicTool) args error, args.isObject = true →
    tool.reserve args s.mcp.attempts = .error error →
      ∃ earlier earlierArgs, .begun earlier earlierArgs ∈ s.mcp.log ∧
        earlierArgs.isObject = true ∧ earlier.server = tool.server ∧
        earlier.toolName = tool.toolName

end

section
/-! What the guard of an agent's tool lets in. -/

variable {guard guard' : InvocationGuard} {request : InvokeRequest} {error : ToolError}

theorem reserve_eq_ok (h : guard.reserve request = (.ok (), guard')) :
    ((request.action = .send ∨ request.action = .submit) ∧ guard.mutatingAttempted = false ∧
      (guard.observedExistingTask = true →
        ∃ id, request.taskId = some id ∧ guard.resumableTaskIds.contains id = true) ∧
      guard' = { guard with mutatingAttempted := true }) ∨
    (request.action = .getTask ∧ guard' = { guard with observedExistingTask := true }) ∨
    (request.action = .cancelTask ∧
      guard.cancelledTaskIds.contains (request.taskId.getD []) = false ∧
      guard' = { guard with
        observedExistingTask := true
        cancelledTaskIds := request.taskId.getD [] :: guard.cancelledTaskIds }) := by
  rw [InvocationGuard.reserve] at h
  cases haction : request.action with
  | getTask =>
    simp only [haction] at h
    exact Or.inr (Or.inl ⟨rfl, (Prod.mk.inj h).2.symm⟩)
  | cancelTask =>
    simp only [haction] at h
    split_ifs at h with hcancelled
    · simp at h
    · exact Or.inr (Or.inr ⟨rfl, by simpa using hcancelled, (Prod.mk.inj h).2.symm⟩)
  | send =>
    simp only [haction] at h
    split_ifs at h with hmutating hresumable
    · simp at h
    · simp at h
    · refine Or.inl ⟨Or.inl rfl, by simpa using hmutating, fun hobserved => ?_,
        (Prod.mk.inj h).2.symm⟩
      cases hid : request.taskId with
      | none => simp [hobserved, hid] at hresumable
      | some id => exact ⟨id, rfl, by simpa [hobserved, hid] using hresumable⟩
  | submit =>
    simp only [haction] at h
    split_ifs at h with hmutating hresumable
    · simp at h
    · simp at h
    · refine Or.inl ⟨Or.inr rfl, by simpa using hmutating, fun hobserved => ?_,
        (Prod.mk.inj h).2.symm⟩
      simp [hobserved] at hresumable

theorem reserve_eq_error (h : guard.reserve request = (.error error, guard')) :
    ((request.action = .send ∨ request.action = .submit) ∧
      (guard.mutatingAttempted = true ∨ guard.observedExistingTask = true) ∧ guard' = guard) ∨
    (request.action = .cancelTask ∧
      guard.cancelledTaskIds.contains (request.taskId.getD []) = true ∧
      guard' = { guard with observedExistingTask := true }) := by
  rw [InvocationGuard.reserve] at h
  cases haction : request.action <;> simp only [haction] at h
  case getTask => simp at h
  case cancelTask =>
    split_ifs at h with hcancelled
    · exact Or.inr ⟨rfl, hcancelled, (Prod.mk.inj h).2.symm⟩
    · simp at h
  all_goals
    split_ifs at h with hmutating hresumable
    · exact Or.inl ⟨by simp, Or.inl hmutating, (Prod.mk.inj h).2.symm⟩
    · rw [Bool.and_eq_true] at hresumable
      exact Or.inl ⟨by simp, Or.inr hresumable.1, (Prod.mk.inj h).2.symm⟩
    · simp at h

end

section
/-! What a section writes. -/

variable {log : List AgentEvent} {request : InvokeRequest} {sent left : List RemoteOp}
  {maxPolls : ℕ}

/-- The entry of a message names a task exactly when there were attempts on tasks before, and then
one that was interrupted. -/
def Justified (before : List AgentEvent) (event : AgentEvent) : Prop :=
  ∀ taskId, event = .sent (.sendMessage taskId) →
    (before.any isTaskAttempt = true ↔ ∃ id, taskId = some id ∧ wasInterrupted id before = true)

/-- What the guard knows of the log. -/
structure GuardTells (guard : InvocationGuard) (log : List AgentEvent) : Prop where
  messages : log.countP isMessage ≤ if guard.mutatingAttempted then 1 else 0
  cancels : ∀ id, log.countP (isCancelOf id) ≤ if guard.cancelledTaskIds.contains id then 1 else 0
  attempted : guard.observedExistingTask = log.any isTaskAttempt
  interrupted : ∀ id, guard.resumableTaskIds.contains id = wasInterrupted id log
  started : log = [] ∨ log.any isTaskAttempt = true ∨ guard.mutatingAttempted = true
  reserved : guard.mutatingAttempted = true → ∃ earlier, .reserved earlier ∈ log
  cancelled : ∀ id, guard.cancelledTaskIds.contains id = true →
    ∃ earlier, .reserved earlier ∈ log ∧ earlier.action = .cancelTask ∧ earlier.taskId.getD [] = id
  justified : Along Justified log

theorem any_isTaskAttempt_section (log : List AgentEvent) (request : InvokeRequest)
    (sent : List RemoteOp) : (log ++ sectionLog request sent).any isTaskAttempt =
    (log.any isTaskAttempt || (request.action = .getTask || request.action = .cancelTask)) := by
  have hsent : (sent.map (Event.sent (R := InvokeRequest) (T := A2aToolResult))).any
      isTaskAttempt = false := by
    simp [isTaskAttempt]
  rw [List.any_append, sectionLog, List.any_cons, hsent, Bool.or_false]
  rfl

theorem wasInterrupted_section (log : List AgentEvent) (request : InvokeRequest)
    (sent : List RemoteOp) (id : Text) :
    wasInterrupted id (log ++ sectionLog request sent) = wasInterrupted id log := by
  simp [wasInterrupted, sectionLog, terminalOf]

theorem countP_section (p : AgentEvent → Bool) (hp : p (.reserved request) = false) :
    (log ++ sectionLog request sent).countP p =
      log.countP p + sent.countP fun op => p (.sent op) := by
  rw [List.countP_append, sectionLog, List.countP_cons_of_neg (by simp [hp]), List.countP_map]
  rfl

/-- Operations that the property does not speak of. -/
theorem along_ops {P : List AgentEvent → AgentEvent → Prop} (h : ∀ op ∈ sent, ∀ before,
    P before (.sent op)) : Along P (sent.map Event.sent) := by
  intro front event back hsplit
  have hmem : event ∈ sent.map (Event.sent (R := InvokeRequest) (T := A2aToolResult)) := by
    rw [hsplit]
    simp
  obtain ⟨op, hop, rfl⟩ := List.mem_map.mp hmem
  exact h op hop front

theorem justified_of_not_message {before : List AgentEvent} {event : AgentEvent}
    (h : isMessage event = false) : Justified before event := by
  rintro taskId rfl
  simp [isMessage] at h

variable {guard guard' : InvocationGuard} {error : ToolError} {result : A2aToolResult}

theorem guardTells_nil : GuardTells {} [] where
  messages := by simp
  cancels := by simp
  attempted := rfl
  interrupted _ := rfl
  started := Or.inl rfl
  reserved h := by simp at h
  cancelled _ h := by simp at h
  justified := along_nil

theorem GuardTells.refused (h : GuardTells guard log)
    (hreserve : guard.reserve request = (.error error, guard')) : GuardTells guard' log := by
  obtain ⟨-, -, rfl⟩ | ⟨-, hcancelled, rfl⟩ := reserve_eq_error hreserve
  · exact h
  · obtain ⟨earlier, hmem, haction, -⟩ := h.cancelled _ hcancelled
    have hattempted : log.any isTaskAttempt = true :=
      List.any_eq_true.mpr ⟨_, hmem, by simp [isTaskAttempt, haction]⟩
    exact { h with attempted := hattempted.symm }

/-- What a section leaves to show: how it changes the guard, and the messages in it. -/
theorem GuardTells.append_section (h : GuardTells guard log)
    (hmessages : log.countP isMessage + sent.countP (fun op => isMessage (.sent op)) ≤
      if guard'.mutatingAttempted then 1 else 0)
    (hcancels : ∀ id, log.countP (isCancelOf id) + sent.countP (fun op => isCancelOf id (.sent op)) ≤
      if guard'.cancelledTaskIds.contains id then 1 else 0)
    (hattempted : guard'.observedExistingTask = (log.any isTaskAttempt ||
      (request.action = .getTask || request.action = .cancelTask)))
    (hresumable : guard'.resumableTaskIds = guard.resumableTaskIds)
    (hstarted : guard'.observedExistingTask = true ∨ guard'.mutatingAttempted = true)
    (hcancelled : ∀ id, guard'.cancelledTaskIds.contains id = true →
      guard.cancelledTaskIds.contains id = true ∨
        request.action = .cancelTask ∧ request.taskId.getD [] = id)
    (hjustified : Along (fun before event => Justified (log ++ before) event)
      (sectionLog request sent)) :
    GuardTells guard' (log ++ sectionLog request sent) where
  messages := by
    rw [countP_section isMessage rfl]
    exact hmessages
  cancels id := by
    rw [countP_section (isCancelOf id) rfl]
    exact hcancels id
  attempted := by
    rw [any_isTaskAttempt_section]
    exact hattempted
  interrupted id := by
    rw [wasInterrupted_section, hresumable]
    exact h.interrupted id
  started := by
    rw [any_isTaskAttempt_section, ← hattempted]
    exact Or.inr hstarted
  reserved _ := ⟨request, by simp [sectionLog]⟩
  cancelled id hid := by
    obtain hold | ⟨haction, htask⟩ := hcancelled id hid
    · obtain ⟨earlier, hmem, hearlier⟩ := h.cancelled id hold
      exact ⟨earlier, List.mem_append_left _ hmem, hearlier⟩
    · exact ⟨request, by simp [sectionLog], haction, htask⟩
  justified := along_append.mpr ⟨h.justified, hjustified⟩

theorem countP_gets_isMessage (ids : List Text) :
    (ids.map RemoteOp.getTask).countP (fun op => isMessage (.sent op)) = 0 := by
  simp [List.countP_eq_zero, isMessage]

theorem countP_gets_isCancelOf (id : Text) (ids : List Text) :
    (ids.map RemoteOp.getTask).countP (fun op => isCancelOf id (.sent op)) = 0 := by
  simp [List.countP_eq_zero, isCancelOf]

/-- A section without a message has nothing to justify. -/
theorem justified_section (hsent : ∀ op ∈ sent, isMessage (.sent op) = false) :
    Along (fun before event => Justified (log ++ before) event) (sectionLog request sent) :=
  (along_cons _).mpr ⟨justified_of_not_message rfl,
    along_ops fun op hop _ => justified_of_not_message (hsent op hop)⟩

/-- The section of a message: the message is its first operation, questions are the others. -/
theorem GuardTells.message_section (h : GuardTells guard log)
    (haction : request.action = .send ∨ request.action = .submit)
    (hmutating : guard.mutatingAttempted = false)
    (hfollows : guard.observedExistingTask = true →
      ∃ id, request.taskId = some id ∧ guard.resumableTaskIds.contains id = true)
    (hsent : AllowedOps maxPolls request sent) :
    GuardTells { guard with mutatingAttempted := true } (log ++ sectionLog request sent) := by
  have hno : (request.action = .getTask || request.action = .cancelTask) = false := by
    obtain haction | haction := haction <;> simp [haction]
  have hmessages := h.messages
  rw [hmutating, if_neg (by simp)] at hmessages
  have hshape : sent = [] ∨ ∃ ids : List Text, ids.length ≤ maxPolls ∧
      sent = .sendMessage request.taskId :: ids.map RemoteOp.getTask := by
    rw [AllowedOps] at hsent
    obtain haction | haction := haction <;> simpa only [haction] using hsent
  -- at the message the guard knows the log up to the reservation, which is no attempt on a task
  have hfirst : Justified (log ++ [.reserved request]) (.sent (.sendMessage request.taskId)) := by
    intro taskId htask
    obtain rfl : request.taskId = taskId := by simpa using htask
    have hattempts := any_isTaskAttempt_section log request []
    have hinterrupted := wasInterrupted_section log request []
    rw [sectionLog, List.map_nil] at hattempts
    simp only [sectionLog, List.map_nil] at hinterrupted
    rw [hattempts, hno, Bool.or_false, ← h.attempted]
    simp only [hinterrupted, ← h.interrupted]
    constructor
    · exact hfollows
    · rintro ⟨id, hid, hresumable⟩
      obtain rfl | hattempted | hmutating' := h.started
      · rw [h.interrupted] at hresumable
        simp [wasInterrupted] at hresumable
      · rw [h.attempted]
        exact hattempted
      · simp [hmutating] at hmutating'
  have hcancels := h.cancels
  apply h.append_section
  · obtain rfl | ⟨ids, -, rfl⟩ := hshape
    · simp only [List.countP_nil]
      omega
    · rw [List.countP_cons_of_pos (by rfl), countP_gets_isMessage]
      simpa using hmessages
  · intro id
    obtain rfl | ⟨ids, -, rfl⟩ := hshape
    · exact hcancels id
    · rw [List.countP_cons_of_neg (by simp [isCancelOf]), countP_gets_isCancelOf]
      exact hcancels id
  · rw [hno, Bool.or_false]
    exact h.attempted
  · rfl
  · exact Or.inr rfl
  · exact fun id hid => Or.inl hid
  · obtain rfl | ⟨ids, -, rfl⟩ := hshape
    · exact justified_section (by simp)
    · refine (along_cons _).mpr ⟨justified_of_not_message rfl, ?_⟩
      rw [List.map_cons]
      refine (along_cons _).mpr ⟨hfirst, along_ops fun op hop _ => ?_⟩
      obtain ⟨id, -, rfl⟩ := List.mem_map.mp hop
      exact justified_of_not_message rfl

theorem GuardTells.get_section (h : GuardTells guard log) (haction : request.action = .getTask)
    (hsent : AllowedOps maxPolls request sent) :
    GuardTells { guard with observedExistingTask := true } (log ++ sectionLog request sent) := by
  rw [AllowedOps, haction] at hsent
  obtain ⟨ids, -, rfl⟩ := hsent
  apply h.append_section
  · rw [countP_gets_isMessage]
    exact h.messages
  · intro id
    rw [countP_gets_isCancelOf]
    exact h.cancels id
  · simp [haction]
  · rfl
  · exact Or.inl rfl
  · exact fun id hid => Or.inl hid
  · apply justified_section
    intro op hop
    obtain ⟨id, -, rfl⟩ := List.mem_map.mp hop
    rfl

theorem GuardTells.cancel_section (h : GuardTells guard log)
    (haction : request.action = .cancelTask)
    (hfresh : guard.cancelledTaskIds.contains (request.taskId.getD []) = false)
    (hsent : AllowedOps maxPolls request sent) :
    GuardTells { guard with
      observedExistingTask := true
      cancelledTaskIds := request.taskId.getD [] :: guard.cancelledTaskIds }
      (log ++ sectionLog request sent) := by
  rw [AllowedOps, haction] at hsent
  have hmessage : ∀ op ∈ sent, isMessage (.sent op) = false := by
    obtain rfl | rfl := hsent <;> simp [isMessage]
  have hnone : sent.countP (fun op => isMessage (.sent op)) = 0 :=
    List.countP_eq_zero.mpr fun op hop => by simp [hmessage op hop]
  have hcount : ∀ id, sent.countP (fun op => isCancelOf id (.sent op)) ≤
      if request.taskId.getD [] = id then 1 else 0 := by
    intro id
    obtain rfl | rfl := hsent
    · simp
    · simp [List.countP_cons, isCancelOf]
  apply h.append_section
  · rw [hnone]
    exact h.messages
  · intro id
    have hid := h.cancels id
    have hsent := hcount id
    by_cases heq : request.taskId.getD [] = id
    · rw [heq] at hfresh
      rw [hfresh, if_neg (by simp)] at hid
      rw [if_pos heq] at hsent
      rw [if_pos (by simp [heq])]
      omega
    · rw [if_neg heq] at hsent
      have hcontains : (request.taskId.getD [] :: guard.cancelledTaskIds).contains id =
          guard.cancelledTaskIds.contains id := by
        rw [List.contains_cons, beq_eq_false_iff_ne.mpr (Ne.symm heq), Bool.false_or]
      rw [hcontains]
      omega
  · simp [haction]
  · rfl
  · exact Or.inl rfl
  · intro id hid
    rw [List.contains_cons, Bool.or_eq_true, beq_iff_eq] at hid
    obtain heq | hold := hid
    · exact Or.inr ⟨haction, heq.symm⟩
    · exact Or.inl hold
  · exact justified_section hmessage

theorem GuardTells.section (h : GuardTells guard log)
    (hreserve : guard.reserve request = (.ok (), guard'))
    (hsent : AllowedOps maxPolls request sent) :
    GuardTells guard' (log ++ sectionLog request sent) := by
  obtain ⟨haction, hmutating, hfollows, rfl⟩ | ⟨haction, rfl⟩ | ⟨haction, hfresh, rfl⟩ :=
    reserve_eq_ok hreserve
  · exact h.message_section haction hmutating hfollows hsent
  · exact h.get_section haction hsent
  · exact h.cancel_section haction hfresh hsent

theorem observe_guard (guard : InvocationGuard) (result : A2aToolResult) :
    guard.observe result =
      { guard with resumableTaskIds := (guard.observe result).resumableTaskIds } := by
  rw [InvocationGuard.observe]
  cases result.terminal.taskId with
  | none => rfl
  | some id =>
    dsimp only
    split_ifs <;> rfl

theorem observe_contains (guard : InvocationGuard) (result : A2aToolResult) (id : Text) :
    (guard.observe result).resumableTaskIds.contains id =
      (guard.resumableTaskIds.contains id ||
        (terminalOf id (.observed result)).any A2aTerminal.isResumableInterruption) := by
  rw [InvocationGuard.observe, terminalOf]
  cases htask : result.terminal.taskId with
  | none => simp
  | some task =>
    by_cases hid : task = id
    · subst hid
      cases hresumable : result.terminal.isResumableInterruption <;> simp [hresumable]
    · cases hresumable : result.terminal.isResumableInterruption <;> simp [hid, Ne.symm hid]

theorem GuardTells.observe (h : GuardTells guard log) (hne : log ≠ []) (result : A2aToolResult) :
    GuardTells (guard.observe result) (log ++ [.observed result]) := by
  have hattempted : (log ++ [Event.observed result]).any isTaskAttempt =
      log.any isTaskAttempt := by
    simp [isTaskAttempt]
  rw [observe_guard]
  constructor
  case messages =>
    rw [List.countP_append, List.countP_singleton, if_neg (by simp [isMessage]), Nat.add_zero]
    exact h.messages
  case cancels =>
    intro id
    rw [List.countP_append, List.countP_singleton, if_neg (by simp [isCancelOf]), Nat.add_zero]
    exact h.cancels id
  case attempted =>
    rw [hattempted]
    exact h.attempted
  case interrupted =>
    intro id
    rw [observe_contains, h.interrupted id, wasInterrupted, wasInterrupted, List.any_append,
      List.any_cons, List.any_nil, Bool.or_false]
  case started =>
    rw [hattempted]
    exact Or.inr (h.started.resolve_left hne)
  case reserved =>
    intro hmutating
    obtain ⟨earlier, hmem⟩ := h.reserved hmutating
    exact ⟨earlier, List.mem_append_left _ hmem⟩
  case cancelled =>
    intro id hid
    obtain ⟨earlier, hmem, hearlier⟩ := h.cancelled id hid
    exact ⟨earlier, List.mem_append_left _ hmem, hearlier⟩
  case justified =>
    exact along_append.mpr ⟨h.justified,
      (along_cons _).mpr ⟨justified_of_not_message rfl, along_nil⟩⟩

end

section
/-! The runs of one agent's tool. -/

variable {lib : A2aLib} {codec : SegmentCodec} {maxPolls : ℕ}
  {reader : ArgumentReader InvokeRequest} {config : A2aAgentConfig} {guard : InvocationGuard}
  {log : List AgentEvent}

theorem allowedOps_of_invokes {request : InvokeRequest} {sent : List RemoteOp}
    {result : A2aToolResult}
    (h : (A2aRemoteTool.machine lib codec maxPolls reader config).invokes request sent result) :
    AllowedOps maxPolls request sent := by
  obtain ⟨remote, -, rfl⟩ := h
  exact invokeWithPolicy_sent lib codec maxPolls config request none remote

/-- Sections keep what the guard knows. -/
theorem guardTells_of_serial
    (h : Serial (A2aRemoteTool.machine lib codec maxPolls reader config) guard log) :
    GuardTells guard log := by
  induction h with
  | nil => exact guardTells_nil
  | refused serial admitted refused ih => exact ih.refused refused
  | dropped serial admitted accepted invoked ih =>
    exact ih.section accepted (allowedOps_of_invokes invoked).of_append
  | completed serial admitted accepted invoked ih =>
    exact (ih.section accepted (allowedOps_of_invokes invoked)).observe (by simp [sectionLog]) _

/-- A refusal is due to a call that was let in before. -/
theorem GuardTells.conflict {guard' : InvocationGuard} {request : InvokeRequest}
    {error : ToolError} (h : GuardTells guard log)
    (hreserve : guard.reserve request = (.error error, guard')) :
    ∃ earlier, .reserved earlier ∈ log ∧ Conflicts request earlier := by
  obtain ⟨haction, hset, -⟩ | ⟨haction, hcancelled, -⟩ := reserve_eq_error hreserve
  · have hearlier : ∃ earlier, .reserved earlier ∈ log := by
      obtain hmutating | hobserved := hset
      · exact h.reserved hmutating
      · rw [h.attempted, List.any_eq_true] at hobserved
        obtain ⟨event, hmem, hevent⟩ := hobserved
        cases event with
        | reserved earlier => exact ⟨earlier, hmem⟩
        | sent op => simp [isTaskAttempt] at hevent
        | observed result => simp [isTaskAttempt] at hevent
    obtain ⟨earlier, hmem⟩ := hearlier
    refine ⟨earlier, hmem, ?_⟩
    rw [Conflicts]
    obtain haction | haction := haction <;> simp [haction]
  · obtain ⟨earlier, hmem, hearlier⟩ := h.cancelled _ hcancelled
    refine ⟨earlier, hmem, ?_⟩
    rw [Conflicts, haction]
    exact hearlier

/-- A message follows up an interrupted task, unless it names one that was interrupted and has
another terminal since. -/
theorem GuardTells.followsUp_iff (h : GuardTells guard log) :
    FollowsUp log ↔ NamesInterrupted log := by
  constructor
  · intro hfollows before event back hsplit id hmessage hwas
    have hattempted := (h.justified before event back hsplit _ hmessage).mpr ⟨id, rfl, hwas⟩
    simpa using hfollows before event back hsplit _ hmessage hattempted
  · intro hnames before event back hsplit taskId hmessage hattempted
    obtain ⟨id, rfl, hwas⟩ := (h.justified before event back hsplit _ hmessage).mp hattempted
    simpa using hnames before event back hsplit id hmessage hwas

end

section
/-! The runs of the bridge to the registry. -/

variable {lib : A2aLib} {codec : SegmentCodec} {maxPolls : ℕ}
  {reader : ArgumentReader RegistryCallArgs} {guard guard' : RegistryInvocationGuard}
  {log log' : List RegistryEvent} {r : RegistryRequest} {error : ToolError}

/-- An entry without the agent that it is about. -/
def stripAgent : RegistryEvent → AgentEvent
  | .reserved r => .reserved r.request
  | .sent op => .sent op.op
  | .observed result => .observed result

theorem isMessage_stripAgent : isMessage ∘ stripAgent = isRegistryMessage := by
  funext event
  cases event with
  | reserved r => rfl
  | sent op => obtain ⟨descriptor, op⟩ := op; cases op <;> rfl
  | observed result => rfl

theorem stripAgent_section (ops : List RemoteOp) :
    (sectionLog r (ops.map (RegistryOp.mk r.descriptor)) : List RegistryEvent).map stripAgent =
      sectionLog r.request ops := by
  simp [sectionLog, stripAgent, Function.comp_def]

theorem firstBound_append :
    firstBound (log ++ log') = (firstBound log).or (firstBound log') := by
  induction log with
  | nil => rfl
  | cons event log ih =>
    cases event with
    | reserved r => rfl
    | sent op => exact ih
    | observed result => exact ih

theorem exists_reserved_of_firstBound {descriptor : RegistryAgentDescriptor}
    (h : firstBound log = some descriptor) : ∃ earlier, .reserved earlier ∈ log := by
  induction log with
  | nil => simp [firstBound] at h
  | cons event log ih =>
    cases event with
    | reserved r => exact ⟨r, List.mem_cons_self⟩
    | sent op =>
      obtain ⟨earlier, hmem⟩ := ih h
      exact ⟨earlier, List.mem_cons_of_mem _ hmem⟩
    | observed result =>
      obtain ⟨earlier, hmem⟩ := ih h
      exact ⟨earlier, List.mem_cons_of_mem _ hmem⟩

theorem registry_reserve_eq_ok (h : guard.reserve r = (.ok (), guard')) :
    guard.boundDescriptor.any (· ≠ r.descriptor) = false ∧
      ∃ inner, guard.inner.reserve r.request = (.ok (), inner) ∧
        guard' = ⟨some (guard.boundDescriptor.getD r.descriptor), inner⟩ := by
  rw [RegistryInvocationGuard.reserve] at h
  split_ifs at h with hbound
  · simp at h
  · refine ⟨by simpa using hbound, ?_⟩
    rcases hinner : guard.inner.reserve r.request with ⟨outcome, inner⟩
    rw [hinner] at h
    cases outcome with
    | error error => simp at h
    | ok u => exact ⟨inner, rfl, (Prod.mk.inj h).2.symm⟩

theorem registry_reserve_eq_error (h : guard.reserve r = (.error error, guard')) :
    (guard.boundDescriptor.isSome = true ∧ guard' = guard) ∨
      ∃ inner, guard.inner.reserve r.request = (.error error, inner) ∧
        guard' = { guard with inner := inner } := by
  rw [RegistryInvocationGuard.reserve] at h
  split_ifs at h with hbound
  · refine Or.inl ⟨?_, (Prod.mk.inj h).2.symm⟩
    cases hsome : guard.boundDescriptor with
    | none => simp [hsome] at hbound
    | some descriptor => rfl
  · rcases hinner : guard.inner.reserve r.request with ⟨outcome, inner⟩
    rw [hinner] at h
    cases outcome with
    | error e =>
      obtain ⟨herror, hguard⟩ := Prod.mk.inj h
      refine Or.inr ⟨inner, ?_, hguard.symm⟩
      rw [Except.error.inj herror]
    | ok u => simp at h

/-- What the guard of the bridge knows of the log. -/
structure RegistryTells (guard : RegistryInvocationGuard) (log : List RegistryEvent) : Prop where
  inner : GuardTells guard.inner (log.map stripAgent)
  bound : guard.boundDescriptor = firstBound log
  only : ∀ op, .sent op ∈ log → firstBound log = some op.descriptor

theorem registryTells_nil : RegistryTells {} [] where
  inner := guardTells_nil
  bound := rfl
  only := by simp

theorem RegistryTells.section {ops : List RemoteOp} (h : RegistryTells guard log)
    (hreserve : guard.reserve r = (.ok (), guard')) (hops : AllowedOps maxPolls r.request ops) :
    RegistryTells guard' (log ++ sectionLog r (ops.map (RegistryOp.mk r.descriptor))) := by
  obtain ⟨hsame, inner, hinner, rfl⟩ := registry_reserve_eq_ok hreserve
  have hfirst : firstBound (log ++ sectionLog r (ops.map (RegistryOp.mk r.descriptor))) =
      some (guard.boundDescriptor.getD r.descriptor) := by
    rw [firstBound_append, ← h.bound]
    cases guard.boundDescriptor <;> rfl
  have hdescriptor : guard.boundDescriptor.getD r.descriptor = r.descriptor := by
    cases hbound : guard.boundDescriptor with
    | none => rfl
    | some descriptor => simpa [hbound] using hsame
  constructor
  case inner =>
    rw [List.map_append, stripAgent_section]
    exact h.inner.section hinner hops
  case bound => exact hfirst.symm
  case only =>
    intro op hmem
    rw [hfirst, hdescriptor]
    obtain hmem | hmem := List.mem_append.mp hmem
    · have hold := h.only op hmem
      rw [← h.bound] at hold
      rw [← hdescriptor, hold, Option.getD_some]
    · have hop : op ∈ ops.map (RegistryOp.mk r.descriptor) := by
        simpa [sectionLog] using hmem
      obtain ⟨op, -, rfl⟩ := List.mem_map.mp hop
      rfl

theorem RegistryTells.observe (h : RegistryTells guard log) (hne : log ≠ [])
    (result : A2aToolResult) : RegistryTells (guard.observe result) (log ++ [.observed result]) := by
  have hfirst : firstBound (log ++ [.observed result]) = firstBound log := by
    rw [firstBound_append]
    cases firstBound log <;> rfl
  constructor
  case inner =>
    rw [List.map_append]
    exact h.inner.observe (by simpa using hne) result
  case bound => rw [hfirst]; exact h.bound
  case only =>
    intro op hmem
    rw [hfirst]
    exact h.only op (by simpa using hmem)

theorem registry_ops_of_invokes {sent : List RegistryOp} {result : A2aToolResult}
    (h : (RegistryA2aTool.machine lib codec maxPolls reader).invokes r sent result) :
    ∃ ops, sent = ops.map (RegistryOp.mk r.descriptor) ∧ AllowedOps maxPolls r.request ops := by
  obtain ⟨policy, preflight, remote, run, rfl, -, hsent⟩ := h
  exact ⟨_, hsent, invokeRegistryAnonymous_sent lib codec maxPolls
    (RegistryA2aTool.config lib r.descriptor) r.request policy preflight remote⟩

theorem registryTells_of_serial
    (h : Serial (RegistryA2aTool.machine lib codec maxPolls reader) guard log) :
    RegistryTells guard log := by
  induction h with
  | nil => exact registryTells_nil
  | refused serial admitted refused ih =>
    obtain ⟨-, rfl⟩ | ⟨inner, hinner, rfl⟩ := registry_reserve_eq_error refused
    · exact ih
    · exact { ih with inner := ih.inner.refused hinner }
  | dropped serial admitted accepted invoked ih =>
    obtain ⟨ops, hsent, hops⟩ := registry_ops_of_invokes invoked
    obtain ⟨front, back, rfl, rfl, -⟩ := List.append_eq_map_iff.mp hsent
    exact ih.section accepted hops.of_append
  | completed serial admitted accepted invoked ih =>
    obtain ⟨ops, rfl, hops⟩ := registry_ops_of_invokes invoked
    exact (ih.section accepted hops).observe (by simp [sectionLog]) _

theorem RegistryTells.conflict (h : RegistryTells guard log)
    (hreserve : guard.reserve r = (.error error, guard')) :
    ∃ earlier, .reserved earlier ∈ log := by
  obtain ⟨hsome, -⟩ | ⟨inner, hinner, -⟩ := registry_reserve_eq_error hreserve
  · obtain ⟨descriptor, hdescriptor⟩ := Option.isSome_iff_exists.mp hsome
    exact exists_reserved_of_firstBound (h.bound.symm.trans hdescriptor)
  · obtain ⟨earlier, hmem, -⟩ := h.inner.conflict hinner
    obtain ⟨event, hevent, heq⟩ := List.mem_map.mp hmem
    cases event with
    | reserved earlier => exact ⟨earlier, hevent⟩
    | sent op => simp [stripAgent] at heq
    | observed result => simp [stripAgent] at heq

end
end DeepseekScience.Tools
