import DeepseekScience.Agent.Runner

/-! What the client has seen against what the history records. The ledger is the part of a
run that both depend on; within one iteration it passes through three phases, and each
primitive of the Runner keeps the phase or moves it on. -/
namespace DeepseekScience.Agent

open Tools Exits

/-! The deliveries as the client reads them. -/

namespace Delivery

def thinking (d : Delivery) : Text :=
  match d.event with
  | .thinking text => if d.accepted then text else []
  | _ => []

def text (d : Delivery) : Text :=
  match d.event with
  | .text text => if d.accepted then text else []
  | _ => []

/-- An accepted batch of tool calls. -/
def isCalls (d : Delivery) : Bool :=
  match d.event with
  | .toolCalls _ => d.accepted
  | _ => false

/-- An offered draft reset: the run has rejected the draft. -/
def isReset (d : Delivery) : Bool :=
  match d.event with
  | .draftReset _ => true
  | _ => false

/-- The kind of an accepted terminal event. -/
def terminalKind (d : Delivery) : Option CompleteKind :=
  match d.event with
  | .complete kind .. => if d.accepted then some kind else none
  | _ => none

/-- A delivery that carries no draft, no batch and no reset. -/
def IsSilent (d : Delivery) : Prop :=
  d.thinking = [] ∧ d.text = [] ∧ d.isCalls = false ∧ d.isReset = false

end Delivery

def thinkingOf (sent : List Delivery) : Text := sent.flatMap Delivery.thinking

def textOf (sent : List Delivery) : Text := sent.flatMap Delivery.text

def callsAccepted (sent : List Delivery) : Bool := sent.any Delivery.isCalls

def resetSent (sent : List Delivery) : Bool := sent.any Delivery.isReset

def terminalsOf (sent : List Delivery) : List CompleteKind := sent.filterMap Delivery.terminalKind

@[simp] theorem terminalsOf_append (sent sent' : List Delivery) :
    terminalsOf (sent ++ sent') = terminalsOf sent ++ terminalsOf sent' := List.filterMap_append ..

section
variable (sent : List Delivery) (d : Delivery)

@[simp] theorem thinkingOf_concat : thinkingOf (sent ++ [d]) = thinkingOf sent ++ d.thinking := by
  simp [thinkingOf]

@[simp] theorem textOf_concat : textOf (sent ++ [d]) = textOf sent ++ d.text := by simp [textOf]

@[simp] theorem callsAccepted_concat :
    callsAccepted (sent ++ [d]) = (callsAccepted sent || d.isCalls) := by simp [callsAccepted]

@[simp] theorem resetSent_concat : resetSent (sent ++ [d]) = (resetSent sent || d.isReset) := by
  simp [resetSent]

theorem terminalsOf_concat :
    terminalsOf (sent ++ [d]) = terminalsOf sent ++ d.terminalKind.toList := by
  cases h : d.terminalKind <;> simp [terminalsOf, h]

end

/-! The history as the records of one iteration. -/

def IsNotice (m : ChatMessage) : Prop := m.role = .system

def assistants (added : List ChatMessage) : List ChatMessage :=
  added.filter fun m => m.role == .assistant

/-- The messages that an iteration adds record exactly what it delivered: nothing, or one
assistant message with the accepted reasoning and text, hidden just when the draft was
rejected. The calls and results among them follow the tool protocol. -/
structure Recorded (sent : List Delivery) (added : List ChatMessage) : Prop where
  protocol : ToolProtocolValid added
  silent : thinkingOf sent = [] → textOf sent = [] → callsAccepted sent = false →
    assistants added = [] ∧ resetSent sent = false
  draft : ¬ (thinkingOf sent = [] ∧ textOf sent = [] ∧ callsAccepted sent = false) →
    ∃ m, assistants added = [m] ∧ m.reasoningContent.getD [] = thinkingOf sent ∧
      m.content.getD [] = textOf sent ∧ (m.harnessNotice = true ↔ resetSent sent = true)

/-- The phases of an iteration: a draft may still grow, a published batch awaits its results, or
all that was published is recorded. -/
inductive Phase where
  | drafting
  | called (calls : List ToolCall)
  | settled

/-- What a phase says about the deliveries of the iteration, the messages that it has added and
the published turn. -/
def Phase.Holds (sent : List Delivery) (added : List ChatMessage) (p : PublishedTurn) :
    Phase → Prop
  | .drafting => p.thinking = thinkingOf sent ∧ p.text = textOf sent ∧ p.toolCalls = none ∧
      callsAccepted sent = false ∧ resetSent sent = false ∧ ∀ m ∈ added, IsNotice m
  | .called calls => p.thinking = thinkingOf sent ∧ p.text = textOf sent ∧
      p.toolCalls = some calls ∧ calls ≠ [] ∧ callsAccepted sent = true ∧
      resetSent sent = false ∧ ∀ m ∈ added, IsNotice m
  | .settled => p = {} ∧ Recorded sent added

/-- The part of a run's state that deliveries and history depend on. -/
structure Ledger (σ : Type) where
  messages : List ChatMessage
  published : PublishedTurn
  sent : List Delivery
  store : σ
  cursor : ℕ

section
variable {σ : Type}

def RunState.ledger (s : RunState σ) : Ledger σ where
  messages := s.session.messages
  published := s.progress.published
  sent := s.tx.sent
  store := s.store
  cursor := s.historyCheckpointCursor

/-- The reasoning and the text that a client has seen. -/
def draftsOf (sent : List Delivery) : Text × Text := (thinkingOf sent, textOf sent)

theorem draftsOf_concat {sent : List Delivery} {d : Delivery} (ht : d.thinking = [])
    (hx : d.text = []) : draftsOf (sent ++ [d]) = draftsOf sent := by
  simp [draftsOf, ht, hx]

/-- An assertion about the drafts seen, the checkpointed part of the history and the store. -/
abbrev StoreInvariant (σ : Type) := Text × Text → List ChatMessage → σ → Prop

/-- `I` holds of the drafts seen, the checkpointed part of the history and the store. -/
def Stored (I : StoreInvariant σ) (l : Ledger σ) : Prop :=
  l.cursor ≤ l.messages.length ∧ I (draftsOf l.sent) (l.messages.take l.cursor) l.store

/-- The ledger of an iteration that began with `b`, in a phase. -/
def At (I : StoreInvariant σ) (b : Ledger σ) (phase : Phase) (l : Ledger σ) : Prop :=
  ∃ sent added, l.sent = b.sent ++ sent ∧ l.messages = b.messages ++ added ∧
    phase.Holds sent added l.published ∧ terminalsOf sent = [] ∧ Stored I l

/-- The accepted terminal event is the last delivery and has the kind of the outcome; a
cancelled run has none. -/
def Terminated (o : RunOutcome) (sent : List Delivery) : Prop :=
  o.kind = .cancelled ∧ terminalsOf sent = [] ∨
    o.kind ≠ .cancelled ∧ ∃ front last, sent = front ++ [last] ∧ terminalsOf front = [] ∧
      last.terminalKind = some o.kind

/-- The ledger when the run is left in an iteration that began with `b`. -/
def Left (I : StoreInvariant σ) (b : Ledger σ) (o : RunOutcome) (l : Ledger σ) : Prop :=
  ∃ sent added, l.sent = b.sent ++ sent ∧ l.messages = b.messages ++ added ∧
    Phase.settled.Holds sent added l.published ∧ Stored I l ∧ Terminated o sent

theorem Stored.append {I : StoreInvariant σ} {l l' : Ledger σ} (h : Stored I l)
    {ms : List ChatMessage} (hmessages : l'.messages = l.messages ++ ms)
    (hsent : draftsOf l'.sent = draftsOf l.sent) (hstore : l'.store = l.store)
    (hcursor : l'.cursor = l.cursor) : Stored I l' := by
  obtain ⟨hle, hI⟩ := h
  refine ⟨?_, ?_⟩
  · rw [hmessages, hcursor, List.length_append]
    omega
  · rw [hmessages, hsent, hstore, hcursor, List.take_append_of_le_length hle]
    exact hI

theorem Stored.send {I : StoreInvariant σ} {l : Ledger σ}
    (h : Stored I l) {d : Delivery} (ht : d.thinking = []) (hx : d.text = []) :
    Stored I { l with sent := l.sent ++ [d] } := by
  refine ⟨h.1, ?_⟩
  rw [draftsOf_concat ht hx]
  exact h.2

/-! Messages that the primitives add. -/

theorem toolProtocolValid_of_notices {ms : List ChatMessage} (h : ∀ m ∈ ms, IsNotice m) :
    ToolProtocolValid ms := by
  induction ms with
  | nil => rfl
  | cons m ms ih =>
    have hm : m.role = .system := h m (List.mem_cons_self ..)
    have htail := ih fun m hm => h m (List.mem_cons_of_mem _ hm)
    simpa [ToolProtocolValid, protocolStep, openedCalls, hm] using htail

theorem assistants_of_notices {ms : List ChatMessage} (h : ∀ m ∈ ms, IsNotice m) :
    assistants ms = [] := by
  rw [assistants, List.filter_eq_nil_iff]
  intro m hm
  simp [show m.role = .system from h m hm]

theorem assistants_append (xs ys : List ChatMessage) :
    assistants (xs ++ ys) = assistants xs ++ assistants ys := List.filter_append ..

/-- Results that answer the pending calls in order leave nothing pending. -/
theorem foldlM_results {ids : List Text} {ms : List ChatMessage}
    (hrole : ∀ m ∈ ms, m.role = .tool) (hids : ms.map ChatMessage.toolCallId = ids.map some) :
    ms.foldlM protocolStep ids = some [] := by
  induction ids generalizing ms with
  | nil =>
    have hms : ms = [] := List.map_eq_nil_iff.mp hids
    subst hms
    rfl
  | cons id ids ih =>
    obtain _ | ⟨m, ms⟩ := ms
    · exact absurd hids (by simp)
    · simp only [List.map_cons, List.cons.injEq] at hids
      have hm := hrole m (List.mem_cons_self ..)
      have hrest := ih (fun m hm => hrole m (List.mem_cons_of_mem _ hm)) hids.2
      rw [List.foldlM_cons]
      simpa [protocolStep, hm, hids.1] using hrest

/-- The message of a published turn. -/
structure Records (p : PublishedTurn) (m : ChatMessage) : Prop where
  role : m.role = .assistant
  reasoning : m.reasoningContent.getD [] = p.thinking
  content : m.content.getD [] = p.text
  calls : m.toolCalls = p.toolCalls

theorem nonempty_getD (t : Text) : (nonempty t).getD [] = t := by
  cases t <;> rfl

theorem intoMessage_records {p : PublishedTurn} (h : p.isEmpty = false) (usage : Usage) :
    ∃ m, p.intoMessage usage = some m ∧ Records p m := by
  unfold PublishedTurn.intoMessage
  rw [if_neg (by simp [h])]
  refine ⟨_, rfl, ?_⟩
  cases hcalls : p.toolCalls with
  | none => exact ⟨rfl, nonempty_getD _, rfl, hcalls.symm⟩
  | some calls => exact ⟨rfl, nonempty_getD _, nonempty_getD _, hcalls.symm⟩

/-! The primitives on the ledger. -/

@[simp] theorem ledger_push (s : RunState σ) (m : ChatMessage) :
    (s.push m).ledger = { s.ledger with messages := s.ledger.messages ++ [m] } := rfl

@[simp] theorem ledger_setPublished (s : RunState σ) (p : PublishedTurn) :
    (s.setPublished p).ledger = { s.ledger with published := p } := rfl

@[simp] theorem ledger_setStatus (s : RunState σ) (status : FrameStatus) :
    (s.setStatus status).ledger = s.ledger := rfl

@[simp] theorem ledger_setPlan (s : RunState σ) (plan : Option PlanState) :
    (s.setPlan plan).ledger = s.ledger := rfl

@[simp] theorem ledger_updateGates (s : RunState σ) (f : GateState → GateState) :
    (s.updateGates f).ledger = s.ledger := rfl

theorem ledger_foldl_push (ms : List ChatMessage) (s : RunState σ) :
    (ms.foldl RunState.push s).ledger = { s.ledger with messages := s.ledger.messages ++ ms } := by
  induction ms generalizing s with
  | nil => simp
  | cons m ms ih =>
    rw [List.foldl_cons, ih, ledger_push]
    simp

/-- What recording the published turn adds to the history. -/
def recordedMessages (p : PublishedTurn) (usage : Usage) (hidden : Bool) : List ChatMessage :=
  ((p.intoMessage usage).map fun m => { m with harnessNotice := hidden }).toList

theorem ledger_recordPublished (s : RunState σ) (hidden : Bool) :
    (s.recordPublished hidden).ledger =
      { s.ledger with
        published := {}
        messages := s.ledger.messages ++
          recordedMessages s.progress.published s.progress.iterationUsage hidden } := by
  rw [RunState.recordPublished, RunProgress.publishedMessage, recordedMessages]
  cases s.progress.published.intoMessage s.progress.iterationUsage with
  | none => simp [RunState.setPublished, RunState.ledger]
  | some m => simp [RunState.setPublished, RunState.ledger, RunState.push]

/-! The transitions between the phases. -/

variable {sent sent' : List Delivery} {added : List ChatMessage} {p : PublishedTurn}
  {phase : Phase} {d : Delivery}

theorem Recorded.withSilent (h : Recorded sent added) (hd : d.IsSilent) :
    Recorded (sent ++ [d]) added := by
  obtain ⟨hthinking, htext, hcalls, hreset⟩ := hd
  refine ⟨h.protocol, ?_, ?_⟩
  · simpa [hthinking, htext, hcalls, hreset] using h.silent
  · simpa [hthinking, htext, hcalls, hreset] using h.draft

theorem Phase.Holds.withSilent (h : phase.Holds sent added p) (hd : d.IsSilent) :
    phase.Holds (sent ++ [d]) added p := by
  cases phase with
  | settled => exact ⟨h.1, h.2.withSilent hd⟩
  | drafting =>
    obtain ⟨hthinking, htext, hcalls, hreset⟩ := hd
    simpa [Phase.Holds, hthinking, htext, hcalls, hreset] using h
  | called calls =>
    obtain ⟨hthinking, htext, hcalls, hreset⟩ := hd
    simpa [Phase.Holds, hthinking, htext, hcalls, hreset] using h

theorem Recorded.withNotice (h : Recorded sent added) {m : ChatMessage} (hm : IsNotice m) :
    Recorded sent (added ++ [m]) := by
  have hms : ∀ m' ∈ [m], IsNotice m' := by
    intro m' hm'
    rw [List.mem_singleton.mp hm']
    exact hm
  have hsame : assistants (added ++ [m]) = assistants added := by
    rw [assistants_append, assistants_of_notices hms, List.append_nil]
  refine ⟨h.protocol.append (toolProtocolValid_of_notices hms), ?_, ?_⟩
  · rw [hsame]
    exact h.silent
  · rw [hsame]
    exact h.draft

theorem Phase.Holds.withNotice (h : phase.Holds sent added p) {m : ChatMessage} (hm : IsNotice m) :
    phase.Holds sent (added ++ [m]) p := by
  have hmem : ∀ {ms : List ChatMessage}, (∀ m' ∈ ms, IsNotice m') →
      ∀ m' ∈ ms ++ [m], IsNotice m' := by
    intro ms hms m' hm'
    rcases List.mem_append.mp hm' with hm' | hm'
    · exact hms m' hm'
    · rw [List.mem_singleton.mp hm']
      exact hm
  cases phase with
  | settled => exact ⟨h.1, h.2.withNotice hm⟩
  | drafting =>
    obtain ⟨hthinking, htext, hnone, hcalls, hreset, hms⟩ := h
    exact ⟨hthinking, htext, hnone, hcalls, hreset, hmem hms⟩
  | called calls =>
    obtain ⟨hthinking, htext, hsome, hne, hcalls, hreset, hms⟩ := h
    exact ⟨hthinking, htext, hsome, hne, hcalls, hreset, hmem hms⟩

/-- Recording a draft settles the iteration. A hidden draft needs its reset among the
deliveries, and has to show something. -/
theorem recorded_of_drafting (h : Phase.drafting.Holds sent added p) {hidden : Bool}
    (hthinking : thinkingOf sent' = thinkingOf sent) (htext : textOf sent' = textOf sent)
    (hcalls : callsAccepted sent' = false) (hreset : resetSent sent' = hidden)
    (hshown : hidden = true → p.isEmpty = false) (usage : Usage) :
    Recorded sent' (added ++ recordedMessages p usage hidden) := by
  obtain ⟨hpt, hpx, hnone, -, -, hms⟩ := h
  cases hempty : p.isEmpty with
  | true =>
    have hnothing : recordedMessages p usage hidden = [] := by
      simp [recordedMessages, PublishedTurn.intoMessage, hempty]
    have hhidden : hidden = false := by
      by_contra hh
      rw [hshown (by simpa using hh)] at hempty
      simp at hempty
    obtain ⟨hpt', hpx'⟩ : p.thinking = [] ∧ p.text = [] := by
      simpa [PublishedTurn.isEmpty, hnone] using hempty
    rw [hnothing, List.append_nil]
    refine ⟨toolProtocolValid_of_notices hms,
      fun _ _ _ => ⟨assistants_of_notices hms, hreset.trans hhidden⟩, fun hne => ?_⟩
    refine absurd ⟨?_, ?_, hcalls⟩ hne
    · rw [hthinking, ← hpt, hpt']
    · rw [htext, ← hpx, hpx']
  | false =>
    obtain ⟨m, hm, hrec⟩ := intoMessage_records hempty usage
    have hadded : recordedMessages p usage hidden = [{ m with harnessNotice := hidden }] := by
      simp [recordedMessages, hm]
    have hassistants : assistants (added ++ [{ m with harnessNotice := hidden }]) =
        [{ m with harnessNotice := hidden }] := by
      rw [assistants_append, assistants_of_notices hms]
      simp [assistants, hrec.role]
    rw [hadded]
    refine ⟨(toolProtocolValid_of_notices hms).append ?_, fun h1 h2 _ => ?_, fun _ => ?_⟩
    · simp [ToolProtocolValid, protocolStep, openedCalls, hrec.role, hrec.calls, hnone]
    · rw [hthinking, ← hpt] at h1
      rw [htext, ← hpx] at h2
      simp [PublishedTurn.isEmpty, h1, h2, hnone] at hempty
    · refine ⟨_, hassistants, hrec.reasoning.trans ?_, hrec.content.trans ?_, ?_⟩
      · rw [hpt, hthinking]
      · rw [hpx, htext]
      · rw [hreset]

/-- Recording a published batch together with a result for each of its calls, in order. -/
theorem recorded_of_called {calls : List ToolCall} (h : (Phase.called calls).Holds sent added p)
    {results : List ChatMessage} (hrole : ∀ m ∈ results, m.role = .tool)
    (hids : results.map ChatMessage.toolCallId = (calls.map ToolCall.id).map some)
    (usage : Usage) : Recorded sent (added ++ recordedMessages p usage false ++ results) := by
  obtain ⟨hpt, hpx, hsome, hne, hcalls, hreset, hms⟩ := h
  have hempty : p.isEmpty = false := by
    simp [PublishedTurn.isEmpty, hsome, hne]
  obtain ⟨m, hm, hrec⟩ := intoMessage_records hempty usage
  have hadded : recordedMessages p usage false = [{ m with harnessNotice := false }] := by
    simp [recordedMessages, hm]
  have hresults : assistants results = [] := by
    rw [assistants, List.filter_eq_nil_iff]
    intro r hr
    simp [hrole r hr]
  rw [hadded]
  refine ⟨?_, fun _ _ h => absurd (hcalls.symm.trans h) (by simp), fun _ => ?_⟩
  · rw [List.append_assoc]
    refine (toolProtocolValid_of_notices hms).append ?_
    rw [ToolProtocolValid, List.singleton_append, List.foldlM_cons]
    have hopen : protocolStep [] { m with harnessNotice := false } =
        some (calls.map ToolCall.id) := by
      simp [protocolStep, openedCalls, hrec.role, hrec.calls, hsome]
    rw [hopen]
    exact foldlM_results hrole hids
  · refine ⟨{ m with harnessNotice := false }, ?_, hrec.reasoning.trans hpt,
      hrec.content.trans hpx, by simp [hreset]⟩
    rw [assistants_append, assistants_append, assistants_of_notices hms, hresults]
    simp [assistants, hrec.role]

/-- A step that leaves a phase by recording all that was published. -/
def Settles (phase : Phase) (f : RunState σ → RunState σ) : Prop :=
  ∀ s sent added, phase.Holds sent added s.ledger.published →
    ∃ ms, (f s).ledger = { s.ledger with published := {}, messages := s.ledger.messages ++ ms } ∧
      Recorded sent (added ++ ms)

theorem settles_id : Settles .settled (id : RunState σ → RunState σ) := by
  rintro s sent added ⟨hp, hrec⟩
  refine ⟨[], ?_, by simpa using hrec⟩
  simp [← hp]

theorem settles_commitPublished_drafting :
    Settles .drafting (RunState.commitPublished : RunState σ → RunState σ) := by
  intro s sent added h
  have ⟨_, _, _, hcalls, hreset, _⟩ := h
  exact ⟨_, ledger_recordPublished s false,
    recorded_of_drafting h rfl rfl hcalls hreset (by simp) _⟩

theorem settles_commitPublished_settled :
    Settles .settled (RunState.commitPublished : RunState σ → RunState σ) := by
  rintro s sent added ⟨hp, hrec⟩
  refine ⟨_, ledger_recordPublished s false, ?_⟩
  have hnothing : recordedMessages s.progress.published s.progress.iterationUsage false = [] := by
    rw [show s.progress.published = {} from hp]
    rfl
  rw [hnothing, List.append_nil]
  exact hrec

theorem Settles.setPlan {f : RunState σ → RunState σ} (h : Settles phase f)
    (plan : Option PlanState) : Settles phase fun s => (f s).setPlan plan := h

theorem settles_commitCancelled (phase : Phase) :
    Settles phase (RunState.commitCancelled : RunState σ → RunState σ) := by
  intro s sent added h
  cases phase with
  | drafting =>
    have hcalls : s.progress.published.toolCalls = none := h.2.2.1
    rw [RunState.commitCancelled, hcalls]
    exact settles_commitPublished_drafting s sent added h
  | settled =>
    have hcalls : s.progress.published.toolCalls = none := by
      rw [show s.progress.published = {} from h.1]
    rw [RunState.commitCancelled, hcalls]
    exact settles_commitPublished_settled s sent added h
  | called calls =>
    have hcalls : s.progress.published.toolCalls = some calls := h.2.2.1
    rw [RunState.commitCancelled, hcalls]
    refine ⟨recordedMessages s.progress.published s.progress.iterationUsage false ++
      calls.map cancelledResult, ?_, ?_⟩
    · rw [ledger_foldl_push, RunState.commitPublished, ledger_recordPublished]
      simp
    · rw [← List.append_assoc]
      refine recorded_of_called h ?_ ?_ _
      · intro m hm
        obtain ⟨call, -, rfl⟩ := List.mem_map.mp hm
        rfl
      · rw [List.map_map, List.map_map]
        rfl

theorem settles_cancelled (phase : Phase) :
    Settles phase (RunState.cancelled : RunState σ → RunState σ) := by
  intro s sent added h
  obtain ⟨ms, hledger, hrec⟩ := settles_commitCancelled phase s sent added h
  unfold RunState.cancelled
  by_cases hmark : s.commitCancelled.isMarkedCancelled = true
  · refine ⟨ms, ?_, hrec⟩
    simp only [hmark, if_true, ledger_setStatus]
    exact hledger
  · refine ⟨ms ++ [harnessNotice cancelledRequestBoundary], ?_, ?_⟩
    · simp only [hmark, ledger_setStatus, Bool.false_eq_true, if_false, ledger_push, hledger,
        List.append_assoc]
    · rw [← List.append_assoc]
      exact hrec.withNotice rfl

theorem settles_commitResults {calls : List ToolCall} {results : List ToolResult}
    (hids : results.map ToolResult.toolUseId = calls.map ToolCall.id) :
    Settles (.called calls) (RunState.commitResults calls results : RunState σ → RunState σ) := by
  intro s sent added h
  refine ⟨recordedMessages s.progress.published s.progress.iterationUsage false ++
    results.map (resultMessage calls), ?_, ?_⟩
  · rw [RunState.commitResults, ledger_foldl_push, RunState.commitPublished,
      ledger_recordPublished]
    simp
  · rw [← List.append_assoc]
    refine recorded_of_called h ?_ ?_ _
    · intro m hm
      obtain ⟨r, -, rfl⟩ := List.mem_map.mp hm
      rfl
    · rw [← hids, List.map_map, List.map_map]
      rfl

end
end DeepseekScience.Agent
