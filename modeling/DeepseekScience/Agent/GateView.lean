import DeepseekScience.Agent.Steady

/-! The part of a run's state that the capability gates read and decide: the plans, the batches
that reached the router, the exchange of calls and results, and the denials of a missing plan.
Every other step of an iteration leaves it as it is. -/
namespace DeepseekScience.Agent

open Tools Dsml Exits

/-! The view, and the steps that leave it as it is. -/

structure GateView where
  plan : Option PlanState
  sharedPlan : Option PlanState
  routed : List (List PendingToolCall)
  exchanged : List Delivery
  /-- The tool messages of the history. -/
  answers : List ChatMessage
  denials : ℕ
  denialNotices : ℕ

section
variable {σ : Type}

def toolAnswers (messages : List ChatMessage) : List ChatMessage :=
  messages.filter fun m => m.role == .tool

def denialNotices (messages : List ChatMessage) : ℕ :=
  messages.count (harnessNotice planDenialNotice)

def RunState.gateView (s : RunState σ) : GateView where
  plan := s.session.plan
  sharedPlan := s.ctx.plan
  routed := s.routed
  exchanged := s.tx.sent.filter Delivery.isExchange
  answers := toolAnswers s.session.messages
  denials := s.session.gateState.planDenialCount
  denialNotices := denialNotices s.session.messages

/-- The view of a state with no batch in flight. -/
def Idle (c : GateView) (s : RunState σ) : Prop :=
  s.gateView = c ∧ s.progress.published.toolCalls = none

/-- Early exits other than a natural completion may leave the view as it is. -/
def Yields (c : GateView) (E : RunOutcome → RunState σ → Prop) : Prop :=
  ∀ o s, o.kind ≠ .natural → Idle c s → E o s

theorem push_gateView (s : RunState σ) {m : ChatMessage} (htool : m.role ≠ .tool)
    (hnotice : m ≠ harnessNotice planDenialNotice) : (s.push m).gateView = s.gateView := by
  simp [RunState.gateView, RunState.push, toolAnswers, denialNotices, htool, hnotice]

theorem harnessNotice_ne {text : Text} (h : text ≠ planDenialNotice) :
    harnessNotice text ≠ harnessNotice planDenialNotice := by
  intro he
  exact h (Option.some.inj (congrArg ChatMessage.content he))

theorem pushNotice_gateView (s : RunState σ) {text : Text} (h : text ≠ planDenialNotice) :
    (s.push (harnessNotice text)).gateView = s.gateView :=
  push_gateView s (by simp [harnessNotice, ChatMessage.ofSystem]) (harnessNotice_ne h)

/-- Published turns are recorded as messages of the assistant. -/
theorem publishedMessage_role {p : RunProgress} {m : ChatMessage} (h : p.publishedMessage = some m) :
    m.role = .assistant := by
  unfold RunProgress.publishedMessage PublishedTurn.intoMessage at h
  split at h
  · cases h
  · rw [← Option.some.inj h]
    cases p.published.toolCalls <;> rfl

theorem recordPublished_gateView (s : RunState σ) (hidden : Bool) :
    (s.recordPublished hidden).gateView = s.gateView := by
  unfold RunState.recordPublished
  cases h : s.progress.publishedMessage with
  | none => rfl
  | some m =>
    have hrole := publishedMessage_role h
    refine push_gateView (s.setPublished {}) ?_ fun he => ?_
    · simp [hrole]
    · have hsystem := congrArg ChatMessage.role he
      rw [show (harnessNotice planDenialNotice).role = .system from rfl] at hsystem
      simp [hrole] at hsystem

theorem recordPublished_calls (s : RunState σ) (hidden : Bool) :
    (s.recordPublished hidden).progress.published.toolCalls = none := by
  unfold RunState.recordPublished
  cases s.progress.publishedMessage <;> rfl

theorem Idle.recordPublished {c : GateView} {s : RunState σ} (hidden : Bool) (h : Idle c s) :
    Idle c (s.recordPublished hidden) :=
  ⟨(recordPublished_gateView s hidden).trans h.1, recordPublished_calls s hidden⟩

theorem setStatus_gateView (s : RunState σ) (status : FrameStatus) :
    (s.setStatus status).gateView = s.gateView := rfl

/-- The view and the published calls are part of the core. -/
theorem Idle.of_core {c : GateView} {s s' : RunState σ} (hcore : s'.core = s.core) (h : Idle c s) :
    Idle c s' := by
  obtain ⟨hview, hcalls⟩ := h
  simp only [RunState.core, StateCore.mk.injEq] at hcore
  obtain ⟨hmessages, hplan, hshared, hsame, hdenials, hrouted, hexchanged, -⟩ := hcore
  refine ⟨?_, hsame.trans hcalls⟩
  rw [← hview]
  simp only [RunState.gateView, hmessages, hplan, hshared, hdenials, hrouted, hexchanged]

/-- An idle state is kept by every step that touches neither plans nor batches. -/
theorem Yields.steady {c : GateView} {E : RunOutcome → RunState σ → Prop} (hE : Yields c E) :
    Steady (Idle c) E where
  same := Idle.of_core
  quiet := fun hs => hs.2
  notice := fun htext hs => ⟨(pushNotice_gateView _ htext).trans hs.1, hs.2⟩
  record := fun hidden hs => hs.recordPublished hidden
  leave := fun ho _ _ hs => hE _ _ ho hs

theorem Idle.cancelled {c : GateView} {s : RunState σ} (h : Idle c s) : Idle c s.cancelled :=
  (show Yields c fun _ _ => True from fun _ _ _ _ => trivial).steady.cancelled h

theorem offer_gateView (s : RunState σ) (event : AgentEvent) :
    ({ s with tx := (s.tx.offer event).2 } : RunState σ).gateView =
      { s.gateView with
        exchanged := s.gateView.exchanged ++
          [(⟨event, (s.tx.offer event).1⟩ : Delivery)].filter Delivery.isExchange } := by
  simp only [RunState.gateView, offer_sent, List.filter_append]

end

section
variable {σ : Type} {c : GateView} {E : RunOutcome → RunState σ → Prop} {req : RunRequest σ}

theorem checkpointBatch_idle (hE : Yields c E) :
    Triple (Idle c) (checkpointBatch req) (fun _ => Idle c) E := by
  have hstore : Triple (Idle c) (checkpointHistory req) (fun _ => Idle c) E := by
    refine Triple.updateGet fun s hs => ?_
    split
    · exact hs
    · dsimp only
      split_ifs <;> exact hs
  refine Triple.bind hstore fun result => ?_
  cases result with
  | error e => exact fail_steady hE.steady _
  | ok _ => exact Triple.update fun _ hs => hs

end

end DeepseekScience.Agent
