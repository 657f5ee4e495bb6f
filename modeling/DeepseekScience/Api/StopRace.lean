import DeepseekScience.Api.Persistence

/-! Stop against completion. The Runner sends into a bounded channel, the relay takes the events
from it, requests to cancel swap the state of the run, and the worker of the run persists the
outcome. Each of them takes one atomic step after another, in any order. -/
namespace DeepseekScience.Api.Stop

open Agent

section
/-! The parties of a run. -/

/-- The atomic of `ActiveRunControl`. -/
inductive RunFlag where
  | running
  | cancelRequested
  | terminal
  deriving DecidableEq

/-- Where a request to cancel is: before it loads the flag, between the load and the swap, between
the swap and the signal, and behind `request_cancel`. -/
inductive Cancel where
  | away
  | loading
  | swapping
  | signalling
  | waiting (cancelled : Bool)
  | answered (cancelled : Bool)
  | failed
  deriving DecidableEq

/-- The branches of a biased select in the order in which they are polled. -/
inductive Branch where
  | cancel
  | closed
  | ready
  deriving DecidableEq

inductive Relay where
  | unspawned
  | receiving (branch : Branch)
  | forwarding (event : AgentEvent) (branch : Branch)
  | marking (event : AgentEvent)
  /-- It waits for the run to finish, with the terminal event if there was one. -/
  | holding (event : Option AgentEvent)
  | announcing (event : AgentEvent)
  | leaving
  | gone

/-- The request that accepts the run, and the task that executes and persists it. -/
inductive Worker where
  | accepting
  | spawned
  | executing
  | persisting
  | written
  | settled (succeeded : Bool)
  | ended
  | gone
  deriving DecidableEq

structure RunRow where
  status : Text
  kind : Text
  deriving DecidableEq

def eventChannelCap : ℕ := 1024

/-- One registered run. `outcome` is the kind that the Runner has returned, with the status that it
has left in the frame, and `forwarded` is what the relay has sent towards the client. -/
structure System where
  flag : RunFlag := .running
  cancelSignal : Bool := false
  finished : Bool := false
  persistence : RunPersistenceState := .pending
  agentQueue : List AgentEvent := []
  agentClosed : Bool := false
  relay : Relay := .unspawned
  forwarded : List AgentEvent := []
  unread : ℕ := 0
  sseClosed : Bool := false
  worker : Worker := .accepting
  outcome : Option (CompleteKind × FrameStatus) := none
  row : Option RunRow := none
  extraction : Bool := false
  cancels : ℕ → Cancel := fun _ => .away

/-- What the process has: a client of the model, and the memory switched on. -/
structure Config where
  llmConfigured : Bool
  memoryEnabled : Bool

end

/-- `matches!(event, AgentEvent::Complete { .. } | AgentEvent::Error { .. })`. -/
def isTerminal : AgentEvent → Bool
  | .complete .. => true
  | .error _ => true
  | _ => false

/-- The kind that a terminal event names; an error event names none. -/
def eventKind : AgentEvent → Option CompleteKind
  | .complete kind .. => some kind
  | _ => none

namespace System

def kind (s : System) : Option CompleteKind := s.outcome.map (·.1)

def isGone : Worker → Bool
  | .gone => true
  | _ => false

/-- The relay polls one branch, or does the one thing that its place has. -/
def relayStep (s : System) : System :=
  match s.relay with
  | .unspawned => s
  | .receiving .cancel =>
    if s.cancelSignal then { s with relay := .leaving } else { s with relay := .receiving .closed }
  | .receiving .closed =>
    if s.sseClosed then { s with relay := .leaving } else { s with relay := .receiving .ready }
  | .receiving .ready =>
    match s.agentQueue with
    | [] =>
      if isGone s.worker then { s with relay := .holding none }
      else { s with relay := .receiving .cancel }
    | event :: rest =>
      if isTerminal event then { s with agentQueue := rest, relay := .marking event }
      else { s with agentQueue := rest, relay := .forwarding event .cancel }
  | .forwarding event .cancel =>
    if s.cancelSignal then { s with relay := .leaving }
    else { s with relay := .forwarding event .closed }
  | .forwarding event .closed =>
    if s.sseClosed then { s with relay := .leaving }
    else { s with relay := .forwarding event .ready }
  | .forwarding event .ready =>
    if s.sseClosed then { s with relay := .leaving }
    else if s.unread < eventChannelCap then
      { s with forwarded := s.forwarded ++ [event], unread := s.unread + 1
               relay := .receiving .cancel }
    else { s with relay := .forwarding event .cancel }
  | .marking event =>
    if s.flag = .running then { s with flag := .terminal, relay := .holding (some event) }
    else { s with relay := .leaving }
  | .holding event =>
    if s.finished then
      match (persistenceFailureMessage s.persistence).map AgentEvent.error, event with
      | some failure, _ => { s with relay := .announcing failure }
      | none, some event => { s with relay := .announcing event }
      | none, none => { s with relay := .leaving }
    else s
  | .announcing event =>
    if s.sseClosed then { s with relay := .leaving }
    else if s.unread < eventChannelCap then
      { s with forwarded := s.forwarded ++ [event], unread := s.unread + 1, relay := .leaving }
    else s
  | .leaving => { s with relay := .gone, agentQueue := [], agentClosed := true }
  | .gone => s

def setCancel (s : System) (r : ℕ) (cancel : Cancel) : System :=
  { s with cancels := Function.update s.cancels r cancel }

/-- `cancel_run` on the control that it has found. -/
def cancelStep (s : System) (r : ℕ) : System :=
  match s.cancels r with
  | .away => s.setCancel r .loading
  | .loading =>
    match s.flag with
    | .cancelRequested => s.setCancel r (.waiting true)
    | .terminal => s.setCancel r (.waiting false)
    | .running => s.setCancel r .swapping
  | .swapping =>
    if s.flag = .running then { s with flag := .cancelRequested }.setCancel r .signalling
    else s.setCancel r .loading
  | .signalling => { s with cancelSignal := true }.setCancel r (.waiting true)
  | .waiting cancelled =>
    if s.finished then
      if (persistenceFailureMessage s.persistence).isSome then s.setCancel r .failed
      else s.setCancel r (.answered cancelled)
    else s
  | .answered _ => s
  | .failed => s

/-- The request times out, or its client is gone. -/
def giveUp (s : System) (r : ℕ) : System :=
  match s.cancels r with
  | .waiting _ => s.setCancel r .failed
  | _ => s

/-- `Runner::cancel`: nothing is sent any more. -/
def cancelled (s : System) : System :=
  { s with worker := .persisting, outcome := some (.cancelled, .cancelled) }

/-- The Runner sends an event that is not the last one, which waits while the channel is full. The
run without a client does not look at the result. -/
def send (c : Config) (s : System) (event : AgentEvent) : System :=
  match s.worker with
  | .executing =>
    if s.agentClosed then if c.llmConfigured then s.cancelled else s
    else if s.agentQueue.length < eventChannelCap then
      { s with agentQueue := s.agentQueue ++ [event] }
    else s
  | _ => s

/-- The Runner finds the channel closed while it waits for something else. -/
def observeClosed (c : Config) (s : System) : System :=
  match s.worker with
  | .executing => if s.agentClosed && c.llmConfigured then s.cancelled else s
  | _ => s

/-- The terminal event of the Runner is delivered; or there is no client of the model, and the run
fails whether the event is delivered or not. -/
def commits (c : Config) (s : System) : Bool :=
  if s.agentClosed then !c.llmConfigured else decide (s.agentQueue.length < eventChannelCap)

/-- The Runner sends its terminal event. Its delivery is the point at which the outcome is
committed. -/
def complete (c : Config) (s : System) (outcome : RunOutcome) (frameStatus : FrameStatus)
    (plan : Option Tools.PlanState) : System :=
  match s.worker with
  | .executing =>
    if s.commits c then
      { s with
        agentQueue :=
          if s.agentClosed then s.agentQueue
          else s.agentQueue ++ [outcome.event frameStatus plan]
        worker := .persisting
        outcome := some (outcome.kind, frameStatus) }
    else if s.agentClosed then s.cancelled
    else s
  | _ => s

/-- The request that accepts the run, and then the task of the run, come one step further.
`succeeds` is the answer of the database, or whether the cursor is where it should be. -/
def workerStep (c : Config) (s : System) (succeeds : Bool) : System :=
  match s.worker with
  | .accepting => { s with worker := .spawned, relay := .receiving .cancel }
  | .spawned =>
    if succeeds then { s with worker := .executing }
    else
      { s with persistence := s.persistence.setError persistenceErrorMessage, worker := .ended }
  | .executing => s
  | .persisting =>
    match s.outcome with
    | none => s
    | some (kind, frameStatus) =>
      if succeeds then
        { s with row := some ⟨persistedStatus kind frameStatus, completeKindName kind⟩
                 worker := .written }
      else
        { s with persistence := s.persistence.setError persistenceErrorMessage
                 worker := .settled false }
  | .written => { s with persistence := s.persistence.markCommitted, worker := .settled true }
  | .settled succeeded =>
    { s with
      extraction := succeeded && (s.kind.map shouldExtractMemory).getD false &&
        c.memoryEnabled && c.llmConfigured
      worker := .ended }
  | .ended => { s with worker := .gone, finished := true }
  | .gone => s

/-- The request is refused, or the task panics: the guard of the run is dropped. -/
def abandon (s : System) : System := { s with worker := .gone, finished := true }

def closeSse (s : System) : System := { s with sseClosed := true }

/-- The client reads an event. -/
def readSse (s : System) : System := { s with unread := s.unread - 1 }

end System

/-- One step of one of the parties. A cancelled Runner sends no terminal event, and without a
client of the model the run can only fail. -/
inductive Action where
  | send (event : AgentEvent)
  | observeClosed
  | complete (outcome : RunOutcome) (frameStatus : FrameStatus) (plan : Option Tools.PlanState)
  | worker (succeeds : Bool)
  | abandon
  | relay
  | cancel (r : ℕ)
  | giveUp (r : ℕ)
  | closeSse
  | readSse

/-- What the Runner does at all. -/
def Action.possible (c : Config) : Action → Bool
  | .send event => !isTerminal event
  | .complete outcome .. =>
    decide (outcome.kind ≠ .cancelled) && (c.llmConfigured || decide (outcome.kind = .error))
  | _ => true

def System.perform (c : Config) (s : System) : Action → System
  | .send event => s.send c event
  | .observeClosed => s.observeClosed c
  | .complete outcome frameStatus plan => s.complete c outcome frameStatus plan
  | .worker succeeds => s.workerStep c succeeds
  | .abandon => s.abandon
  | .relay => s.relayStep
  | .cancel r => s.cancelStep r
  | .giveUp r => s.giveUp r
  | .closeSse => s.closeSse
  | .readSse => s.readSse

def step (c : Config) (s : System) (action : Action) : System :=
  if action.possible c then s.perform c action else s

section
/-! What holds in every run. -/

/-- The outcome is not there yet. -/
def Worker.early : Worker → Bool
  | .accepting => true
  | .spawned => true
  | .executing => true
  | _ => false

/-- The request has been told by `request_cancel`, or will be, that the run is stopped. -/
def Cancel.verdict : Cancel → Option Bool
  | .signalling => some true
  | .waiting cancelled => some cancelled
  | .answered cancelled => some cancelled
  | _ => none

/-- The event names the outcome of the run. -/
def Matches (s : System) (event : AgentEvent) : Prop :=
  ∃ kind, eventKind event = some kind ∧ s.kind = some kind

/-- The event may be told to the client: it is the outcome, unless that was not stored. -/
def Told (s : System) (event : AgentEvent) : Prop :=
  s.finished = true ∧ (s.persistence = .committed → s.flag = .terminal ∧ Matches s event)

/-- What the place of the relay says of the event that it has. -/
def RelaySays (s : System) : Relay → Prop
  | .forwarding event _ => isTerminal event = false
  | .marking event => Matches s event
  | .holding (some event) => s.flag = .terminal ∧ Matches s event
  | .announcing event => Told s event
  | _ => True

structure Sound (s : System) : Prop where
  early : s.worker.early = true → s.outcome = none
  row : ∀ row, s.row = some row → ∃ kind frameStatus, s.outcome = some (kind, frameStatus) ∧
    row = ⟨persistedStatus kind frameStatus, completeKindName kind⟩
  written : s.worker = .written ∨ s.persistence = .committed → s.row ≠ none
  extraction : s.extraction = true → s.kind = some .natural
  finished : s.finished = true → s.worker = .gone
  stopped : ∀ r, (s.cancels r).verdict = some true → s.flag = .cancelRequested
  completed : ∀ r, (s.cancels r).verdict = some false → s.flag = .terminal
  answered : ∀ r cancelled, s.cancels r = .answered cancelled →
    s.finished = true ∧ s.persistence = .committed
  queued : ∀ event ∈ s.agentQueue, isTerminal event = true → Matches s event
  relay : RelaySays s s.relay
  forwarded : ∀ event ∈ s.forwarded, isTerminal event = true → Told s event

variable {c : Config} {s : System}

theorem Sound.init : Sound {} := by
  constructor <;> simp [Worker.early, Cancel.verdict, RelaySays]

/-- The relay goes to another place, and takes nothing or an event from the queue. -/
theorem Sound.moveRelay (h : Sound s) {relay : Relay} {queue : List AgentEvent}
    (hplace : RelaySays s relay) (hqueue : queue ⊆ s.agentQueue) :
    Sound { s with relay := relay, agentQueue := queue } where
  early := h.early
  row := h.row
  written := h.written
  extraction := h.extraction
  finished := h.finished
  stopped := h.stopped
  completed := h.completed
  answered := h.answered
  queued := fun event hevent => h.queued event (hqueue hevent)
  relay := hplace
  forwarded := h.forwarded

theorem Sound.placeRelay (h : Sound s) {relay : Relay} (hplace : RelaySays s relay) :
    Sound { s with relay := relay } := h.moveRelay hplace (List.Subset.refl _)

/-- An event goes to the client. -/
theorem Sound.forward (h : Sound s) {relay : Relay} {event : AgentEvent}
    (hplace : RelaySays s relay) (htold : isTerminal event = true → Told s event) :
    Sound { s with forwarded := s.forwarded ++ [event], unread := s.unread + 1,
                   relay := relay } where
  early := h.early
  row := h.row
  written := h.written
  extraction := h.extraction
  finished := h.finished
  stopped := h.stopped
  completed := h.completed
  answered := h.answered
  queued := h.queued
  relay := hplace
  forwarded := by
    intro e he hterminal
    obtain he | he := List.mem_append.mp he
    · exact h.forwarded e he hterminal
    · rw [List.mem_singleton.mp he] at hterminal ⊢
      exact htold hterminal

/-- The relay takes the flag for a terminal event. -/
theorem Sound.markTerminal (h : Sound s) {event : AgentEvent} (hflag : s.flag = .running)
    (hevent : Matches s event) :
    Sound { s with flag := .terminal, relay := .holding (some event) } where
  early := h.early
  row := h.row
  written := h.written
  extraction := h.extraction
  finished := h.finished
  stopped := fun r hr => absurd (h.stopped r hr) (by simp [hflag])
  completed := fun _ _ => rfl
  answered := h.answered
  queued := h.queued
  relay := ⟨rfl, hevent⟩
  forwarded := by
    intro e he hterminal
    obtain ⟨hfinished, hcommitted⟩ := h.forwarded e he hterminal
    exact ⟨hfinished, fun hp => absurd (hcommitted hp).1 (by simp [hflag])⟩

theorem Sound.closeAgent (h : Sound s) :
    Sound { s with relay := .gone, agentQueue := [], agentClosed := true } where
  early := h.early
  row := h.row
  written := h.written
  extraction := h.extraction
  finished := h.finished
  stopped := h.stopped
  completed := h.completed
  answered := h.answered
  queued := by simp
  relay := trivial
  forwarded := h.forwarded

theorem persistenceFailureMessage_eq_none {state : RunPersistenceState} :
    persistenceFailureMessage state = none ↔ state = .committed := by
  cases state <;> simp [persistenceFailureMessage]

theorem Sound.relayStep (h : Sound s) : Sound s.relayStep := by
  have hrelay := h.relay
  unfold System.relayStep
  split
  case h_1 => exact h
  case h_2 =>
    split_ifs
    · exact h.placeRelay trivial
    · exact h.placeRelay trivial
  case h_3 =>
    split_ifs
    · exact h.placeRelay trivial
    · exact h.placeRelay trivial
  case h_4 =>
    split
    · split_ifs
      · exact h.placeRelay trivial
      · exact h.placeRelay trivial
    · rename_i event rest hqueue
      have hrest : rest ⊆ s.agentQueue := by simp [hqueue]
      split_ifs with hterminal
      · exact h.moveRelay (h.queued event (by simp [hqueue]) hterminal) hrest
      · exact h.moveRelay (Bool.eq_false_iff.mpr hterminal) hrest
  case h_5 event heq =>
    rw [heq] at hrelay
    split_ifs
    · exact h.placeRelay trivial
    · exact h.placeRelay hrelay
  case h_6 event heq =>
    rw [heq] at hrelay
    split_ifs
    · exact h.placeRelay trivial
    · exact h.placeRelay hrelay
  case h_7 event heq =>
    rw [heq] at hrelay
    split_ifs
    · exact h.placeRelay trivial
    · exact h.forward trivial fun hterminal => absurd hterminal (Bool.eq_false_iff.mp hrelay)
    · exact h.placeRelay hrelay
  case h_8 event heq =>
    rw [heq] at hrelay
    split_ifs with hflag
    · exact h.markTerminal hflag hrelay
    · exact h.placeRelay trivial
  case h_9 event heq =>
    rw [heq] at hrelay
    split_ifs with hfinished
    · split
      · rename_i failure hfailure
        refine h.placeRelay ⟨hfinished, fun hp => ?_⟩
        simp [persistenceFailureMessage_eq_none.mpr hp] at hfailure
      · exact h.placeRelay ⟨hfinished, fun _ => hrelay⟩
      · exact h.placeRelay trivial
    · exact h
  case h_10 event heq =>
    rw [heq] at hrelay
    split_ifs
    · exact h.placeRelay trivial
    · exact h.forward trivial fun _ => hrelay
    · exact h
  case h_11 => exact h.closeAgent
  case h_12 => exact h

theorem Sound.setCancel (h : Sound s) {r : ℕ} {cancel : Cancel}
    (hstopped : cancel.verdict = some true → s.flag = .cancelRequested)
    (hcompleted : cancel.verdict = some false → s.flag = .terminal)
    (hanswered : ∀ cancelled, cancel = .answered cancelled →
      s.finished = true ∧ s.persistence = .committed) : Sound (s.setCancel r cancel) where
  early := h.early
  row := h.row
  written := h.written
  extraction := h.extraction
  finished := h.finished
  stopped := by
    intro r' hr'
    by_cases hne : r' = r
    · simp only [System.setCancel, hne, Function.update_self] at hr'
      exact hstopped hr'
    · simp only [System.setCancel, Function.update_of_ne hne] at hr'
      exact h.stopped r' hr'
  completed := by
    intro r' hr'
    by_cases hne : r' = r
    · simp only [System.setCancel, hne, Function.update_self] at hr'
      exact hcompleted hr'
    · simp only [System.setCancel, Function.update_of_ne hne] at hr'
      exact h.completed r' hr'
  answered := by
    intro r' cancelled hr'
    by_cases hne : r' = r
    · simp only [System.setCancel, hne, Function.update_self] at hr'
      exact hanswered cancelled hr'
    · simp only [System.setCancel, Function.update_of_ne hne] at hr'
      exact h.answered r' cancelled hr'
  queued := h.queued
  relay := h.relay
  forwarded := h.forwarded

/-- A place of a request at which nothing has been decided. -/
theorem Sound.openCancel (h : Sound s) {r : ℕ} {cancel : Cancel} (hverdict : cancel.verdict = none) :
    Sound (s.setCancel r cancel) := by
  apply h.setCancel
  · simp [hverdict]
  · simp [hverdict]
  · rintro cancelled rfl
    simp [Cancel.verdict] at hverdict

/-- A request to cancel takes the flag. -/
theorem Sound.requestCancel (h : Sound s) (hflag : s.flag = .running) :
    Sound { s with flag := .cancelRequested } where
  early := h.early
  row := h.row
  written := h.written
  extraction := h.extraction
  finished := h.finished
  stopped := fun _ _ => rfl
  completed := fun r hr => absurd (h.completed r hr) (by simp [hflag])
  answered := h.answered
  queued := h.queued
  relay := by
    have hrelay := h.relay
    revert hrelay
    cases s.relay with
    | holding event =>
      cases event with
      | none => exact id
      | some event => exact fun hplace => absurd hplace.1 (by simp [hflag])
    | announcing event =>
      exact fun hplace => ⟨hplace.1, fun hp => absurd (hplace.2 hp).1 (by simp [hflag])⟩
    | _ => exact id
  forwarded := by
    intro event hevent hterminal
    obtain ⟨hfinished, hcommitted⟩ := h.forwarded event hevent hterminal
    exact ⟨hfinished, fun hp => absurd (hcommitted hp).1 (by simp [hflag])⟩

theorem Sound.signalCancel (h : Sound s) : Sound { s with cancelSignal := true } := by
  obtain ⟨⟩ := h
  constructor <;> assumption

theorem Sound.cancelStep (h : Sound s) (r : ℕ) : Sound (s.cancelStep r) := by
  unfold System.cancelStep
  split
  case h_1 => exact h.openCancel rfl
  case h_2 =>
    split
    · rename_i hflag
      exact h.setCancel (fun _ => hflag) (by simp [Cancel.verdict]) (by simp)
    · rename_i hflag
      exact h.setCancel (by simp [Cancel.verdict]) (fun _ => hflag) (by simp)
    · exact h.openCancel rfl
  case h_3 =>
    split_ifs with hflag
    · exact (h.requestCancel hflag).setCancel (fun _ => rfl) (by simp [Cancel.verdict]) (by simp)
    · exact h.openCancel rfl
  case h_4 heq =>
    have hflag := h.stopped r (by simp [heq, Cancel.verdict])
    exact h.signalCancel.setCancel (fun _ => hflag) (by simp [Cancel.verdict]) (by simp)
  case h_5 cancelled heq =>
    split_ifs with hfinished hfailure
    · exact h.openCancel rfl
    · apply h.setCancel
      · intro hverdict
        exact h.stopped r (by simpa [heq, Cancel.verdict] using hverdict)
      · intro hverdict
        exact h.completed r (by simpa [heq, Cancel.verdict] using hverdict)
      · intro _ _
        refine ⟨hfinished, persistenceFailureMessage_eq_none.mp ?_⟩
        simpa using hfailure
    · exact h
  case h_6 => exact h
  case h_7 => exact h

theorem Sound.giveUp (h : Sound s) (r : ℕ) : Sound (s.giveUp r) := by
  unfold System.giveUp
  split
  · exact h.openCancel rfl
  · exact h

/-- The worker comes on while the run is not finished; an outcome stays once it is there. -/
theorem Sound.work (h : Sound s) (hbusy : s.finished = false) {persistence : RunPersistenceState}
    {worker : Worker} {outcome : Option (CompleteKind × FrameStatus)} {row : Option RunRow}
    {extraction finished : Bool} (hearly : worker.early = true → outcome = none)
    (hrow : ∀ r, row = some r → ∃ kind frameStatus, outcome = some (kind, frameStatus) ∧
      r = ⟨persistedStatus kind frameStatus, completeKindName kind⟩)
    (hwritten : worker = .written ∨ persistence = .committed → row ≠ none)
    (hextraction : extraction = true → outcome.map (·.1) = some .natural)
    (hfinished : finished = true → worker = .gone)
    (houtcome : s.outcome ≠ none → outcome = s.outcome) :
    Sound { s with persistence := persistence, worker := worker, outcome := outcome, row := row,
                   extraction := extraction, finished := finished } := by
  have hmatches : ∀ event, Matches s event → ∃ kind, eventKind event = some kind ∧
      outcome.map (·.1) = some kind := by
    rintro event ⟨kind, hkind, hout⟩
    have hsome : s.outcome ≠ none := by
      intro hnone
      simp [System.kind, hnone] at hout
    exact ⟨kind, hkind, by rw [houtcome hsome]; exact hout⟩
  have htold : ∀ event, ¬ Told s event := fun event hevent => absurd hevent.1 (by simp [hbusy])
  exact {
    early := hearly
    row := hrow
    written := hwritten
    extraction := hextraction
    finished := hfinished
    stopped := h.stopped
    completed := h.completed
    answered := fun r cancelled hr => absurd (h.answered r cancelled hr).1 (by simp [hbusy])
    queued := fun event hevent hterminal => hmatches event (h.queued event hevent hterminal)
    relay := by
      have hrelay := h.relay
      revert hrelay
      cases s.relay with
      | marking event => exact hmatches event
      | holding event =>
        cases event with
        | none => exact id
        | some event => exact fun hplace => ⟨hplace.1, hmatches event hplace.2⟩
      | announcing event => exact fun hplace => absurd hplace (htold event)
      | _ => exact id
    forwarded := fun event hevent hterminal =>
      absurd (h.forwarded event hevent hterminal) (htold event) }

theorem Sound.busy (h : Sound s) (hworker : s.worker ≠ .gone) : s.finished = false := by
  rw [← Bool.not_eq_true]
  exact fun hfinished => hworker (h.finished hfinished)

/-- The Runner returns an outcome. -/
theorem Sound.returns (h : Sound s) (hworker : s.worker = .executing)
    (outcome : CompleteKind × FrameStatus) :
    Sound { s with worker := .persisting, outcome := some outcome } := by
  have hnone : s.outcome = none := h.early (by simp [hworker, Worker.early])
  have hkind : s.kind = none := by simp [System.kind, hnone]
  have hrow : s.row = none := by
    rw [Option.eq_none_iff_forall_ne_some]
    intro row hrow
    obtain ⟨_, _, hout, _⟩ := h.row row hrow
    simp [hnone] at hout
  exact h.work (h.busy (by simp [hworker])) (by simp [Worker.early]) (by simp [hrow])
    (by simpa [hworker] using h.written) (fun hx => absurd (h.extraction hx) (by simp [hkind]))
    (fun hf => absurd (h.finished hf) (by simp [hworker])) (fun hsome => absurd hnone hsome)

/-- The Runner leaves an event in the queue. -/
theorem Sound.push (h : Sound s) {event : AgentEvent}
    (hevent : isTerminal event = true → Matches s event) :
    Sound { s with agentQueue := s.agentQueue ++ [event] } where
  early := h.early
  row := h.row
  written := h.written
  extraction := h.extraction
  finished := h.finished
  stopped := h.stopped
  completed := h.completed
  answered := h.answered
  queued := by
    intro e he hterminal
    obtain he | he := List.mem_append.mp he
    · exact h.queued e he hterminal
    · rw [List.mem_singleton.mp he] at hterminal ⊢
      exact hevent hterminal
  relay := h.relay
  forwarded := h.forwarded

theorem Sound.send (h : Sound s) {event : AgentEvent} (hevent : isTerminal event = false) :
    Sound (s.send c event) := by
  unfold System.send
  split
  · rename_i hworker
    split_ifs
    · exact h.returns hworker _
    · exact h
    · exact h.push fun hterminal => absurd hterminal (by simp [hevent])
    · exact h
  · exact h

theorem Sound.observeClosed (h : Sound s) : Sound (s.observeClosed c) := by
  unfold System.observeClosed
  split
  · rename_i hworker
    split_ifs
    · exact h.returns hworker _
    · exact h
  · exact h

theorem Sound.complete (h : Sound s) (outcome : RunOutcome) (frameStatus : FrameStatus)
    (plan : Option Tools.PlanState) : Sound (s.complete c outcome frameStatus plan) := by
  unfold System.complete
  split
  · rename_i hworker
    have hreturns := h.returns hworker (outcome.kind, frameStatus)
    split_ifs
    · exact hreturns
    · exact hreturns.push fun _ => ⟨outcome.kind, rfl, rfl⟩
    · exact h.returns hworker _
    · exact h
  · exact h

theorem setError_eq_committed {state : RunPersistenceState} {message : Text} :
    state.setError message = .committed ↔ state = .committed := by
  cases state <;> simp [RunPersistenceState.setError]

theorem Sound.workerStep (h : Sound s) (succeeds : Bool) : Sound (s.workerStep c succeeds) := by
  unfold System.workerStep
  split
  case h_1 hworker =>
    have hspawned : Sound { s with worker := .spawned } :=
      h.work (h.busy (by simp [hworker])) (fun _ => h.early (by simp [hworker, Worker.early]))
        h.row (by simpa [hworker] using h.written) h.extraction
        (fun hf => absurd (h.finished hf) (by simp [hworker])) (fun _ => rfl)
    exact hspawned.placeRelay trivial
  case h_2 hworker =>
    split_ifs
    · exact h.work (h.busy (by simp [hworker]))
        (fun _ => h.early (by simp [hworker, Worker.early])) h.row
        (by simpa [hworker] using h.written) h.extraction
        (fun hf => absurd (h.finished hf) (by simp [hworker])) (fun _ => rfl)
    · exact h.work (h.busy (by simp [hworker])) (by simp [Worker.early]) h.row
        (by simpa [hworker, setError_eq_committed] using h.written) h.extraction
        (fun hf => absurd (h.finished hf) (by simp [hworker])) (fun _ => rfl)
  case h_3 => exact h
  case h_4 hworker =>
    split
    · exact h
    · rename_i kind frameStatus houtcome
      split_ifs
      · exact h.work (h.busy (by simp [hworker])) (by simp [Worker.early])
          (fun row hrow => ⟨kind, frameStatus, houtcome, (Option.some.inj hrow).symm⟩) (by simp)
          h.extraction (fun hf => absurd (h.finished hf) (by simp [hworker])) (fun _ => rfl)
      · exact h.work (h.busy (by simp [hworker])) (by simp [Worker.early]) h.row
          (by simpa [hworker, setError_eq_committed] using h.written) h.extraction
          (fun hf => absurd (h.finished hf) (by simp [hworker])) (fun _ => rfl)
  case h_5 hworker =>
    exact h.work (h.busy (by simp [hworker])) (by simp [Worker.early]) h.row
      (fun _ => h.written (Or.inl hworker)) h.extraction
      (fun hf => absurd (h.finished hf) (by simp [hworker])) (fun _ => rfl)
  case h_6 succeeded hworker =>
    apply h.work (h.busy (by simp [hworker])) (by simp [Worker.early]) h.row
      (by simpa [hworker] using h.written)
    · intro hextraction
      simp only [Bool.and_eq_true] at hextraction
      obtain ⟨⟨⟨-, hkind⟩, -⟩, -⟩ := hextraction
      cases hs : s.kind with
      | none => simp [hs] at hkind
      | some kind =>
        have hnatural : kind = .natural := by simpa [hs, shouldExtractMemory] using hkind
        simpa [System.kind, hnatural] using hs
    · exact fun hf => absurd (h.finished hf) (by simp [hworker])
    · exact fun _ => rfl
  case h_7 hworker =>
    exact h.work (h.busy (by simp [hworker])) (by simp [Worker.early]) h.row
      (by simpa [hworker] using h.written) h.extraction (fun _ => rfl) (fun _ => rfl)
  case h_8 => exact h

theorem Sound.abandon (h : Sound s) : Sound s.abandon := by
  cases hfinished : s.finished with
  | true =>
    have hsame : s.abandon = s := by
      simp [System.abandon, ← h.finished hfinished, ← hfinished]
    rwa [hsame]
  | false =>
    exact h.work hfinished (by simp [Worker.early]) h.row
      (fun hp => h.written (Or.inr (by simpa using hp))) h.extraction (fun _ => rfl) (fun _ => rfl)

theorem Sound.closeSse (h : Sound s) : Sound s.closeSse := by
  obtain ⟨⟩ := h
  constructor <;> assumption

theorem Sound.readSse (h : Sound s) : Sound s.readSse := by
  obtain ⟨⟩ := h
  constructor <;> assumption

theorem Sound.stepped (h : Sound s) (action : Action) : Sound (step c s action) := by
  unfold step
  split_ifs with hpossible
  · cases action with
    | send event => exact h.send (by simpa [Action.possible] using hpossible)
    | observeClosed => exact h.observeClosed
    | complete outcome frameStatus plan => exact h.complete outcome frameStatus plan
    | worker succeeds => exact h.workerStep succeeds
    | abandon => exact h.abandon
    | relay => exact h.relayStep
    | cancel r => exact h.cancelStep r
    | giveUp r => exact h.giveUp r
    | closeSse => exact h.closeSse
    | readSse => exact h.readSse
  · exact h

end

end DeepseekScience.Api.Stop
