import DeepseekScience.Frontend.QueueRuns

/-! The runs that a browser starts, and who may start them. A stop, a terminal frame or a steered
prompt takes the lease of its session, waits for the backend, restores the history and only then
lets the next prompt go; what the user does meanwhile, and the answers, come in any order. -/
namespace DeepseekScience.Frontend.PromptQueue

inductive RunKind where
  | natural | awaiting | maxIters | error | cancelled
  deriving DecidableEq

inductive AwaitingKind where
  | userResponse | planApproval | planExecution
  deriving DecidableEq

structure QueueTerminalPolicy where
  kind : RunKind
  awaiting : Option AwaitingKind
  wasStopping : Bool
  steering : Option PromptQueueItemRef

def shouldAutoDrainPromptQueue (policy : QueueTerminalPolicy) : Bool :=
  if policy.wasStopping || policy.steering.isSome then false
  else if policy.kind = .natural then true
  else decide (policy.kind = .awaiting ∧ policy.awaiting = some .userResponse)

/-! The gate. -/

inductive Purpose where
  | terminalRestore | manualStop | steer
  deriving DecidableEq

structure PromptRunLease where
  sid : Text
  token : ℕ
  ownerRunId : Text
  purpose : Purpose
  deriving DecidableEq

structure GateEntry where
  lease : PromptRunLease
  drainRequested : Bool := false

structure PromptRunGate where
  active : Text → Option GateEntry := fun _ => none
  token : ℕ := 0

namespace PromptRunGate

def acquire (gate : PromptRunGate) (sid ownerRunId : Text) (purpose : Purpose) :
    Option PromptRunLease × PromptRunGate :=
  if sid = [] ∨ ownerRunId = [] ∨ (gate.active sid).isSome then (none, gate)
  else
    let lease := ⟨sid, gate.token + 1, ownerRunId, purpose⟩
    (some lease, ⟨Function.update gate.active sid (some ⟨lease, false⟩), gate.token + 1⟩)

def isCurrent (gate : PromptRunGate) (lease : PromptRunLease) : Bool :=
  (gate.active lease.sid).any fun entry => entry.lease.token = lease.token

def isBlocked (gate : PromptRunGate) (sid : Text) : Bool := (gate.active sid).isSome

def requestDrain (gate : PromptRunGate) (sid : Text) : PromptRunGate :=
  match gate.active sid with
  | none => gate
  | some entry =>
    if entry.lease.purpose = .terminalRestore then
      { gate with active := Function.update gate.active sid (some { entry with drainRequested := true }) }
    else gate

def isDrainRequested (gate : PromptRunGate) (lease : PromptRunLease) : Bool :=
  (gate.active lease.sid).any fun entry =>
    entry.lease.token = lease.token && entry.drainRequested

def release (gate : PromptRunGate) (lease : PromptRunLease) : PromptRunGate :=
  if gate.isCurrent lease then
    { gate with active := Function.update gate.active lease.sid none }
  else gate

end PromptRunGate

/-! The browser. -/

/-- A local run, as far as it decides on others. -/
structure Stream where
  runId : Text
  running : Bool := true
  stopping : Bool := false

/-- A coordination that waits for an answer of the backend. -/
inductive Coordinator where
  | stopCancelling (lease : PromptRunLease)
  | stopRestoring (lease : PromptRunLease) (cancelled : Bool)
  | drainRestoring (lease : PromptRunLease) (policy : QueueTerminalPolicy)
  | steerCancelling (lease : PromptRunLease) (selected : PromptQueueItemRef)
  | steerRestoring (lease : PromptRunLease) (selected : PromptQueueItemRef) (cancelled : Bool)

namespace Coordinator

def lease : Coordinator → PromptRunLease
  | .stopCancelling lease => lease
  | .stopRestoring lease _ => lease
  | .drainRestoring lease _ => lease
  | .steerCancelling lease _ => lease
  | .steerRestoring lease _ _ => lease

/-- The prompt that a steer has reserved. -/
def selected : Coordinator → Option PromptQueueItemRef
  | .steerCancelling _ selected => some selected
  | .steerRestoring _ selected _ => some selected
  | _ => none

end Coordinator

/-- A run that was started, with the prompt that was claimed for it and the lease it was started
under. -/
structure Launch where
  sid : Text
  runId : Text
  text : Text
  prompt : Option QueuedPrompt
  lease : Option PromptRunLease

structure Browser where
  gate : PromptRunGate := {}
  queues : PromptQueueStore := fun _ => none
  streams : Text → Option Stream := fun _ => none
  inFlight : List Coordinator := []
  launches : List Launch := []
  /-- The prompts that were claimed, by session. -/
  claims : List (Text × QueuedPrompt) := []

namespace Browser

def isRunActive (b : Browser) (sid : Text) : Bool := (b.streams sid).any Stream.running

/-- `activeStream`: the run of a session, if it is the expected one and runs. -/
def activeStream (b : Browser) (sid runId : Text) : Option Stream :=
  (b.streams sid).filter fun stream => stream.running && decide (stream.runId = runId)

def setStream (b : Browser) (sid : Text) (stream : Option Stream) : Browser :=
  { b with streams := Function.update b.streams sid stream }

/-- An operation on the stream of a run that is still the one of its session. -/
def onActive (b : Browser) (sid runId : Text) (f : Stream → Option Stream) : Browser :=
  match b.activeStream sid runId with
  | none => b
  | some stream => b.setStream sid (f stream)

def beginStreamStop (b : Browser) (sid : Text) (expectedRunId : Option Text) :
    Option Text × Browser :=
  match b.streams sid with
  | none => (none, b)
  | some stream =>
    if ¬ stream.running ∨ stream.stopping ∨ expectedRunId.any (· ≠ stream.runId) then (none, b)
    else (some stream.runId, b.setStream sid (some { stream with stopping := true }))

def finishStreamStop (b : Browser) (sid runId : Text) : Browser :=
  b.onActive sid runId fun stream => some { stream with running := false, stopping := false }

def failStreamStop (b : Browser) (sid runId : Text) : Browser :=
  b.onActive sid runId fun stream => some { stream with stopping := false }

def retireStreamAfterBackendFinish (b : Browser) (sid runId : Text) : Browser :=
  b.onActive sid runId fun _ => none

def failStream (b : Browser) (sid runId : Text) : Browser :=
  b.onActive sid runId fun stream =>
    if stream.stopping then some stream
    else some { stream with running := false, stopping := false }

def completeStream (b : Browser) (sid runId : Text) : Browser :=
  b.onActive sid runId fun stream => some { stream with running := false, stopping := false }

def dispatch (b : Browser) (sid : Text) (action : PromptQueueAction) :
    Option QueuedPrompt × Browser :=
  ((b.queues.dispatch sid action).1, { b with queues := (b.queues.dispatch sid action).2 })

def clearSteering (b : Browser) (sid : Text) (selected : PromptQueueItemRef) : Browser :=
  (b.dispatch sid (.clearSteering selected.itemId selected.revision)).2

/-- The only place that starts a run. -/
def launchSessionRun (b : Browser) (sid text freshRun : Text) (lease : Option PromptRunLease)
    (prompt : Option QueuedPrompt) : Bool × Browser :=
  let ownsGate := lease.any b.gate.isCurrent
  if sid = [] ∨ jsTrim text = [] ∨ b.isRunActive sid ∨ (b.gate.isBlocked sid ∧ ¬ ownsGate) then
    (false, b)
  else
    (true,
      { b.setStream sid (some { runId := freshRun }) with
        launches := b.launches ++ [⟨sid, freshRun, jsTrim text, prompt, lease⟩] })

/-- A claim, and the run for what was claimed. -/
def claimAndLaunch (b : Browser) (sid : Text) (action : PromptQueueAction) (freshRun : Text)
    (lease : Option PromptRunLease) : Option QueuedPrompt × Browser :=
  match b.dispatch sid action with
  | (none, b) => (none, b)
  | (some prompt, b) =>
    match { b with claims := b.claims ++ [(sid, prompt)] }.launchSessionRun sid prompt.text freshRun
        lease (some prompt) with
    | (true, b) => (some prompt, b)
    | (false, b) => (none, b)

def claimAndLaunchNext (b : Browser) (sid freshRun : Text) (lease : PromptRunLease) :
    Option QueuedPrompt × Browser :=
  if ¬ b.gate.isCurrent lease ∨ b.isRunActive sid then (none, b)
  else b.claimAndLaunch sid .claimNext freshRun (some lease)

def claimAndLaunchSelected (b : Browser) (sid freshRun : Text) (selected : PromptQueueItemRef)
    (lease : PromptRunLease) : Option QueuedPrompt × Browser :=
  if ¬ b.gate.isCurrent lease ∨ b.isRunActive sid then (none, b)
  else b.claimAndLaunch sid (.claimItem selected.itemId selected.revision) freshRun (some lease)

def launchNextQueuedPrompt (b : Browser) (sid freshRun : Text) : Browser :=
  if b.isRunActive sid ∨ (b.queues.getSnapshot sid).steering.isSome ∨ b.gate.isBlocked sid then b
  else (b.claimAndLaunch sid .claimNext freshRun none).2

/-! Coordinations: how they begin, and what they do with an answer. -/

/-- A coordination begins if the lease of its session is free. -/
def coordinate (b : Browser) (sid runId : Text) (purpose : Purpose)
    (begin_ : PromptRunLease → Coordinator) : Bool × Browser :=
  match b.gate.acquire sid runId purpose with
  | (none, _) => (false, b)
  | (some lease, gate) =>
    (true, { b with gate := gate, inFlight := b.inFlight ++ [begin_ lease] })

/-- A coordination is over: it gives its lease back. -/
def settle (b : Browser) (lease : PromptRunLease) : Browser :=
  { b with
    gate := b.gate.release lease
    inFlight := b.inFlight.filter fun c => c.lease.token ≠ lease.token }

/-- A coordination goes on to wait for the next answer. -/
def advance (b : Browser) (next : Coordinator) : Browser :=
  { b with
    inFlight := b.inFlight.map fun c => if c.lease.token = next.lease.token then next else c }

def coordinateManualPromptStop (b : Browser) (sid runId : Text) : Browser :=
  match b.coordinate sid runId .manualStop .stopCancelling with
  | (true, b) => b
  | (false, b) => b.failStreamStop sid runId

def restoreAndMaybeDrainPromptQueue (b : Browser) (sid runId : Text)
    (policy : QueueTerminalPolicy) : Browser :=
  (b.coordinate sid runId .terminalRestore fun lease => .drainRestoring lease policy).2

def coordinateQueuedPromptSteer (b : Browser) (sid runId : Text) (selected : PromptQueueItemRef) :
    Browser :=
  match b.gate.acquire sid runId .steer with
  | (none, _) => b.clearSteering sid selected
  | (some lease, gate) =>
    match { b with gate := gate }.beginStreamStop sid (some runId) with
    | (some _, b) => { b with inFlight := b.inFlight ++ [.steerCancelling lease selected] }
    | (none, b) => { b.clearSteering sid selected with gate := b.gate.release lease }

/-- The answer to `cancelRun`: whether the run was cancelled, or none when the request failed. -/
def onCancelAnswer (b : Browser) (answer : Option Bool) : Coordinator → Browser
  | .stopCancelling lease =>
    match answer with
    | none => (b.failStreamStop lease.sid lease.ownerRunId).settle lease
    | some cancelled =>
      (if cancelled then b.finishStreamStop lease.sid lease.ownerRunId else b).advance
        (.stopRestoring lease cancelled)
  | .steerCancelling lease selected =>
    match answer with
    | none =>
      ((b.failStreamStop lease.sid lease.ownerRunId).clearSteering lease.sid selected).settle lease
    | some cancelled =>
      (if cancelled then b.finishStreamStop lease.sid lease.ownerRunId else b).advance
        (.steerRestoring lease selected cancelled)
  | _ => b

/-- The stream of a run that the backend has not cancelled takes no part in the stop any longer. -/
def failUncancelled (b : Browser) (lease : PromptRunLease) (cancelled : Bool) : Browser :=
  if cancelled then b else b.failStreamStop lease.sid lease.ownerRunId

def retireUncancelled (b : Browser) (lease : PromptRunLease) (cancelled : Bool) : Browser :=
  if cancelled then b else b.retireStreamAfterBackendFinish lease.sid lease.ownerRunId

/-- The answer to `loadMessages`: whether the history was restored, or none when it failed. -/
def onHistoryAnswer (b : Browser) (answer : Option Bool) (freshRun : Text) : Coordinator → Browser
  | .stopRestoring lease cancelled =>
    match answer with
    | none => (b.failStreamStop lease.sid lease.ownerRunId).settle lease
    | some restored =>
      if ¬ restored ∨ ¬ b.gate.isCurrent lease then (b.failUncancelled lease cancelled).settle lease
      else (b.retireUncancelled lease cancelled).settle lease
  | .drainRestoring lease policy =>
    match answer with
    | none => b.settle lease
    | some restored =>
      if ¬ restored ∨ ¬ b.gate.isCurrent lease then b.settle lease
      else if ¬ (shouldAutoDrainPromptQueue policy ∨ b.gate.isDrainRequested lease) ∨
          b.isRunActive lease.sid then b.settle lease
      else (b.claimAndLaunchNext lease.sid freshRun lease).2.settle lease
  | .steerRestoring lease selected cancelled =>
    match answer with
    | none =>
      ((b.failStreamStop lease.sid lease.ownerRunId).clearSteering lease.sid selected).settle lease
    | some restored =>
      if ¬ restored ∨ ¬ b.gate.isCurrent lease then
        ((b.failUncancelled lease cancelled).clearSteering lease.sid selected).settle lease
      else
        match (b.retireUncancelled lease cancelled).claimAndLaunchSelected lease.sid freshRun
            selected lease with
        | (some _, b) => b.settle lease
        | (none, b) => (b.clearSteering lease.sid selected).settle lease
  | _ => b

/-! What the user does. -/

def handleComposerSend (b : Browser) (sid text : Text) (planMode : Bool)
    (freshId now freshRun : Text) : Browser :=
  if sid = [] ∨ jsTrim text = [] then b
  else if b.isRunActive sid ∨ (b.queues.getSnapshot sid).items ≠ [] ∨ b.gate.isBlocked sid then
    match b.queues.enqueue sid freshId now text planMode with
    | (none, queues) => { b with queues := queues }
    | (some _, queues) =>
      if b.isRunActive sid then { b with queues := queues }
      else { b with queues := queues, gate := b.gate.requestDrain sid }.launchNextQueuedPrompt sid freshRun
  else (b.launchSessionRun sid text freshRun none none).2

/-- A click on a queued prompt, as it was shown. -/
def handleQueueActivate (b : Browser) (sid : Text) (item : QueuedPrompt) (freshRun : Text) :
    Browser :=
  if sid = [] then b
  else
    match b.streams sid with
    | some stream =>
      if stream.running then
        if stream.stopping then b
        else
          let begun := b.queues.dispatch sid (.beginSteering item.id item.revision)
          if (transitionPromptQueue (b.queues.getSnapshot sid)
              (.beginSteering item.id item.revision)).changed ∧ validSid sid then
            { b with queues := begun.2 }.coordinateQueuedPromptSteer sid stream.runId item.ref
          else b
      else if b.gate.isBlocked sid then b
      else (b.claimAndLaunch sid (.claimItem item.id item.revision) freshRun none).2
    | none =>
      if b.gate.isBlocked sid then b
      else (b.claimAndLaunch sid (.claimItem item.id item.revision) freshRun none).2

def handleStop (b : Browser) (sid : Text) : Browser :=
  if sid = [] then b
  else
    match b.beginStreamStop sid none with
    | (none, b) => b
    | (some runId, b) => b.coordinateManualPromptStop sid runId

/-- The `complete` frame of a run. -/
def onComplete (b : Browser) (sid runId : Text) (kind : RunKind) (awaiting : Option AwaitingKind) :
    Browser :=
  match b.activeStream sid runId with
  | none => b
  | some stream =>
    (b.completeStream sid runId).restoreAndMaybeDrainPromptQueue sid runId
      { kind := kind
        awaiting := awaiting
        wasStopping := stream.stopping
        steering := (b.queues.getSnapshot sid).steering }

end Browser

inductive Event where
  | send (sid text : Text) (planMode : Bool) (freshId now freshRun : Text)
  /-- The execution of an approved plan is asked for. -/
  | execute (sid text freshRun : Text)
  | activate (sid : Text) (item : QueuedPrompt) (freshRun : Text)
  | edit (sid itemId : Text) (revision : ℤ) (text : Text)
  | delete (sid itemId : Text) (revision : ℤ)
  | reorder (sid itemId targetId : Text)
  | replace (sid : Text) (items : List QueuedPrompt)
  | stop (sid : Text)
  | complete (sid runId : Text) (kind : RunKind) (awaiting : Option AwaitingKind)
  | transportError (sid runId : Text)
  | cancelAnswer (token : ℕ) (answer : Option Bool)
  | historyAnswer (token : ℕ) (answer : Option Bool) (freshRun : Text)

/-- One turn of the browser's event loop. -/
def Browser.step (b : Browser) : Event → Browser
  | .send sid text planMode freshId now freshRun =>
    b.handleComposerSend sid text planMode freshId now freshRun
  | .execute sid text freshRun => (b.launchSessionRun sid text freshRun none none).2
  | .activate sid item freshRun => b.handleQueueActivate sid item freshRun
  | .edit sid itemId revision text => (b.dispatch sid (.edit itemId revision text)).2
  | .delete sid itemId revision => (b.dispatch sid (.delete itemId revision)).2
  | .reorder sid itemId targetId => (b.dispatch sid (.reorder itemId targetId)).2
  | .replace sid items => { b with queues := b.queues.replace sid items }
  | .stop sid => b.handleStop sid
  | .complete sid runId kind awaiting => b.onComplete sid runId kind awaiting
  | .transportError sid runId => b.failStream sid runId
  | .cancelAnswer token answer =>
    match b.inFlight.find? fun c => c.lease.token = token with
    | none => b
    | some c => b.onCancelAnswer answer c
  | .historyAnswer token answer freshRun =>
    match b.inFlight.find? fun c => c.lease.token = token with
    | none => b
    | some c => b.onHistoryAnswer answer freshRun c

end DeepseekScience.Frontend.PromptQueue
