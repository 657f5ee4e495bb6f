import DeepseekScience.Frontend.SessionMessages

/-! The prompts that wait in the browser for a run of their session: what a prompt needs to be
queued, what each operation does to the queue, and the store that keeps one queue a session. A
steering reservation holds one prompt until it is claimed or given up. -/
namespace DeepseekScience.Frontend.PromptQueue

structure QueuedPrompt where
  id : Text
  revision : ℤ
  text : Text
  createdAt : Text
  requestedPlanMode : Bool
  deriving DecidableEq

structure PromptQueueItemRef where
  itemId : Text
  revision : ℤ
  deriving DecidableEq

def QueuedPrompt.ref (item : QueuedPrompt) : PromptQueueItemRef := ⟨item.id, item.revision⟩

structure PromptQueueState where
  items : List QueuedPrompt := []
  /-- The prompt that a cancel-and-restart under way has reserved. -/
  steering : Option PromptQueueItemRef := none
  deriving DecidableEq

def emptyPromptQueue : PromptQueueState := {}

inductive PromptQueueAction where
  | enqueue (item : QueuedPrompt)
  | edit (itemId : Text) (expectedRevision : ℤ) (text : Text)
  | delete (itemId : Text) (expectedRevision : ℤ)
  | reorder (itemId targetId : Text)
  | claimNext
  | claimItem (itemId : Text) (expectedRevision : ℤ)
  | beginSteering (itemId : Text) (expectedRevision : ℤ)
  | clearSteering (itemId : Text) (expectedRevision : ℤ)

structure PromptQueueTransition where
  state : PromptQueueState
  claimed : Option QueuedPrompt := none
  /-- The state is an object of its own, not the one that the operation was given. -/
  changed : Bool := true
  deriving DecidableEq

def unchanged (state : PromptQueueState) : PromptQueueTransition where
  state := state
  changed := false

/-- `Number.isSafeInteger`. -/
def isSafeInteger (n : ℤ) : Bool := decide (n.natAbs ≤ 2 ^ 53 - 1)

structure CreateQueuedPromptInput where
  id : Text
  text : Text
  createdAt : Text
  requestedPlanMode : Bool

def createQueuedPrompt (input : CreateQueuedPromptInput) : Option QueuedPrompt :=
  if jsTrim input.id = [] ∨ jsTrim input.text = [] ∨ input.createdAt = [] then none
  else some
    { id := jsTrim input.id
      revision := 1
      text := jsTrim input.text
      createdAt := input.createdAt
      requestedPlanMode := input.requestedPlanMode }

def selectIsSteeringItem (state : PromptQueueState) (itemId : Text) : Bool :=
  decide (state.steering.map PromptQueueItemRef.itemId = some itemId)

inductive Direction where
  | up | down

/-- The neighbour of a prompt, which a move by keyboard takes as its target. -/
def selectReorderTargetId (state : PromptQueueState) (itemId : Text) : Direction → Option Text
  | .up =>
    match state.items.findIdx? (·.id = itemId) with
    | some (index + 1) => state.items[index]?.map QueuedPrompt.id
    | _ => none
  | .down =>
    match state.items.findIdx? (·.id = itemId) with
    | some index => state.items[index + 1]?.map QueuedPrompt.id
    | none => none

def sameItemRef (wanted : PromptQueueItemRef) (item : QueuedPrompt) : Bool :=
  decide (item.ref = wanted)

/-- A claim of the first prompt, or of the one that is wanted. -/
def transitionClaim (state : PromptQueueState) (wanted : Option PromptQueueItemRef) :
    PromptQueueTransition :=
  if state.items = [] then unchanged state
  else if state.steering.isSome ∧ wanted ≠ state.steering then unchanged state
  else
    let index := match wanted with
      | none => some 0
      | some wanted => state.items.findIdx? (sameItemRef wanted)
    match index.bind fun index => state.items[index]?.map fun claimed => (index, claimed) with
    | none => unchanged state
    | some (index, claimed) =>
      { state :=
          { items := state.items.eraseIdx index
            steering := if selectIsSteeringItem state claimed.id then none else state.steering }
        claimed := some claimed }

def canEnqueue (state : PromptQueueState) (item : QueuedPrompt) : Bool :=
  decide (item.id ≠ [] ∧ jsTrim item.text ≠ [] ∧ item.createdAt ≠ [] ∧ isSafeInteger item.revision ∧
    1 ≤ item.revision ∧ ∀ other ∈ state.items, other.id ≠ item.id)

def transitionPromptQueue (state : PromptQueueState) : PromptQueueAction → PromptQueueTransition
  | .enqueue item =>
    if canEnqueue state item then
      { state := { state with items := state.items ++ [{ item with text := jsTrim item.text }] } }
    else unchanged state
  | .edit itemId expectedRevision text =>
    if selectIsSteeringItem state itemId then unchanged state
    else
      match state.items.findIdx? (sameItemRef ⟨itemId, expectedRevision⟩) with
      | none => unchanged state
      | some index =>
        match state.items[index]? with
        | none => unchanged state
        | some current =>
          if jsTrim text = [] ∨ current.text = jsTrim text then unchanged state
          else if ¬ isSafeInteger (current.revision + 1) then unchanged state
          else
            let edited := { current with text := jsTrim text, revision := current.revision + 1 }
            { state := { state with items := state.items.set index edited } }
  | .delete itemId expectedRevision =>
    if selectIsSteeringItem state itemId then unchanged state
    else
      match state.items.findIdx? (sameItemRef ⟨itemId, expectedRevision⟩) with
      | none => unchanged state
      | some index => { state := { state with items := state.items.eraseIdx index } }
  | .reorder itemId targetId =>
    if itemId = targetId ∨ selectIsSteeringItem state itemId ∨ selectIsSteeringItem state targetId then
      unchanged state
    else
      match state.items.findIdx? (·.id = itemId), state.items.findIdx? (·.id = targetId) with
      | some fromIndex, some targetIndex =>
        match state.items[fromIndex]? with
        | none => unchanged state
        | some moved =>
          -- the index of the target in the original order is where the moved prompt goes
          { state :=
              { state with
                items := (state.items.eraseIdx fromIndex).insertIdx targetIndex moved } }
      | _, _ => unchanged state
  | .claimNext => transitionClaim state none
  | .claimItem itemId expectedRevision => transitionClaim state (some ⟨itemId, expectedRevision⟩)
  | .beginSteering itemId expectedRevision =>
    if state.steering.isSome then unchanged state
    else
      match state.items.find? (sameItemRef ⟨itemId, expectedRevision⟩) with
      | none => unchanged state
      | some item => { state := { state with steering := some item.ref } }
  | .clearSteering itemId expectedRevision =>
    if state.steering ≠ some ⟨itemId, expectedRevision⟩ then unchanged state
    else { state := { state with steering := none } }

/-! The store. -/

def validSid (sid : Text) : Bool := decide (jsTrim sid ≠ [])

/-- The queues by session. -/
abbrev PromptQueueStore := Text → Option PromptQueueState

namespace PromptQueueStore

def getSnapshot (store : PromptQueueStore) (sid : Text) : PromptQueueState :=
  if validSid sid then (store sid).getD emptyPromptQueue else emptyPromptQueue

def dispatch (store : PromptQueueStore) (sid : Text) (action : PromptQueueAction) :
    Option QueuedPrompt × PromptQueueStore :=
  if validSid sid then
    let transition := transitionPromptQueue (store.getSnapshot sid) action
    (transition.claimed,
      if transition.changed then Function.update store sid (some transition.state) else store)
  else (none, store)

/-- The list that the server answered takes the place of the queue. -/
def replace (store : PromptQueueStore) (sid : Text) (items : List QueuedPrompt) :
    PromptQueueStore :=
  if validSid sid then
    let steering := (store.getSnapshot sid).steering.filter fun held => items.any (sameItemRef held)
    Function.update store sid (some ⟨items, steering⟩)
  else store

/-- `enqueue` of the store, with the identity and the time that its dependencies make. -/
def enqueue (store : PromptQueueStore) (sid freshId now text : Text) (requestedPlanMode : Bool) :
    Option QueuedPrompt × PromptQueueStore :=
  match createQueuedPrompt ⟨freshId, text, now, requestedPlanMode⟩ with
  | none => (none, store)
  | some item =>
    if validSid sid then
      let transition := transitionPromptQueue (store.getSnapshot sid) (.enqueue item)
      (if transition.changed then some item else none, (store.dispatch sid (.enqueue item)).2)
    else (none, store)

end PromptQueueStore

inductive StoreOp where
  | dispatch (sid : Text) (action : PromptQueueAction)
  | enqueue (sid freshId now text : Text) (requestedPlanMode : Bool)
  | replace (sid : Text) (items : List QueuedPrompt)

def storeStep (store : PromptQueueStore) : StoreOp → PromptQueueStore
  | .dispatch sid action => (store.dispatch sid action).2
  | .enqueue sid freshId now text requestedPlanMode =>
    (store.enqueue sid freshId now text requestedPlanMode).2
  | .replace sid items => store.replace sid items

end DeepseekScience.Frontend.PromptQueue
