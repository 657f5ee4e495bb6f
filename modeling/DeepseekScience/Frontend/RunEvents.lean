import DeepseekScience.Frontend.RunDiscipline

/-! Every order of events in the browser: a session has one coordination in flight at most, its gate
is closed while it has one and open otherwise, and no reservation outlives its steer. -/
namespace DeepseekScience.Frontend.PromptQueue

open Runs

namespace Browser

variable {b b' : Browser} {making : Option (Text × PromptQueueItemRef)} {c : Coordinator}
  {sid runId text freshRun : Text} {action : PromptQueueAction}

/-- A drain that is asked for, and a lease that was taken and given back, leave the holders of the
gate what they are. -/
theorem Orderly.regate (h : Orderly making b) (gate : PromptRunGate)
    (hactive : ∀ sid, (gate.active sid).map GateEntry.lease = (b.gate.active sid).map GateEntry.lease)
    (htoken : b.gate.token ≤ gate.token) : Orderly making { b with gate := gate } := by
  constructor
  · intro c hc
    exact (hactive _).trans (h.held c hc)
  · intro sid entry hentry
    have hlease : (b.gate.active sid).map GateEntry.lease = some entry.lease := by
      rw [← hactive, hentry]
      rfl
    obtain ⟨old, hold, hsame⟩ := Option.map_eq_some_iff.mp hlease
    rw [← hsame]
    exact h.owned sid old hold
  · exact h.tokens
  · exact fun c hc => (h.bounded c hc).trans htoken
  · exact h.reserved

theorem Orderly.requestDrain (h : Orderly making b) :
    Orderly making { b with gate := b.gate.requestDrain sid } := by
  unfold PromptRunGate.requestDrain
  split
  · exact h
  · rename_i entry hentry
    split
    · refine h.regate _ (fun sid' => ?_) le_rfl
      by_cases hsid : sid' = sid
      · simp [hsid, hentry]
      · simp [Function.update_of_ne hsid]
    · exact h

theorem Orderly.coordinate {purpose : Purpose} {begin_ : PromptRunLease → Coordinator}
    (h : Orderly none b) (hlease : ∀ lease, (begin_ lease).lease = lease) :
    Orderly none (b.coordinate sid runId purpose begin_).2 := by
  unfold Browser.coordinate
  obtain hnone | ⟨lease, hsid, htoken, -, hfree, hsome⟩ := acquire_cases b.gate sid runId purpose
  · rwa [hnone]
  · rw [hsome]
    subst hsid
    have hbegin := h.begin (c := begin_ lease) none (by rwa [hlease]) (by rwa [hlease])
      (by simp)
    rwa [hlease] at hbegin

/-- What a coordination has reserved is given up. -/
def giveUp (b : Browser) (c : Coordinator) : Browser :=
  match c.selected with
  | none => b
  | some selected => b.clearSteering c.lease.sid selected

theorem giveUp_inFlight : (b.giveUp c).inFlight = b.inFlight := by
  unfold giveUp
  split <;> rfl

/-- A coordination that has given up what it had reserved ends. -/
theorem Orderly.conclude (h : Orderly making b) (hc : c ∈ b.inFlight) :
    Orderly making ((b.giveUp c).settle c.lease) := by
  have hgiven : Orderly making (b.giveUp c) := by
    unfold giveUp
    split
    · exact h
    · exact h.clearSteering _
  refine hgiven.settle (by rwa [giveUp_inFlight]) ?_
  intro ref href
  simp only [giveUp, href]
  exact steering_clearSteering _

/-- How a coordination goes on with the answer to its cancellation. -/
inductive Cancelled (b : Browser) : Coordinator → Browser → Prop
  | failed {c : Coordinator} {b' : Browser} (hstreams : StreamsOnly b b') :
    Cancelled b c ((b'.giveUp c).settle c.lease)
  | acknowledged {c next : Coordinator} {b' : Browser} (hstreams : StreamsOnly b b')
    (hlease : next.lease = c.lease) (hselected : next.selected = c.selected) :
    Cancelled b c (b'.advance next)

theorem onCancelAnswer_cases (b : Browser) (answer : Option Bool) (c : Coordinator) :
    b.onCancelAnswer answer c = b ∨ Cancelled b c (b.onCancelAnswer answer c) := by
  cases c with
  | stopCancelling lease =>
    right
    cases answer with
    | none => exact .failed (c := .stopCancelling lease) (onActive_streams _)
    | some cancelled => exact .acknowledged (finishCancelled_streams lease cancelled) rfl rfl
  | steerCancelling lease selected =>
    right
    cases answer with
    | none => exact .failed (c := .steerCancelling lease selected) (onActive_streams _)
    | some cancelled => exact .acknowledged (finishCancelled_streams lease cancelled) rfl rfl
  | _ => exact Or.inl rfl

theorem Orderly.onCancelAnswer (h : Orderly making b) (answer : Option Bool) (hc : c ∈ b.inFlight) :
    Orderly making (b.onCancelAnswer answer c) := by
  obtain hsame | hcancelled := onCancelAnswer_cases b answer c
  · rwa [hsame]
  generalize b.onCancelAnswer answer c = after at hcancelled
  cases hcancelled with
  | failed hstreams => exact (h.same hstreams.same).conclude (by rwa [hstreams.same.inFlight])
  | acknowledged hstreams hlease hselected =>
    exact (h.same hstreams.same).advance (by rwa [hstreams.same.inFlight]) hlease hselected

/-- How a coordination ends with the answer to its request for the history. -/
inductive Concluded (b : Browser) (freshRun : Text) :
    Option Bool → Coordinator → Browser → Prop
  | unclaimed {answer : Option Bool} {c : Coordinator} {b' : Browser}
    (hstreams : StreamsOnly b b') :
    Concluded b freshRun answer c ((b'.giveUp c).settle c.lease)
  | drain {lease : PromptRunLease} {policy : QueueTerminalPolicy}
    (hwanted : shouldAutoDrainPromptQueue policy = true ∨ b.gate.isDrainRequested lease = true)
    (hidle : b.isRunActive lease.sid = false) (hcurrent : b.gate.isCurrent lease = true) :
    Concluded b freshRun (some true) (.drainRestoring lease policy)
      ((b.claimAndLaunch lease.sid .claimNext freshRun (some lease)).2.settle lease)
  | steer {lease : PromptRunLease} {selected : PromptQueueItemRef} {cancelled : Bool}
    {claim : Option QueuedPrompt × Browser}
    (hidle : (b.retireUncancelled lease cancelled).isRunActive lease.sid = false)
    (hcurrent : (b.retireUncancelled lease cancelled).gate.isCurrent lease = true)
    (hclaim : (b.retireUncancelled lease cancelled).claimAndLaunch lease.sid
      (.claimItem selected.itemId selected.revision) freshRun (some lease) = claim) :
    Concluded b freshRun (some true) (.steerRestoring lease selected cancelled)
      ((if claim.1.isSome then claim.2 else claim.2.clearSteering lease.sid selected).settle lease)

theorem onHistoryAnswer_cases (b : Browser) (answer : Option Bool) (freshRun : Text)
    (c : Coordinator) :
    b.onHistoryAnswer answer freshRun c = b ∨
      Concluded b freshRun answer c (b.onHistoryAnswer answer freshRun c) := by
  cases c with
  | stopRestoring lease cancelled =>
    right
    cases answer with
    | none => exact .unclaimed (c := .stopRestoring lease cancelled) (onActive_streams _)
    | some restored =>
      simp only [onHistoryAnswer]
      split
      · exact .unclaimed (c := .stopRestoring lease cancelled) (failUncancelled_streams _ _)
      · exact .unclaimed (c := .stopRestoring lease cancelled) (retireUncancelled_streams _ _)
  | drainRestoring lease policy =>
    right
    have hunclaimed : Concluded b freshRun answer (.drainRestoring lease policy) (b.settle lease) :=
      .unclaimed (c := .drainRestoring lease policy) rfl
    cases answer with
    | none => exact hunclaimed
    | some restored =>
      simp only [onHistoryAnswer]
      split
      · exact hunclaimed
      rename_i hrestored
      obtain rfl : restored = true := by simp_all
      split
      · exact hunclaimed
      rename_i hwanted
      unfold claimAndLaunchNext
      split
      · exact hunclaimed
      · have hdrain : shouldAutoDrainPromptQueue policy = true ∨ b.gate.isDrainRequested lease = true := by
          by_contra hneither
          exact hwanted (Or.inl hneither)
        exact .drain hdrain (by simp_all) (by simp_all)
  | steerRestoring lease selected cancelled =>
    right
    cases answer with
    | none => exact .unclaimed (c := .steerRestoring lease selected cancelled) (onActive_streams _)
    | some restored =>
      simp only [onHistoryAnswer]
      split
      · exact .unclaimed (c := .steerRestoring lease selected cancelled)
          (failUncancelled_streams _ _)
      rename_i hrestored
      obtain rfl : restored = true := by simp_all
      unfold claimAndLaunchSelected
      by_cases hstart : ¬ (b.retireUncancelled lease cancelled).gate.isCurrent lease = true ∨
          (b.retireUncancelled lease cancelled).isRunActive lease.sid = true
      · simp only [if_pos hstart]
        exact .unclaimed (c := .steerRestoring lease selected cancelled)
          (retireUncancelled_streams _ _)
      · simp only [if_neg hstart]
        have hidle : (b.retireUncancelled lease cancelled).isRunActive lease.sid = false := by simp_all
        have hcurrent : (b.retireUncancelled lease cancelled).gate.isCurrent lease = true := by simp_all
        have hsteer : Concluded b freshRun (some true) (.steerRestoring lease selected cancelled) _ :=
          .steer hidle hcurrent rfl
        split <;> rename_i heq <;> rw [heq] at hsteer <;> simpa using hsteer
  | _ => exact Or.inl rfl

theorem Orderly.onHistoryAnswer (h : Orderly making b) (answer : Option Bool)
    (hc : c ∈ b.inFlight) : Orderly making (b.onHistoryAnswer answer freshRun c) := by
  obtain hsame | hconcluded := onHistoryAnswer_cases b answer freshRun c
  · rwa [hsame]
  generalize b.onHistoryAnswer answer freshRun c = after at hconcluded
  cases hconcluded with
  | unclaimed hstreams => exact (h.same hstreams.same).conclude (by rwa [hstreams.same.inFlight])
  | @drain lease policy hwanted hidle hcurrent =>
    have hplain : NotReserving .claimNext := trivial
    exact (h.claimAndLaunch hplain).settle (c := .drainRestoring lease policy)
      (by rwa [(claimAndLaunch_kept _).2]) (by simp [Coordinator.selected])
  | @steer lease selected cancelled claim hidle hcurrent hclaim =>
    have hretired := (retireUncancelled_streams (b := b) lease cancelled).same
    have hclaimed : Orderly making claim.2 := by
      rw [← hclaim]
      exact (h.same hretired).claimAndLaunch trivial
    have hflight : .steerRestoring lease selected cancelled ∈ claim.2.inFlight := by
      rw [← hclaim, (claimAndLaunch_kept _).2, hretired.inFlight]
      exact hc
    cases hprompt : claim.1 with
    | none =>
      simpa [giveUp, Coordinator.selected, Coordinator.lease, hprompt] using hclaimed.conclude hflight
    | some prompt =>
      have hnone : (claim.2.queues.getSnapshot lease.sid).steering = none := by
        rw [← hclaim] at hprompt ⊢
        exact steering_of_claimAndLaunch hprompt
      simpa [hprompt, Coordinator.lease] using
        hclaimed.settle hflight (by simp [Coordinator.lease, hnone])

theorem Orderly.handleComposerSend {planMode : Bool} {freshId now : Text} (h : Orderly none b) :
    Orderly none (b.handleComposerSend sid text planMode freshId now freshRun) := by
  have henqueue : Orderly none
      { b with queues := (b.queues.enqueue sid freshId now text planMode).2 } := by
    refine h.queues fun sid' ref href => ?_
    unfold PromptQueueStore.enqueue at href
    split at href
    · exact href
    · simp only at href
      split at href
      · exact steering_of_dispatch (.enqueue _) trivial href
      · exact href
  unfold Browser.handleComposerSend
  split
  · exact h
  split
  · split <;> rename_i heq <;> rw [heq] at henqueue
    · exact henqueue
    · split
      · exact henqueue
      · unfold Browser.launchNextQueuedPrompt
        split
        · exact henqueue.requestDrain
        · exact henqueue.requestDrain.claimAndLaunch trivial
  · exact h.same (launchSessionRun_same _ _)

theorem steering_of_beginSteering {s : PromptQueueState} {ref : PromptQueueItemRef}
    (hchanged : (transitionPromptQueue s (.beginSteering ref.itemId ref.revision)).changed = true) :
    (transitionPromptQueue s (.beginSteering ref.itemId ref.revision)).state.steering = some ref := by
  simp only [transitionPromptQueue] at hchanged ⊢
  split at hchanged
  · cases hchanged
  rename_i hfree
  rw [if_neg hfree]
  split at hchanged
  · cases hchanged
  rename_i item hfind
  have hitem : item.ref = ref := by simpa [sameItemRef] using List.find?_some hfind
  simp [hitem]

/-- A click on a queued prompt while a run is under way reserves the prompt. -/
theorem Orderly.beginSteering (h : Orderly none b) (ref : PromptQueueItemRef)
    (hchanged : (transitionPromptQueue (b.queues.getSnapshot sid)
      (.beginSteering ref.itemId ref.revision)).changed = true) :
    Orderly (some (sid, ref))
      { b with queues := (b.queues.dispatch sid (.beginSteering ref.itemId ref.revision)).2 } := by
  refine ⟨h.held, h.owned, h.tokens, h.bounded, fun sid' ref' href => ?_⟩
  rw [getSnapshot_dispatch] at href
  split at href
  · rename_i hsid
    rw [steering_of_beginSteering hchanged] at href
    rw [hsid.1, Option.some.inj href]
    exact Or.inl rfl
  · obtain hmaking | howned := h.reserved sid' ref' href
    · cases hmaking
    · exact Or.inr howned

theorem Orderly.coordinateQueuedPromptSteer {ref : PromptQueueItemRef}
    (h : Orderly (some (sid, ref)) b) :
    Orderly none (b.coordinateQueuedPromptSteer sid runId ref) := by
  unfold Browser.coordinateQueuedPromptSteer
  obtain hnone | ⟨lease, hsid, htoken, -, hfree, hsome⟩ := acquire_cases b.gate sid runId .steer
  · rw [hnone]
    exact h.unmake
  rw [hsome]
  subst hsid
  generalize hgate : (⟨Function.update b.gate.active lease.sid (some ⟨lease, false⟩),
    b.gate.token + 1⟩ : PromptRunGate) = gate
  simp only
  have hbegun := (beginStreamStop_streams { b with gate := gate } lease.sid (some runId)).same
  split <;> rename_i heq <;> rw [heq] at hbegun
  · -- the coordination takes the reservation over
    have hbegin := h.begin (c := .steerCancelling lease ref) none hfree htoken (by
      intro sid' ref' hmaking
      cases hmaking
      exact Or.inr ⟨rfl, rfl⟩)
    refine hbegin.same ⟨hbegun.gate.trans hgate.symm, hbegun.queues, ?_⟩
    exact congrArg (· ++ [Coordinator.steerCancelling lease ref]) hbegun.inFlight
  · rename_i begun
    have hgiven : Orderly none (b.clearSteering lease.sid ref) := h.unmake
    have hregate := hgiven.regate (gate.release lease) (by
      intro sid'
      subst hgate
      by_cases hsid : sid' = lease.sid
      · simp [PromptRunGate.release, PromptRunGate.isCurrent, hsid, hfree, Browser.clearSteering, Browser.dispatch]
      · simp [PromptRunGate.release, PromptRunGate.isCurrent, Function.update_of_ne hsid,
          Browser.clearSteering, Browser.dispatch]) (by
      subst hgate
      simp [PromptRunGate.release, PromptRunGate.isCurrent, Browser.clearSteering, Browser.dispatch])
    have hgateSame : begun.gate = gate := hbegun.gate
    have hqueuesSame : begun.queues = b.queues := hbegun.queues
    refine hregate.same ⟨?_, ?_, hbegun.inFlight⟩
    · simp [hgateSame]
    · simp [Browser.clearSteering, Browser.dispatch, hqueuesSame]

theorem Orderly.handleQueueActivate {item : QueuedPrompt} (h : Orderly none b) :
    Orderly none (b.handleQueueActivate sid item freshRun) := by
  have hclaim : Orderly none
      (if b.gate.isBlocked sid then b
        else (b.claimAndLaunch sid (.claimItem item.id item.revision) freshRun none).2) := by
    split
    · exact h
    · exact h.claimAndLaunch trivial
  unfold Browser.handleQueueActivate
  split
  · exact h
  split
  · split
    · split
      · exact h
      · simp only
        split
        · rename_i hchanged
          exact (h.beginSteering item.ref hchanged.1).coordinateQueuedPromptSteer
        · exact h
    · exact hclaim
  · exact hclaim

theorem Orderly.handleStop (h : Orderly none b) : Orderly none (b.handleStop sid) := by
  unfold Browser.handleStop
  split
  · exact h
  have hbegun := h.same (beginStreamStop_streams b sid none).same
  split <;> rename_i heq <;> rw [heq] at hbegun
  · exact hbegun
  · unfold Browser.coordinateManualPromptStop
    rename_i runId begun
    have hcoordinate : Orderly none (begun.coordinate sid runId .manualStop .stopCancelling).2 :=
      hbegun.coordinate fun _ => rfl
    split <;> rename_i heq' <;> rw [heq'] at hcoordinate
    · exact hcoordinate
    · exact hcoordinate.same (onActive_streams _).same

theorem Orderly.onComplete {kind : RunKind} {awaiting : Option AwaitingKind} (h : Orderly none b) :
    Orderly none (b.onComplete sid runId kind awaiting) := by
  unfold Browser.onComplete
  split
  · exact h
  · exact (h.same (onActive_streams _).same).coordinate fun _ => rfl

theorem Orderly.step (h : Orderly none b) (event : Event) : Orderly none (b.step event) := by
  cases event with
  | send => exact h.handleComposerSend
  | execute => exact h.same (launchSessionRun_same _ _)
  | activate => exact h.handleQueueActivate
  | edit => exact h.dispatch trivial
  | delete => exact h.dispatch trivial
  | reorder => exact h.dispatch trivial
  | replace sid items => exact h.replace items
  | stop => exact h.handleStop
  | complete => exact h.onComplete
  | transportError => exact h.same (onActive_streams _).same
  | cancelAnswer token answer =>
    simp only [Browser.step]
    split
    · exact h
    · rename_i heq
      exact h.onCancelAnswer answer (List.mem_of_find?_eq_some heq)
  | historyAnswer token answer freshRun =>
    simp only [Browser.step]
    split
    · exact h
    · rename_i heq
      exact h.onHistoryAnswer answer (List.mem_of_find?_eq_some heq)

theorem orderly_run (events : List Event) : Orderly none (run step {} events) :=
  run_invariant (fun _ event h _ => h.step event) orderly_start allSteps_true

theorem Orderly.isBlocked_iff (h : Orderly making b) :
    b.gate.isBlocked sid = true ↔ ∃ c ∈ b.inFlight, c.lease.sid = sid := by
  constructor
  · intro hblocked
    obtain ⟨entry, hentry⟩ := Option.isSome_iff_exists.mp hblocked
    obtain ⟨hsid, c, hc, hlease⟩ := h.owned sid entry hentry
    exact ⟨c, hc, by rw [hlease]; exact hsid⟩
  · rintro ⟨c, hc, rfl⟩
    obtain ⟨entry, hentry, -⟩ := Option.map_eq_some_iff.mp (h.held c hc)
    simp [PromptRunGate.isBlocked, hentry]

/-- Whatever the user does and however the answers come: a session has one coordination in flight
at most, its gate is closed while it has one and open otherwise, and what is reserved in its queue
is what the steer in flight has selected. -/
theorem coordinations_exclusive (events : List Event) (sid : Text) :
    (∀ c ∈ (run step {} events).inFlight, ∀ c' ∈ (run step {} events).inFlight,
      c.lease.sid = sid → c'.lease.sid = sid → c = c') ∧
    (run step {} events).inFlight.Nodup ∧
    ((run step {} events).gate.isBlocked sid = true ↔
      ∃ c ∈ (run step {} events).inFlight, c.lease.sid = sid) ∧
    ∀ ref, ((run step {} events).queues.getSnapshot sid).steering = some ref →
      ∃ c ∈ (run step {} events).inFlight, c.selected = some ref ∧ c.lease.sid = sid := by
  have h := orderly_run events
  generalize run step {} events = b at h
  refine ⟨?_, List.Nodup.of_map _ h.tokens, h.isBlocked_iff, ?_⟩
  · intro c hc c' hc' hsid hsid'
    exact h.eq_of_sid hc' hc (hsid.trans hsid'.symm)
  · intro ref href
    obtain hmaking | howned := h.reserved sid ref href
    · cases hmaking
    · exact howned

end Browser

end DeepseekScience.Frontend.PromptQueue
