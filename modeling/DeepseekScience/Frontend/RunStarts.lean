import DeepseekScience.Frontend.RunEvents

/-! Who starts a run, and when: while a coordination of a session is in flight nobody but it, once
it has the history back. A prompt that is claimed is always started, with its own text. -/
namespace DeepseekScience.Frontend.PromptQueue

open Runs

/-- The prompt that was claimed for a run, with its session. -/
def Launch.claim (launch : Launch) : Option (Text × QueuedPrompt) :=
  launch.prompt.map fun prompt => (launch.sid, prompt)

/-- What the user does to have something run. -/
def Event.ByUser : Event → Prop
  | .send .. => True
  | .execute .. => True
  | .activate .. => True
  | _ => False

namespace Browser

variable {b b' : Browser} {event : Event} {launch : Launch} {sid text freshRun : Text}
  {action : PromptQueueAction} {lease : Option PromptRunLease}

/-- The grounds on which a run is started. -/
inductive Allowed (b : Browser) : Event → Launch → Prop
  /-- By the user, with nothing under way in the session. -/
  | free {event : Event} {launch : Launch} (huser : event.ByUser) (hlease : launch.lease = none)
    (hopen : b.gate.isBlocked launch.sid = false) (hidle : b.isRunActive launch.sid = false) :
    Allowed b event launch
  /-- The next prompt, once the history of the completed run is restored. -/
  | drain {launch : Launch} {lease : PromptRunLease} {policy : QueueTerminalPolicy}
    {freshRun : Text} (hlease : launch.lease = some lease) (hsid : launch.sid = lease.sid)
    (hflight : .drainRestoring lease policy ∈ b.inFlight)
    (hwanted : shouldAutoDrainPromptQueue policy = true ∨ b.gate.isDrainRequested lease = true)
    (hidle : b.isRunActive launch.sid = false)
    (hfirst : launch.prompt = (b.queues.getSnapshot launch.sid).items.head?) :
    Allowed b (.historyAnswer lease.token (some true) freshRun) launch
  /-- The prompt that was selected, once the history of the run that it supersedes is restored. -/
  | steer {launch : Launch} {lease : PromptRunLease} {selected : PromptQueueItemRef}
    {cancelled : Bool} {freshRun : Text} (hlease : launch.lease = some lease)
    (hsid : launch.sid = lease.sid) (hflight : .steerRestoring lease selected cancelled ∈ b.inFlight)
    (hselected : launch.prompt.map QueuedPrompt.ref = some selected)
    (hsuperseded : ∀ stream, b.streams launch.sid = some stream → stream.running = true →
      cancelled = false ∧ stream.runId = lease.ownerRunId) :
    Allowed b (.historyAnswer lease.token (some true) freshRun) launch

def ProperQueues (b : Browser) : Prop := ∀ sid, ProperItems (b.queues.getSnapshot sid).items

/-- What an event does to the runs that were started. -/
inductive Started (b : Browser) (event : Event) (b' : Browser) : Prop
  | nothing (hlaunches : b'.launches = b.launches) (hclaims : b.ProperQueues → b'.claims = b.claims)
  | run {launch : Launch} (hlaunches : b'.launches = b.launches ++ [launch])
    (hclaims : b'.claims = b.claims ++ launch.claim.toList)
    (htext : ∀ prompt, launch.prompt = some prompt → launch.text = jsTrim prompt.text)
    (hallowed : Allowed b event launch)

/-- The two states have started the same runs and claimed the same prompts. -/
structure SameRuns (b b' : Browser) : Prop where
  launches : b'.launches = b.launches
  claims : b'.claims = b.claims

theorem SameRuns.started (h : SameRuns b b') : Started b event b' :=
  .nothing h.launches fun _ => h.claims

theorem Started.same {b'' : Browser} (h : Started b event b') (hsame : SameRuns b' b'') :
    Started b event b'' := by
  cases h with
  | nothing hlaunches hclaims =>
    exact .nothing (hsame.launches.trans hlaunches) fun hproper => hsame.claims.trans (hclaims hproper)
  | run hlaunches hclaims htext hallowed =>
    exact .run (hsame.launches.trans hlaunches) (hsame.claims.trans hclaims) htext hallowed

section
/-! What starts nothing. -/

variable {runId : Text}

theorem StreamsOnly.runs (h : StreamsOnly b b') : SameRuns b b' := by
  rw [h]
  exact ⟨rfl, rfl⟩

theorem SameRuns.trans {b'' : Browser} (h : SameRuns b b') (h' : SameRuns b' b'') :
    SameRuns b b'' := ⟨h'.launches.trans h.launches, h'.claims.trans h.claims⟩

theorem coordinate_runs (b : Browser) (sid runId : Text) (purpose : Purpose)
    (begin_ : PromptRunLease → Coordinator) :
    SameRuns b (b.coordinate sid runId purpose begin_).2 := by
  unfold coordinate
  split <;> exact ⟨rfl, rfl⟩

theorem conclude_runs (c : Coordinator) : SameRuns b ((b.giveUp c).settle c.lease) := by
  unfold giveUp
  split <;> exact ⟨rfl, rfl⟩

theorem coordinateQueuedPromptSteer_runs (b : Browser) (sid runId : Text)
    (selected : PromptQueueItemRef) :
    SameRuns b (b.coordinateQueuedPromptSteer sid runId selected) := by
  unfold coordinateQueuedPromptSteer
  split
  · exact ⟨rfl, rfl⟩
  · rename_i gate heq
    have hbegun := (beginStreamStop_streams { b with gate := gate } sid (some runId)).runs
    split <;> rename_i heq' <;> rw [heq'] at hbegun <;> exact ⟨hbegun.launches, hbegun.claims⟩

theorem onCancelAnswer_runs (answer : Option Bool) (c : Coordinator) :
    SameRuns b (b.onCancelAnswer answer c) := by
  obtain hsame | hcancelled := onCancelAnswer_cases b answer c
  · rw [hsame]
    exact ⟨rfl, rfl⟩
  generalize b.onCancelAnswer answer c = after at hcancelled
  cases hcancelled with
  | failed hstreams => exact hstreams.runs.trans (conclude_runs c)
  | acknowledged hstreams hlease hselected => exact ⟨hstreams.runs.launches, hstreams.runs.claims⟩

end

section
/-! What claims and starts. -/

theorem launchSessionRun_cases (b : Browser) (sid text freshRun : Text)
    (lease : Option PromptRunLease) (prompt : Option QueuedPrompt) :
    ((sid = [] ∨ jsTrim text = [] ∨ b.isRunActive sid = true ∨
        b.gate.isBlocked sid = true ∧ ¬ lease.any b.gate.isCurrent = true) ∧
      b.launchSessionRun sid text freshRun lease prompt = (false, b)) ∨
    (b.isRunActive sid = false ∧ (b.gate.isBlocked sid = true → lease.any b.gate.isCurrent = true) ∧
      b.launchSessionRun sid text freshRun lease prompt =
        (true,
          { b.setStream sid (some { runId := freshRun }) with
            launches := b.launches ++ [⟨sid, freshRun, jsTrim text, prompt, lease⟩] })) := by
  unfold launchSessionRun
  by_cases hrefused : sid = [] ∨ jsTrim text = [] ∨ b.isRunActive sid = true ∨
      b.gate.isBlocked sid = true ∧ ¬ lease.any b.gate.isCurrent = true
  · exact Or.inl ⟨hrefused, if_pos hrefused⟩
  · refine Or.inr ⟨?_, ?_, if_neg hrefused⟩
    · by_contra hactive
      exact hrefused (Or.inr (Or.inr (Or.inl (by simpa using hactive))))
    · intro hblocked
      by_contra hforeign
      exact hrefused (Or.inr (Or.inr (Or.inr ⟨hblocked, hforeign⟩)))

/-- A claim in an idle session, under an open gate or under its own lease: the run is started,
unless the prompt is no proper one. -/
theorem claimAndLaunch_runs (b : Browser) (sid : Text) (action : PromptQueueAction) (freshRun : Text)
    (lease : Option PromptRunLease) (hidle : b.isRunActive sid = false)
    (hgate : b.gate.isBlocked sid = true → lease.any b.gate.isCurrent = true) :
    ((b.claimAndLaunch sid action freshRun lease).2.launches = b.launches ∧
      (b.ProperQueues → (b.claimAndLaunch sid action freshRun lease).2.claims = b.claims)) ∨
    ∃ prompt, (b.queues.dispatch sid action).1 = some prompt ∧
      (b.claimAndLaunch sid action freshRun lease).2.launches =
        b.launches ++ [⟨sid, freshRun, jsTrim prompt.text, some prompt, lease⟩] ∧
      (b.claimAndLaunch sid action freshRun lease).2.claims = b.claims ++ [(sid, prompt)] := by
  obtain ⟨-, hnone⟩ | ⟨prompt, hprompt, hsome⟩ := claimAndLaunch_cases b sid action freshRun lease
  · rw [hnone]
    exact Or.inl ⟨rfl, fun _ => rfl⟩
  rw [hsome]
  obtain ⟨hrefused, hlaunch⟩ | ⟨-, -, hlaunch⟩ := launchSessionRun_cases (b.afterClaim sid action prompt)
    sid prompt.text freshRun lease (some prompt)
  · rw [hlaunch]
    refine Or.inl ⟨rfl, fun hproper => ?_⟩
    obtain ⟨hsid, hmem, -⟩ := dispatch_claimed hprompt
    have hitem := (hproper sid).proper prompt hmem
    obtain rfl | hblank | hactive | ⟨hblocked, hforeign⟩ := hrefused
    · cases hsid
    · exact absurd (hitem.trimmed.symm.trans hblank) hitem.text
    · exact absurd (hactive.symm.trans hidle) (by decide)
    · exact absurd (hgate hblocked) hforeign
  · rw [hlaunch]
    exact Or.inr ⟨prompt, hprompt, rfl, rfl⟩

/-- A claim that nobody's lease covers. -/
theorem claimAndLaunch_free (huser : event.ByUser) (hidle : b.isRunActive sid = false)
    (hopen : b.gate.isBlocked sid = false) :
    Started b event (b.claimAndLaunch sid action freshRun none).2 := by
  obtain ⟨hlaunches, hclaims⟩ | ⟨prompt, -, hlaunches, hclaims⟩ :=
    claimAndLaunch_runs b sid action freshRun none hidle (by simp [hopen])
  · exact .nothing hlaunches hclaims
  · refine .run hlaunches hclaims ?_ (.free huser rfl hopen hidle)
    intro queued hqueued
    cases hqueued
    rfl

theorem launchSessionRun_free (huser : event.ByUser) :
    Started b event (b.launchSessionRun sid text freshRun none none).2 := by
  obtain ⟨-, hlaunch⟩ | ⟨hidle, hgate, hlaunch⟩ := launchSessionRun_cases b sid text freshRun none none
  · rw [hlaunch]
    exact .nothing rfl fun _ => rfl
  · rw [hlaunch]
    refine .run rfl (by simp [Launch.claim, setStream]) ?_ (.free huser rfl ?_ hidle)
    · intro prompt hprompt
      cases hprompt
    · simpa using hgate

theorem claimed_of_next {s : PromptQueueState} {item : QueuedPrompt}
    (h : (transitionPromptQueue s .claimNext).claimed = some item) : s.items.head? = some item := by
  obtain hsame | ⟨front, first, back, hitems, hallowed, hclaim⟩ := transitionClaim_cases (s := s) none
  · rw [transitionPromptQueue, hsame] at h
    cases h
  · rw [transitionPromptQueue, hclaim] at h
    obtain ⟨-, rfl, -⟩ | ⟨hwanted, -⟩ := hallowed
    · simpa [hitems] using h
    · cases hwanted

theorem claimed_of_item {s : PromptQueueState} {item : QueuedPrompt} {selected : PromptQueueItemRef}
    (h : (transitionPromptQueue s (.claimItem selected.itemId selected.revision)).claimed = some item) :
    item.ref = selected := by
  obtain hsame | ⟨front, found, back, -, hallowed, hclaim⟩ :=
    transitionClaim_cases (s := s) (some selected)
  · rw [transitionPromptQueue, hsame] at h
    cases h
  · rw [transitionPromptQueue, hclaim] at h
    obtain ⟨hwanted, -⟩ | ⟨hwanted, -⟩ := hallowed
    · cases hwanted
    · rw [← Option.some.inj h]
      exact (Option.some.inj hwanted).symm

theorem transition_of_dispatch {store : PromptQueueStore} {item : QueuedPrompt}
    (h : (store.dispatch sid action).1 = some item) :
    (transitionPromptQueue (store.getSnapshot sid) action).claimed = some item := by
  rwa [PromptQueueStore.dispatch, if_pos (dispatch_claimed h).1] at h

end

section
/-! What each event starts. -/

theorem isBlocked_requestDrain (gate : PromptRunGate) (sid sid' : Text) :
    (gate.requestDrain sid).isBlocked sid' = gate.isBlocked sid' := by
  unfold PromptRunGate.requestDrain
  split
  · rfl
  · rename_i entry hentry
    split
    · by_cases hsid : sid' = sid
      · simp [PromptRunGate.isBlocked, hsid, hentry]
      · simp [PromptRunGate.isBlocked, Function.update_of_ne hsid]
    · rfl

theorem handleComposerSend_started {planMode : Bool} {freshId now : Text} (huser : event.ByUser) :
    Started b event (b.handleComposerSend sid text planMode freshId now freshRun) := by
  unfold handleComposerSend
  split
  · exact SameRuns.started ⟨rfl, rfl⟩
  split
  · split
    · exact SameRuns.started ⟨rfl, rfl⟩
    · rename_i item queues heq
      split
      · exact SameRuns.started ⟨rfl, rfl⟩
      · rename_i hidle
        unfold launchNextQueuedPrompt
        split
        · exact SameRuns.started ⟨rfl, rfl⟩
        · rename_i hstart
          have hidle : b.isRunActive sid = false := by simpa using hidle
          have hopen : (b.gate.requestDrain sid).isBlocked sid = false := by simp_all
          have hfree := hopen
          rw [isBlocked_requestDrain] at hfree
          obtain ⟨hlaunches, hclaims⟩ | ⟨prompt, -, hlaunches, hclaims⟩ := claimAndLaunch_runs
            { b with queues := queues, gate := b.gate.requestDrain sid } sid .claimNext freshRun none
            hidle (by simp [hopen])
          · refine .nothing hlaunches fun hproper => hclaims fun sid' => ?_
            have hqueues := properItems_kept [.enqueue sid freshId now text planMode] (by simp)
              b.queues hproper sid'
            rwa [run_cons, run_nil, storeStep, heq] at hqueues
          · refine .run hlaunches hclaims ?_ (.free huser rfl hfree hidle)
            intro queued hqueued
            cases hqueued
            rfl
  · exact launchSessionRun_free huser

theorem handleQueueActivate_started {item : QueuedPrompt} (huser : event.ByUser) :
    Started b event (b.handleQueueActivate sid item freshRun) := by
  have hclaim : b.isRunActive sid = false → Started b event
      (if b.gate.isBlocked sid then b
        else (b.claimAndLaunch sid (.claimItem item.id item.revision) freshRun none).2) := by
    intro hidle
    split
    · exact SameRuns.started ⟨rfl, rfl⟩
    · rename_i hopen
      exact claimAndLaunch_free huser hidle (by simpa using hopen)
  unfold handleQueueActivate
  split
  · exact SameRuns.started ⟨rfl, rfl⟩
  split
  · rename_i stream hstream
    split
    · split
      · exact SameRuns.started ⟨rfl, rfl⟩
      · simp only
        split
        · have hsteer := coordinateQueuedPromptSteer_runs
            { b with queues := (b.queues.dispatch sid (.beginSteering item.id item.revision)).2 }
            sid stream.runId item.ref
          exact SameRuns.started ⟨hsteer.launches, hsteer.claims⟩
        · exact SameRuns.started ⟨rfl, rfl⟩
    · rename_i hstopped
      exact hclaim (by simpa [isRunActive, hstream] using hstopped)
  · rename_i hnone
    exact hclaim (by simp [isRunActive, hnone])

theorem handleStop_started : Started b event (b.handleStop sid) := by
  unfold handleStop
  split
  · exact SameRuns.started ⟨rfl, rfl⟩
  have hbegun := (beginStreamStop_streams b sid none).runs
  split <;> rename_i heq <;> rw [heq] at hbegun
  · exact hbegun.started
  · rename_i runId begun
    unfold coordinateManualPromptStop
    have hcoordinate := coordinate_runs begun sid runId .manualStop .stopCancelling
    split <;> rename_i heq' <;> rw [heq'] at hcoordinate
    · exact (hbegun.trans hcoordinate).started
    · exact ((hbegun.trans hcoordinate).trans (onActive_streams _).runs).started

theorem onComplete_started {runId : Text} {kind : RunKind} {awaiting : Option AwaitingKind} :
    Started b event (b.onComplete sid runId kind awaiting) := by
  unfold onComplete
  split
  · exact SameRuns.started ⟨rfl, rfl⟩
  · exact ((onActive_streams _).runs.trans (coordinate_runs _ _ _ _ _)).started

/-- What stood in the way of a steered prompt was the run that the steer has stopped. -/
theorem superseded_of_idle {lease : PromptRunLease} {cancelled : Bool} {stream : Stream}
    (hidle : (b.retireUncancelled lease cancelled).isRunActive lease.sid = false)
    (hstream : b.streams lease.sid = some stream) (hrunning : stream.running = true) :
    cancelled = false ∧ stream.runId = lease.ownerRunId := by
  cases cancelled with
  | true => simp [retireUncancelled, isRunActive, hstream, hrunning] at hidle
  | false =>
    refine ⟨rfl, ?_⟩
    by_contra hother
    have hforeign : b.activeStream lease.sid lease.ownerRunId = none := by
      simp [activeStream, hstream, hrunning, hother]
    simp [retireUncancelled, retireStreamAfterBackendFinish, onActive, hforeign, isRunActive, hstream,
      hrunning] at hidle

theorem onHistoryAnswer_started {c : Coordinator} (hc : c ∈ b.inFlight) (answer : Option Bool) :
    Started b (.historyAnswer c.lease.token answer freshRun) (b.onHistoryAnswer answer freshRun c) := by
  obtain hsame | hconcluded := onHistoryAnswer_cases b answer freshRun c
  · rw [hsame]
    exact SameRuns.started ⟨rfl, rfl⟩
  generalize b.onHistoryAnswer answer freshRun c = after at hconcluded
  cases hconcluded with
  | unclaimed hstreams => exact (hstreams.runs.trans (conclude_runs c)).started
  | @drain lease policy hwanted hidle hcurrent =>
    have hown : (some lease).any b.gate.isCurrent = true := by simpa using hcurrent
    obtain ⟨hlaunches, hclaims⟩ | ⟨prompt, hprompt, hlaunches, hclaims⟩ :=
      claimAndLaunch_runs b lease.sid .claimNext freshRun (some lease) hidle fun _ => hown
    · exact .nothing hlaunches hclaims
    · refine .run hlaunches hclaims ?_ (.drain rfl rfl hc hwanted hidle ?_)
      · intro queued hqueued
        cases hqueued
        rfl
      · exact (claimed_of_next (transition_of_dispatch hprompt)).symm
  | @steer lease selected cancelled claim hidle hcurrent hclaim =>
    have hretired := (retireUncancelled_streams (b := b) lease cancelled)
    have hown : (some lease).any (b.retireUncancelled lease cancelled).gate.isCurrent = true := by
      simpa using hcurrent
    suffices hstarted : Started b (.historyAnswer lease.token (some true) freshRun) claim.2 from
      hstarted.same (by split <;> exact ⟨rfl, rfl⟩)
    obtain ⟨hlaunches, hclaims⟩ | ⟨prompt, hprompt, hlaunches, hclaims⟩ :=
      claimAndLaunch_runs (b.retireUncancelled lease cancelled) lease.sid
        (.claimItem selected.itemId selected.revision) freshRun (some lease) hidle fun _ => hown
    · rw [hclaim, hretired.runs.launches] at hlaunches
      rw [hclaim, hretired.runs.claims] at hclaims
      refine .nothing hlaunches fun hproper => hclaims fun sid => ?_
      rw [hretired.same.queues]
      exact hproper sid
    · rw [hclaim, hretired.runs.launches] at hlaunches
      rw [hclaim, hretired.runs.claims] at hclaims
      refine .run hlaunches hclaims ?_ (.steer rfl rfl hc ?_ ?_)
      · intro queued hqueued
        cases hqueued
        rfl
      · exact congrArg some (claimed_of_item (transition_of_dispatch hprompt))
      · exact fun stream => superseded_of_idle hidle

/-- An event starts one run at most, and only on grounds that allow it. -/
theorem step_started (b : Browser) (event : Event) : Started b event (b.step event) := by
  cases event with
  | send => exact handleComposerSend_started trivial
  | execute => exact launchSessionRun_free trivial
  | activate => exact handleQueueActivate_started trivial
  | stop => exact handleStop_started
  | complete => exact onComplete_started
  | transportError => exact (onActive_streams _).runs.started
  | cancelAnswer token answer =>
    simp only [step]
    split
    · exact SameRuns.started ⟨rfl, rfl⟩
    · exact (onCancelAnswer_runs _ _).started
  | historyAnswer token answer freshRun =>
    simp only [step]
    split
    · exact SameRuns.started ⟨rfl, rfl⟩
    · rename_i c heq
      obtain rfl : c.lease.token = token := by simpa using List.find?_some heq
      exact onHistoryAnswer_started (List.mem_of_find?_eq_some heq) answer
  | _ => exact SameRuns.started ⟨rfl, rfl⟩

end

/-- A coordination that gets its history is over. -/
theorem onHistoryAnswer_inFlight (b : Browser) (answer : Option Bool) (freshRun : Text)
    (c : Coordinator) :
    b.onHistoryAnswer answer freshRun c = b ∨
      (b.onHistoryAnswer answer freshRun c).inFlight =
        b.inFlight.filter fun c' => c'.lease.token ≠ c.lease.token := by
  obtain hsame | hconcluded := onHistoryAnswer_cases b answer freshRun c
  · exact Or.inl hsame
  right
  generalize b.onHistoryAnswer answer freshRun c = after at hconcluded
  cases hconcluded with
  | unclaimed hstreams => simp [settle, giveUp_inFlight, hstreams.same.inFlight]
  | drain hwanted hidle hcurrent => exact congrArg (List.filter _) (claimAndLaunch_kept _).2
  | @steer lease selected cancelled claim hidle hcurrent hclaim =>
    have hkept : claim.2.inFlight = b.inFlight := by
      rw [← hclaim, (claimAndLaunch_kept _).2, (retireUncancelled_streams _ _).same.inFlight]
    split <;> exact congrArg (List.filter _) hkept

/-- The answer comes to the coordination that it is for. -/
theorem Orderly.step_historyAnswer {c : Coordinator} (h : Orderly none b) (hc : c ∈ b.inFlight)
    (answer : Option Bool) : b.step (.historyAnswer c.lease.token answer freshRun) =
      b.onHistoryAnswer answer freshRun c := by
  simp only [Browser.step]
  split
  · rename_i hnone
    have hmissed := List.find?_eq_none.mp hnone c hc
    simp at hmissed
  · rename_i c' heq
    have htoken : c'.lease.token = c.lease.token := by simpa using List.find?_some heq
    rw [h.eq_of_token hc (List.mem_of_find?_eq_some heq) htoken]

/-- A coordination that has started a run is the only one of its session, and over. -/
theorem Orderly.started_over {c : Coordinator} (h : Orderly none b) (hc : c ∈ b.inFlight)
    {answer : Option Bool}
    (hlaunches : (b.step (.historyAnswer c.lease.token answer freshRun)).launches =
      b.launches ++ [launch]) :
    ∀ c' ∈ (b.step (.historyAnswer c.lease.token answer freshRun)).inFlight,
      c'.lease.sid ≠ c.lease.sid := by
  rw [h.step_historyAnswer hc] at hlaunches ⊢
  intro c' hc' hsid
  obtain hsame | hover := onHistoryAnswer_inFlight b answer freshRun c
  · rw [hsame] at hlaunches
    simp at hlaunches
  · rw [hover] at hc'
    obtain ⟨hmem, hother⟩ := List.mem_filter.mp hc'
    rw [h.eq_of_sid hc hmem hsid] at hother
    simp at hother

/-- At every step of every run one run of the agent is started at most, and on grounds that allow
it. While a coordination of the session is in flight, only it starts a run, and with that it is
over. -/
theorem starts_exclusive (events : List Event) :
    AllSteps step (fun b event =>
      (b.step event).launches = b.launches ∨
        ∃ launch, (b.step event).launches = b.launches ++ [launch] ∧ Allowed b event launch ∧
          ∀ c ∈ b.inFlight, c.lease.sid = launch.sid →
            launch.lease = some c.lease ∧ ∀ c' ∈ (b.step event).inFlight, c'.lease.sid ≠ launch.sid)
      {} events := by
  have hstep : ∀ b event, Orderly none b → True → Orderly none (step b event) :=
    fun _ event h _ => h.step event
  refine allSteps_of_guarded hstep ?_ orderly_start allSteps_true
  intro b event h _
  cases step_started b event with
  | nothing hlaunches hclaims => exact Or.inl hlaunches
  | @run launch hlaunches hclaims htext hallowed =>
    refine Or.inr ⟨launch, hlaunches, hallowed, fun c hc hsid => ?_⟩
    cases hallowed with
    | free huser hlease hopen hidle =>
      rw [h.isBlocked_iff.mpr ⟨c, hc, hsid⟩] at hopen
      cases hopen
    | drain hlease hsession hflight hwanted hidle hfirst =>
      have hover := h.started_over hflight hlaunches
      obtain rfl := h.eq_of_sid hflight hc (hsid.trans hsession)
      exact ⟨hlease, by rwa [hsession]⟩
    | steer hlease hsession hflight hselected hsuperseded =>
      have hover := h.started_over hflight hlaunches
      obtain rfl := h.eq_of_sid hflight hc (hsid.trans hsession)
      exact ⟨hlease, by rwa [hsession]⟩

section
/-! What becomes of the queues. -/

/-- The queues of the second state come from those of the first by operations of the store, none of
which replaces a queue. -/
def Driven (b b' : Browser) : Prop :=
  ∃ ops, run storeStep b.queues ops = b'.queues ∧ ∀ sid items, StoreOp.replace sid items ∉ ops

theorem SameOrder.driven (h : SameOrder b b') : Driven b b' := ⟨[], h.queues.symm, by simp⟩

theorem Driven.of_queues (h : b'.queues = b.queues) : Driven b b' := ⟨[], h.symm, by simp⟩

theorem Driven.trans {b'' : Browser} (h : Driven b b') (h' : Driven b' b'') : Driven b b'' := by
  obtain ⟨ops, hrun, hplain⟩ := h
  obtain ⟨ops', hrun', hplain'⟩ := h'
  refine ⟨ops ++ ops', by rw [run_append, hrun, hrun'], fun sid items => ?_⟩
  simp [hplain sid items, hplain' sid items]

theorem dispatch_driven : Driven b (b.dispatch sid action).2 := ⟨[.dispatch sid action], rfl, by simp⟩

theorem claimAndLaunch_driven : Driven b (b.claimAndLaunch sid action freshRun lease).2 := by
  obtain ⟨-, hnone⟩ | ⟨prompt, -, hsome⟩ := claimAndLaunch_cases b sid action freshRun lease
  · rw [hnone]
    exact dispatch_driven
  · rw [hsome]
    exact dispatch_driven.trans (.of_queues (launchSessionRun_same _ _).queues)

theorem coordinate_driven {runId : Text} {purpose : Purpose} {begin_ : PromptRunLease → Coordinator} :
    Driven b (b.coordinate sid runId purpose begin_).2 := by
  unfold coordinate
  split <;> exact .of_queues rfl

theorem handleComposerSend_driven {planMode : Bool} {freshId now : Text} :
    Driven b (b.handleComposerSend sid text planMode freshId now freshRun) := by
  have henqueue : Driven b { b with queues := (b.queues.enqueue sid freshId now text planMode).2 } :=
    ⟨[.enqueue sid freshId now text planMode], rfl, by simp⟩
  unfold handleComposerSend
  split
  · exact .of_queues rfl
  split
  · split <;> rename_i heq <;> rw [heq] at henqueue
    · exact henqueue
    · rename_i queues
      split
      · exact henqueue
      · have hdrain : Driven b { b with queues := queues, gate := b.gate.requestDrain sid } :=
          henqueue.trans (.of_queues rfl)
        unfold launchNextQueuedPrompt
        split
        · exact hdrain
        · exact hdrain.trans claimAndLaunch_driven
  · exact (launchSessionRun_same _ _).driven

theorem coordinateQueuedPromptSteer_driven {runId : Text} {selected : PromptQueueItemRef} :
    Driven b (b.coordinateQueuedPromptSteer sid runId selected) := by
  unfold coordinateQueuedPromptSteer
  split
  · exact dispatch_driven
  · rename_i gate heq
    have hbegun := (beginStreamStop_streams { b with gate := gate } sid (some runId)).same.queues
    split <;> rename_i heq' <;> rw [heq'] at hbegun
    · exact .of_queues hbegun
    · rename_i begun
      have hclear : Driven b (b.clearSteering sid selected) := dispatch_driven
      refine hclear.trans (.of_queues ?_)
      have hqueues : begun.queues = b.queues := hbegun
      simp [clearSteering, dispatch, hqueues]

theorem handleQueueActivate_driven {item : QueuedPrompt} :
    Driven b (b.handleQueueActivate sid item freshRun) := by
  have hclaim : Driven b
      (if b.gate.isBlocked sid then b
        else (b.claimAndLaunch sid (.claimItem item.id item.revision) freshRun none).2) := by
    split
    · exact .of_queues rfl
    · exact claimAndLaunch_driven
  unfold handleQueueActivate
  split
  · exact .of_queues rfl
  split
  · split
    · split
      · exact .of_queues rfl
      · simp only
        split
        · have hbegin : Driven b (b.dispatch sid (.beginSteering item.id item.revision)).2 :=
            dispatch_driven
          exact hbegin.trans coordinateQueuedPromptSteer_driven
        · exact .of_queues rfl
    · exact hclaim
  · exact hclaim

theorem handleStop_driven : Driven b (b.handleStop sid) := by
  unfold handleStop
  split
  · exact .of_queues rfl
  have hbegun := (beginStreamStop_streams b sid none).same.driven
  split <;> rename_i heq <;> rw [heq] at hbegun
  · exact hbegun
  · rename_i runId begun
    unfold coordinateManualPromptStop
    have hcoordinate : Driven begun (begun.coordinate sid runId .manualStop .stopCancelling).2 :=
      coordinate_driven
    split <;> rename_i heq' <;> rw [heq'] at hcoordinate
    · exact hbegun.trans hcoordinate
    · exact (hbegun.trans hcoordinate).trans (onActive_streams _).same.driven

theorem conclude_driven (c : Coordinator) : Driven b ((b.giveUp c).settle c.lease) := by
  unfold giveUp
  split
  · exact .of_queues rfl
  · exact dispatch_driven.trans (.of_queues rfl)

theorem onCancelAnswer_driven (answer : Option Bool) (c : Coordinator) :
    Driven b (b.onCancelAnswer answer c) := by
  obtain hsame | hcancelled := onCancelAnswer_cases b answer c
  · exact .of_queues (by rw [hsame])
  generalize b.onCancelAnswer answer c = after at hcancelled
  cases hcancelled with
  | failed hstreams => exact hstreams.same.driven.trans (conclude_driven c)
  | acknowledged hstreams hlease hselected => exact .of_queues hstreams.same.queues

theorem onHistoryAnswer_driven (answer : Option Bool) (c : Coordinator) :
    Driven b (b.onHistoryAnswer answer freshRun c) := by
  obtain hsame | hconcluded := onHistoryAnswer_cases b answer freshRun c
  · exact .of_queues (by rw [hsame])
  generalize b.onHistoryAnswer answer freshRun c = after at hconcluded
  cases hconcluded with
  | unclaimed hstreams => exact hstreams.same.driven.trans (conclude_driven c)
  | drain hwanted hidle hcurrent => exact claimAndLaunch_driven.trans (.of_queues rfl)
  | @steer lease selected cancelled claim hidle hcurrent hclaim =>
    have hclaimed : Driven b claim.2 := by
      rw [← hclaim]
      exact (retireUncancelled_streams _ _).same.driven.trans claimAndLaunch_driven
    split
    · exact hclaimed.trans (.of_queues rfl)
    · have hclear : Driven claim.2 (claim.2.clearSteering lease.sid selected) := dispatch_driven
      exact (hclaimed.trans hclear).trans (.of_queues rfl)

/-- A run of the browser drives a run of the store: every event is a sequence of operations on the
queues, and a list that the server answers is the only one that replaces a queue. -/
theorem step_driven (b : Browser) (event : Event) :
    ∃ ops, run storeStep b.queues ops = (b.step event).queues ∧
      ∀ sid items, StoreOp.replace sid items ∈ ops → event = .replace sid items := by
  have hplain : ∀ {b'}, Driven b b' → ∃ ops, run storeStep b.queues ops = b'.queues ∧
      ∀ sid items, StoreOp.replace sid items ∈ ops → event = .replace sid items := by
    rintro b' ⟨ops, hrun, hplain⟩
    exact ⟨ops, hrun, fun sid items hmem => absurd hmem (hplain sid items)⟩
  cases event with
  | send => exact hplain handleComposerSend_driven
  | execute => exact hplain (launchSessionRun_same _ _).driven
  | activate => exact hplain handleQueueActivate_driven
  | edit => exact hplain dispatch_driven
  | delete => exact hplain dispatch_driven
  | reorder => exact hplain dispatch_driven
  | replace sid items =>
    refine ⟨[.replace sid items], rfl, fun sid' items' hmem => ?_⟩
    simp_all
  | stop => exact hplain handleStop_driven
  | complete sid runId kind awaiting =>
    apply hplain
    simp only [step, onComplete]
    split
    · exact .of_queues rfl
    · exact (onActive_streams _).same.driven.trans coordinate_driven
  | transportError => exact hplain (onActive_streams _).same.driven
  | cancelAnswer token answer =>
    apply hplain
    simp only [step]
    split
    · exact .of_queues rfl
    · exact onCancelAnswer_driven _ _
  | historyAnswer token answer freshRun =>
    apply hplain
    simp only [step]
    split
    · exact .of_queues rfl
    · exact onHistoryAnswer_driven _ _

/-- The lists that the server answers are proper ones. -/
def Listed (event : Event) : Prop := ∀ sid items, event = .replace sid items → ProperItems items

theorem ProperQueues.step (h : b.ProperQueues) (hlisted : Listed event) :
    (b.step event).ProperQueues := by
  obtain ⟨ops, hrun, hreplaced⟩ := step_driven b event
  intro sid
  rw [← hrun]
  exact properItems_kept ops (fun sid items hmem => hlisted sid items (hreplaced sid items hmem)) _ h sid

/-- Proper queues, and every claim with its run. -/
structure Settled (b : Browser) : Prop where
  proper : b.ProperQueues
  launched : b.claims = b.launches.filterMap Launch.claim
  texts : ∀ launch ∈ b.launches, ∀ prompt, launch.prompt = some prompt →
    launch.text = jsTrim prompt.text

theorem Settled.step (h : Settled b) (hlisted : Listed event) : Settled (b.step event) := by
  refine ⟨h.proper.step hlisted, ?_, ?_⟩
  · cases step_started b event with
    | nothing hlaunches hclaims => rw [hlaunches, hclaims h.proper, h.launched]
    | @run launch hlaunches hclaims htext hallowed =>
      rw [hlaunches, hclaims, h.launched, List.filterMap_append]
      cases hclaim : launch.claim <;> simp [hclaim]
  · cases step_started b event with
    | nothing hlaunches hclaims =>
      rw [hlaunches]
      exact h.texts
    | @run launch hlaunches hclaims htext hallowed =>
      rw [hlaunches]
      intro launch' hmem
      obtain hmem | hmem := List.mem_append.mp hmem
      · exact h.texts launch' hmem
      · rw [List.mem_singleton.mp hmem]
        exact htext

/-- Every prompt that is claimed is started as a run of its session, in the order of the claims and
with its own text: no claim is lost to a launcher that refuses. -/
theorem claims_launched (events : List Event)
    (hlisted : ∀ sid items, Event.replace sid items ∈ events → ProperItems items) :
    (run step {} events).claims = (run step {} events).launches.filterMap Launch.claim ∧
      ∀ launch ∈ (run step {} events).launches, ∀ prompt, launch.prompt = some prompt →
        launch.text = jsTrim prompt.text := by
  have hsettled : Settled (run step {} events) := by
    have hstep : ∀ b event, Settled b → Listed event → Settled (b.step event) :=
      fun _ _ h hlisted => h.step hlisted
    refine run_invariant hstep ⟨fun sid => ?_, rfl, by simp⟩ (allSteps_of_mem ?_)
    · rw [getSnapshot_empty]
      exact ⟨by simp [emptyPromptQueue], List.nodup_nil⟩
    · rintro event hmem _ sid items rfl
      exact hlisted sid items hmem
  exact ⟨hsettled.launched, hsettled.texts⟩

/-- A prompt is sent while a run is under way, which completes. -/
def drainedEvents : List Event :=
  [.send ['s'] ['a'] false ['1'] ['t'] ['r'], .send ['s'] ['b'] false ['2'] ['t'] ['q'],
    .complete ['s'] ['r'] .natural none, .historyAnswer 1 (some true) ['q']]

theorem claims_launched_drained :
    (run step {} drainedEvents).claims.map Prod.snd = [⟨['2'], 1, ['b'], ['t'], false⟩] ∧
      (run step {} drainedEvents).claims =
        (run step {} drainedEvents).launches.filterMap Launch.claim :=
  ⟨by decide, (claims_launched drainedEvents (by simp [drainedEvents])).1⟩

end

end Browser

end DeepseekScience.Frontend.PromptQueue
