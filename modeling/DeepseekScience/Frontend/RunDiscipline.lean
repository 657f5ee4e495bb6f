import DeepseekScience.Frontend.RunCoordinators

/-! The order that the coordinations of a browser keep: each holds the gate of its session, and what
is reserved in a queue belongs to one of them. How a coordination begins, goes on, claims and ends
without breaking it. -/
namespace DeepseekScience.Frontend.PromptQueue

namespace Browser

/-- The gate is held by the coordinations in flight, one a session, and a reservation belongs to
one of them, or is the one that is being made. -/
structure Orderly (making : Option (Text × PromptQueueItemRef)) (b : Browser) : Prop where
  held : ∀ c ∈ b.inFlight, (b.gate.active c.lease.sid).map GateEntry.lease = some c.lease
  owned : ∀ sid entry, b.gate.active sid = some entry →
    entry.lease.sid = sid ∧ ∃ c ∈ b.inFlight, c.lease = entry.lease
  tokens : (b.inFlight.map fun c => c.lease.token).Nodup
  bounded : ∀ c ∈ b.inFlight, c.lease.token ≤ b.gate.token
  reserved : ∀ sid ref, (b.queues.getSnapshot sid).steering = some ref →
    making = some (sid, ref) ∨ ∃ c ∈ b.inFlight, c.selected = some ref ∧ c.lease.sid = sid

variable {b b' : Browser} {making : Option (Text × PromptQueueItemRef)} {c next : Coordinator}
  {sid runId text freshRun : Text} {action : PromptQueueAction}

theorem orderly_start : Orderly none {} where
  held := by simp
  owned := by simp
  tokens := List.nodup_nil
  bounded := by simp
  reserved := by
    intro sid ref href
    rw [getSnapshot_empty] at href
    cases href

section
/-! What leaves gate, queues and coordinations alone. -/

/-- The two states differ in their streams, launches and claims only. -/
structure SameOrder (b b' : Browser) : Prop where
  gate : b'.gate = b.gate
  queues : b'.queues = b.queues
  inFlight : b'.inFlight = b.inFlight

theorem Orderly.same (h : Orderly making b) (hsame : SameOrder b b') : Orderly making b' := by
  obtain ⟨hgate, hqueues, hinFlight⟩ := hsame
  obtain ⟨held, owned, tokens, bounded, reserved⟩ := h
  rw [← hgate, ← hinFlight] at held owned bounded
  rw [← hinFlight] at tokens reserved
  rw [← hqueues] at reserved
  exact ⟨held, owned, tokens, bounded, reserved⟩

/-- The two states differ in their streams only. -/
def StreamsOnly (b b' : Browser) : Prop := b' = { b with streams := b'.streams }

theorem StreamsOnly.same (h : StreamsOnly b b') : SameOrder b b' := by
  rw [h]
  exact ⟨rfl, rfl, rfl⟩

theorem onActive_streams (f : Stream → Option Stream) :
    StreamsOnly b (b.onActive sid runId f) := by
  unfold onActive
  split <;> rfl

theorem beginStreamStop_streams (b : Browser) (sid : Text) (expected : Option Text) :
    StreamsOnly b (b.beginStreamStop sid expected).2 := by
  unfold beginStreamStop
  split
  · rfl
  · split <;> rfl

theorem finishCancelled_streams (lease : PromptRunLease) (cancelled : Bool) :
    StreamsOnly b (if cancelled then b.finishStreamStop lease.sid lease.ownerRunId else b) := by
  split
  · exact onActive_streams _
  · rfl

theorem failUncancelled_streams (lease : PromptRunLease) (cancelled : Bool) :
    StreamsOnly b (b.failUncancelled lease cancelled) := by
  unfold failUncancelled
  split
  · rfl
  · exact onActive_streams _

theorem retireUncancelled_streams (lease : PromptRunLease) (cancelled : Bool) :
    StreamsOnly b (b.retireUncancelled lease cancelled) := by
  unfold retireUncancelled
  split
  · rfl
  · exact onActive_streams _

theorem launchSessionRun_same (lease : Option PromptRunLease) (prompt : Option QueuedPrompt) :
    SameOrder b (b.launchSessionRun sid text freshRun lease prompt).2 := by
  unfold launchSessionRun
  simp only
  split <;> exact ⟨rfl, rfl, rfl⟩

end

section
/-! Operations on the queues. -/

/-- An operation that reserves nothing. -/
def NotReserving : PromptQueueAction → Prop
  | .beginSteering _ _ => False
  | _ => True

theorem steering_of_transition {s : PromptQueueState} {ref : PromptQueueItemRef}
    (hkind : NotReserving action) (h : (transitionPromptQueue s action).state.steering = some ref) :
    s.steering = some ref := by
  obtain hsame | haccepted := transition_cases s action
  · rwa [hsame] at h
  generalize transitionPromptQueue s action = t at haccepted h
  cases haccepted with
  | claim hitems hallowed => cases h
  | beginSteering hitem hfree => exact hkind.elim
  | clearSteering hheld => cases h
  | _ => exact h

/-- What is reserved behind a dispatch has been before. -/
theorem steering_of_dispatch (action : PromptQueueAction) {store : PromptQueueStore} {sid' : Text}
    {ref : PromptQueueItemRef} (hkind : NotReserving action)
    (h : ((store.dispatch sid action).2.getSnapshot sid').steering = some ref) :
    (store.getSnapshot sid').steering = some ref := by
  rw [getSnapshot_dispatch] at h
  split at h
  · rename_i hsid
    rw [hsid.1]
    exact steering_of_transition hkind h
  · exact h

theorem Orderly.queues {queues : PromptQueueStore} (h : Orderly making b)
    (hqueues : ∀ sid ref, (queues.getSnapshot sid).steering = some ref →
      (b.queues.getSnapshot sid).steering = some ref) :
    Orderly making { b with queues := queues } :=
  ⟨h.held, h.owned, h.tokens, h.bounded,
    fun sid ref href => h.reserved sid ref (hqueues sid ref href)⟩

theorem Orderly.dispatch (h : Orderly making b) (hkind : NotReserving action) :
    Orderly making (b.dispatch sid action).2 :=
  h.queues fun _ _ href => steering_of_dispatch action hkind href

/-- A reservation that was given up is no longer there. -/
theorem steering_clearSteering (selected : PromptQueueItemRef) :
    ((b.clearSteering sid selected).queues.getSnapshot sid).steering ≠ some selected := by
  intro h
  have hold : (b.queues.getSnapshot sid).steering = some selected :=
    steering_of_dispatch (.clearSteering selected.itemId selected.revision) trivial h
  unfold clearSteering Browser.dispatch at h
  simp only [getSnapshot_dispatch, true_and] at h
  split at h
  · simp [transitionPromptQueue, hold] at h
  · rename_i hsid
    unfold PromptQueueStore.getSnapshot at hold
    rw [if_neg hsid] at hold
    cases hold

theorem Orderly.clearSteering (h : Orderly making b) (selected : PromptQueueItemRef) :
    Orderly making (b.clearSteering sid selected) := h.dispatch trivial

/-- Giving up the reservation that is being made. -/
theorem Orderly.unmake {selected : PromptQueueItemRef} (h : Orderly (some (sid, selected)) b) :
    Orderly none (b.clearSteering sid selected) := by
  refine { h.clearSteering selected with reserved := ?_ }
  intro sid' ref href
  obtain hmaking | howned := (h.clearSteering selected).reserved sid' ref href
  · obtain ⟨rfl, rfl⟩ := Prod.mk.inj (Option.some.inj hmaking)
    exact absurd href (steering_clearSteering _)
  · exact Or.inr howned

theorem Orderly.replace (h : Orderly making b) (items : List QueuedPrompt) :
    Orderly making { b with queues := b.queues.replace sid items } := by
  refine h.queues fun sid' ref href => ?_
  unfold PromptQueueStore.replace at href
  split at href
  · rename_i hsid
    rw [getSnapshot_update hsid] at href
    split at href
    · rename_i hsame
      rw [hsame]
      exact (Option.filter_eq_some_iff.mp href).1
    · exact href
  · exact href

end

section
/-! How coordinations begin, go on and end. -/

theorem acquire_cases (gate : PromptRunGate) (sid runId : Text) (purpose : Purpose) :
    gate.acquire sid runId purpose = (none, gate) ∨
      ∃ lease : PromptRunLease, lease.sid = sid ∧ lease.token = gate.token + 1 ∧
        lease.ownerRunId = runId ∧ gate.active sid = none ∧
        gate.acquire sid runId purpose =
          (some lease, ⟨Function.update gate.active sid (some ⟨lease, false⟩), gate.token + 1⟩) := by
  unfold PromptRunGate.acquire
  split
  · exact Or.inl rfl
  · rename_i hfree
    right
    refine ⟨⟨sid, gate.token + 1, runId, purpose⟩, rfl, rfl, rfl, ?_, rfl⟩
    simpa using fun h => hfree (Or.inr (Or.inr h))

/-- A coordination that has just got its lease. -/
theorem Orderly.begin (h : Orderly making b) (making' : Option (Text × PromptQueueItemRef))
    (hfree : b.gate.active c.lease.sid = none) (htoken : c.lease.token = b.gate.token + 1)
    (hmaking : ∀ sid ref, making = some (sid, ref) →
      making' = some (sid, ref) ∨ c.selected = some ref ∧ c.lease.sid = sid) :
    Orderly making'
      { b with
        gate := ⟨Function.update b.gate.active c.lease.sid (some ⟨c.lease, false⟩), b.gate.token + 1⟩
        inFlight := b.inFlight ++ [c] } := by
  have hother : ∀ c' ∈ b.inFlight, c'.lease.sid ≠ c.lease.sid := by
    intro c' hc' hsame
    have hheld := h.held c' hc'
    rw [hsame, hfree] at hheld
    cases hheld
  constructor
  · intro c' hc'
    simp only [List.mem_append, List.mem_singleton] at hc'
    obtain hc' | rfl := hc'
    · simp only [Function.update_of_ne (hother c' hc')]
      exact h.held c' hc'
    · simp
  · intro sid entry hentry
    by_cases hsid : sid = c.lease.sid
    · subst hsid
      obtain rfl : (⟨c.lease, false⟩ : GateEntry) = entry := by simpa using hentry
      exact ⟨rfl, c, by simp, rfl⟩
    · simp only [Function.update_of_ne hsid] at hentry
      obtain ⟨hentrySid, c', hc', hlease⟩ := h.owned sid entry hentry
      exact ⟨hentrySid, c', List.mem_append_left _ hc', hlease⟩
  · rw [List.map_append, List.nodup_append]
    refine ⟨h.tokens, by simp, ?_⟩
    intro token hmem token' hmem' heq
    obtain ⟨c', hc', rfl⟩ := List.mem_map.mp hmem
    have hbound := h.bounded c' hc'
    have hnew : token' = c.lease.token := by simpa using hmem'
    omega
  · intro c' hc'
    simp only [List.mem_append, List.mem_singleton] at hc'
    obtain hc' | rfl := hc'
    · have hbound := h.bounded c' hc'
      simp only
      omega
    · exact htoken.le
  · intro sid ref href
    obtain hnow | ⟨c', hc', hselected, hsid⟩ := h.reserved sid ref href
    · obtain hstill | hmade := hmaking sid ref hnow
      · exact Or.inl hstill
      · exact Or.inr ⟨c, by simp, hmade⟩
    · exact Or.inr ⟨c', List.mem_append_left _ hc', hselected, hsid⟩

theorem Orderly.eq_of_token {c' : Coordinator} (h : Orderly making b) (hc : c ∈ b.inFlight)
    (hc' : c' ∈ b.inFlight) (htoken : c'.lease.token = c.lease.token) : c' = c :=
  List.inj_on_of_nodup_map h.tokens hc' hc htoken

theorem Orderly.eq_of_sid {c' : Coordinator} (h : Orderly making b) (hc : c ∈ b.inFlight)
    (hc' : c' ∈ b.inFlight) (hsid : c'.lease.sid = c.lease.sid) : c' = c := by
  have hheld := h.held c' hc'
  rw [hsid, h.held c hc] at hheld
  exact h.eq_of_token hc hc' (congrArg PromptRunLease.token (Option.some.inj hheld)).symm

theorem Orderly.isCurrent (h : Orderly making b) (hc : c ∈ b.inFlight) :
    b.gate.isCurrent c.lease = true := by
  obtain ⟨entry, hentry, hlease⟩ := Option.map_eq_some_iff.mp (h.held c hc)
  simp [PromptRunGate.isCurrent, hentry, hlease]

/-- A coordination ends when what it had reserved is claimed or given up. -/
theorem Orderly.settle (h : Orderly making b) (hc : c ∈ b.inFlight)
    (hgiven : ∀ ref, c.selected = some ref →
      (b.queues.getSnapshot c.lease.sid).steering ≠ some ref) :
    Orderly making (b.settle c.lease) := by
  have hrelease : (b.gate.release c.lease).active =
      Function.update b.gate.active c.lease.sid none := by
    simp [PromptRunGate.release, h.isCurrent hc]
  have htoken : (b.gate.release c.lease).token = b.gate.token := by
    simp [PromptRunGate.release, h.isCurrent hc]
  have hrest : ∀ c', c' ∈ (b.settle c.lease).inFlight ↔
      c' ∈ b.inFlight ∧ c'.lease.token ≠ c.lease.token := by
    intro c'
    simp [Browser.settle]
  have hsub : (b.settle c.lease).inFlight.Sublist b.inFlight := List.filter_sublist
  constructor
  · intro c' hc'
    obtain ⟨hmem, hne⟩ := (hrest c').mp hc'
    have hheld := h.held c' hmem
    have hsid : c'.lease.sid ≠ c.lease.sid := by
      intro hsame
      rw [hsame, h.held c hc] at hheld
      exact hne (congrArg PromptRunLease.token (Option.some.inj hheld)).symm
    simp only [Browser.settle, hrelease, Function.update_of_ne hsid]
    exact hheld
  · intro sid entry hentry
    simp only [Browser.settle, hrelease] at hentry
    by_cases hsid : sid = c.lease.sid
    · simp [hsid] at hentry
    · rw [Function.update_of_ne hsid] at hentry
      obtain ⟨hentrySid, c', hc', hlease⟩ := h.owned sid entry hentry
      refine ⟨hentrySid, c', (hrest c').mpr ⟨hc', fun hsame => hsid ?_⟩, hlease⟩
      rw [← hentrySid, ← hlease, h.eq_of_token hc hc' hsame]
  · exact h.tokens.sublist (hsub.map _)
  · intro c' hc'
    have hbound := h.bounded c' (hsub.subset hc')
    simpa [Browser.settle, htoken] using hbound
  · intro sid ref href
    obtain hnow | ⟨c', hc', hselected, hsid⟩ := h.reserved sid ref href
    · exact Or.inl hnow
    · refine Or.inr ⟨c', (hrest c').mpr ⟨hc', fun hsame => ?_⟩, hselected, hsid⟩
      obtain rfl := h.eq_of_token hc hc' hsame
      subst hsid
      exact hgiven ref hselected href

/-- A coordination goes on under the same lease, with the same reservation. -/
theorem Orderly.advance (h : Orderly making b) (hc : c ∈ b.inFlight) (hlease : next.lease = c.lease)
    (hselected : next.selected = c.selected) : Orderly making (b.advance next) := by
  have hmem : ∀ c' ∈ (b.advance next).inFlight,
      ∃ old ∈ b.inFlight, old.lease = c'.lease ∧ old.selected = c'.selected := by
    intro c' hc'
    obtain ⟨old, hold, hnew⟩ := List.mem_map.mp hc'
    split at hnew
    · obtain rfl := hnew
      exact ⟨c, hc, hlease.symm, hselected.symm⟩
    · obtain rfl := hnew
      exact ⟨old, hold, rfl, rfl⟩
  have hkeeps : ∀ old ∈ b.inFlight,
      ∃ c' ∈ (b.advance next).inFlight, c'.lease = old.lease ∧ c'.selected = old.selected := by
    intro old hold
    refine ⟨_, List.mem_map_of_mem hold, ?_⟩
    split
    · rename_i htoken
      rw [hlease] at htoken
      obtain rfl := h.eq_of_token hc hold htoken
      exact ⟨hlease, hselected⟩
    · exact ⟨rfl, rfl⟩
  have htokens : (b.advance next).inFlight.map (fun c => c.lease.token) =
      b.inFlight.map fun c => c.lease.token := by
    simp only [Browser.advance, List.map_map]
    refine List.map_congr_left fun old hold => ?_
    simp only [Function.comp_apply]
    split
    · rename_i htoken
      exact htoken.symm
    · rfl
  constructor
  · intro c' hc'
    obtain ⟨old, hold, hsame, -⟩ := hmem c' hc'
    rw [← hsame]
    exact h.held old hold
  · intro sid entry hentry
    obtain ⟨hsid, old, hold, hlease⟩ := h.owned sid entry hentry
    obtain ⟨c', hc', hsame, -⟩ := hkeeps old hold
    exact ⟨hsid, c', hc', hsame.trans hlease⟩
  · rw [htokens]
    exact h.tokens
  · intro c' hc'
    obtain ⟨old, hold, hsame, -⟩ := hmem c' hc'
    rw [← hsame]
    exact h.bounded old hold
  · intro sid ref href
    obtain hnow | ⟨old, hold, hselected, hsid⟩ := h.reserved sid ref href
    · exact Or.inl hnow
    · obtain ⟨c', hc', hsame, hsameSelected⟩ := hkeeps old hold
      exact Or.inr ⟨c', hc', hsameSelected.trans hselected, by rw [hsame]; exact hsid⟩

end

section
/-! Claims. -/

/-- The state behind a claim, before the run of the prompt is started. -/
def afterClaim (b : Browser) (sid : Text) (action : PromptQueueAction) (prompt : QueuedPrompt) :
    Browser :=
  { (b.dispatch sid action).2 with claims := b.claims ++ [(sid, prompt)] }

/-- A claim that finds nothing changes the queue only. Otherwise the launcher has the last word. -/
theorem claimAndLaunch_cases (b : Browser) (sid : Text) (action : PromptQueueAction)
    (freshRun : Text) (lease : Option PromptRunLease) :
    (b.dispatch sid action).1 = none ∧
        b.claimAndLaunch sid action freshRun lease = (none, (b.dispatch sid action).2) ∨
      ∃ prompt, (b.dispatch sid action).1 = some prompt ∧
        b.claimAndLaunch sid action freshRun lease =
          let launch := (b.afterClaim sid action prompt).launchSessionRun sid prompt.text freshRun
            lease (some prompt)
          (if launch.1 then some prompt else none, launch.2) := by
  unfold Browser.claimAndLaunch
  split
  · rename_i heq
    simp [heq]
  · rename_i prompt claimed heq
    right
    refine ⟨prompt, by rw [heq], ?_⟩
    have hclaims : claimed.claims = b.claims := by
      have hsame := congrArg (fun result => result.2.claims) heq
      exact hsame.symm
    simp only [afterClaim, heq, hclaims]
    split <;> rename_i heq' <;> simp [heq']

theorem afterClaim_same (prompt : QueuedPrompt) :
    SameOrder (b.dispatch sid action).2 (b.afterClaim sid action prompt) := ⟨rfl, rfl, rfl⟩

theorem Orderly.claimAndLaunch {lease : Option PromptRunLease} (h : Orderly making b)
    (hkind : NotReserving action) :
    Orderly making (b.claimAndLaunch sid action freshRun lease).2 := by
  have hdispatch : Orderly making (b.dispatch sid action).2 := h.dispatch hkind
  obtain ⟨-, hnone⟩ | ⟨prompt, -, hsome⟩ := claimAndLaunch_cases b sid action freshRun lease
  · rwa [hnone]
  · rw [hsome]
    exact (hdispatch.same (afterClaim_same prompt)).same (launchSessionRun_same _ _)

/-- A claim touches neither the gate nor the coordinations. -/
theorem claimAndLaunch_kept (lease : Option PromptRunLease) :
    (b.claimAndLaunch sid action freshRun lease).2.gate = b.gate ∧
      (b.claimAndLaunch sid action freshRun lease).2.inFlight = b.inFlight := by
  obtain ⟨-, hnone⟩ | ⟨prompt, -, hsome⟩ := claimAndLaunch_cases b sid action freshRun lease
  · rw [hnone]
    exact ⟨rfl, rfl⟩
  · rw [hsome]
    let claimed := b.afterClaim sid action prompt
    have hsame : SameOrder claimed
        (claimed.launchSessionRun sid prompt.text freshRun lease (some prompt)).2 :=
      launchSessionRun_same lease (some prompt)
    exact ⟨hsame.gate, hsame.inFlight⟩

theorem claimed_cases {s : PromptQueueState} {item : QueuedPrompt}
    (h : (transitionPromptQueue s action).claimed = some item) :
    (transitionPromptQueue s action).state.steering = none ∧ item ∈ s.items := by
  obtain hsame | haccepted := transition_cases s action
  · rw [hsame] at h
    cases h
  generalize transitionPromptQueue s action = t at haccepted h
  cases haccepted with
  | claim hitems hallowed =>
    cases h
    simp [hitems]
  | _ => cases h

/-- Who claims a prompt has found it in the queue of a valid session, where nothing is reserved
behind the claim. -/
theorem dispatch_claimed {store : PromptQueueStore} {prompt : QueuedPrompt}
    (h : (store.dispatch sid action).1 = some prompt) :
    validSid sid = true ∧ prompt ∈ (store.getSnapshot sid).items ∧
      ((store.dispatch sid action).2.getSnapshot sid).steering = none := by
  have hsid : validSid sid = true := by
    by_contra hinvalid
    rw [PromptQueueStore.dispatch, if_neg hinvalid] at h
    cases h
  have hcases := h
  rw [PromptQueueStore.dispatch, if_pos hsid] at hcases
  obtain ⟨hnone, hmem⟩ := claimed_cases hcases
  refine ⟨hsid, hmem, ?_⟩
  rw [getSnapshot_dispatch, if_pos ⟨rfl, hsid⟩]
  exact hnone

theorem steering_of_claimAndLaunch {lease : Option PromptRunLease} {prompt : QueuedPrompt}
    (h : (b.claimAndLaunch sid action freshRun lease).1 = some prompt) :
    ((b.claimAndLaunch sid action freshRun lease).2.queues.getSnapshot sid).steering = none := by
  obtain ⟨-, hnone⟩ | ⟨claimed, hclaimed, hsome⟩ := claimAndLaunch_cases b sid action freshRun lease
  · rw [hnone] at h
    cases h
  · rw [hsome]
    simp only [(launchSessionRun_same _ _).queues]
    exact (dispatch_claimed hclaimed).2.2

end

end Browser

end DeepseekScience.Frontend.PromptQueue
