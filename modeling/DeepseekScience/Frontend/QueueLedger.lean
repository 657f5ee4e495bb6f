import DeepseekScience.Frontend.QueueRuns
import DeepseekScience.Lib.Ranking

/-! What becomes of the prompts of one queue: each of them is claimed once, deleted or still
queued, a claim hands out what was written last, a reserved prompt waits untouched for its owner,
and of two prompts the one in front goes first unless a reorder says otherwise. -/
namespace DeepseekScience.Frontend.PromptQueue

open Runs

/-- A queue, and what has been done to it. -/
structure Ledger where
  queue : PromptQueueState := emptyPromptQueue
  enqueued : List Text := []
  claimed : List QueuedPrompt := []
  deleted : List Text := []
  /-- The text that was written last under an identity. -/
  written : Text → Option Text := fun _ => none

namespace PromptQueueAction

/-- The identity that is enqueued, if the operation is accepted. -/
def enqueues : PromptQueueAction → List Text
  | .enqueue item => [item.id]
  | _ => []

def deletes : PromptQueueAction → List Text
  | .delete itemId _ => [itemId]
  | _ => []

/-- The texts, with the one that an accepted operation writes. -/
def writes (written : Text → Option Text) : PromptQueueAction → Text → Option Text
  | .enqueue item => Function.update written item.id (some (jsTrim item.text))
  | .edit itemId _ text => Function.update written itemId (some (jsTrim text))
  | _ => written

end PromptQueueAction

def Ledger.step (l : Ledger) (action : PromptQueueAction) : Ledger :=
  let t := transitionPromptQueue l.queue action
  { queue := t.state
    enqueued := l.enqueued ++ if t.changed then action.enqueues else []
    claimed := l.claimed ++ t.claimed.toList
    deleted := l.deleted ++ if t.changed then action.deletes else []
    written := if t.changed then action.writes l.written else l.written }

/-- The identities of the queued prompts, from the front. -/
def PromptQueueState.ids (s : PromptQueueState) : List Text := s.items.map QueuedPrompt.id

/-- What was enqueued has been claimed, deleted or is queued, each as often as it was enqueued,
and what is queued is what was written last. -/
structure Accounted (l : Ledger) : Prop where
  proper : ProperItems l.queue.items
  balance : l.enqueued.Perm (l.claimed.map QueuedPrompt.id ++ l.deleted ++ l.queue.ids)
  written : ∀ item ∈ l.queue.items, l.written item.id = some item.text

/-- A claim takes a queued prompt out of the queue, with the text that was written last. -/
def ClaimsWritten (l : Ledger) (action : PromptQueueAction) : Prop :=
  ∀ item, (transitionPromptQueue l.queue action).claimed = some item →
    item ∈ l.queue.items ∧ l.written item.id = some item.text ∧
      item.id ∉ (transitionPromptQueue l.queue action).state.ids

variable {s : PromptQueueState} {action : PromptQueueAction} {t : PromptQueueTransition}
  {item : QueuedPrompt} {l : Ledger}

theorem notMem_of_distinct {front back : List QueuedPrompt}
    (h : ((front ++ item :: back).map QueuedPrompt.id).Nodup) :
    item.id ∉ (front ++ back).map QueuedPrompt.id := by
  have hperm : ((front ++ item :: back).map QueuedPrompt.id).Perm
      (item.id :: (front ++ back).map QueuedPrompt.id) := by simp
  exact (List.nodup_cons.mp (hperm.nodup_iff.mp h)).1

theorem ids_perm {front back : List QueuedPrompt} (hitems : s.items = front ++ item :: back) :
    s.ids.Perm (item.id :: (front ++ back).map QueuedPrompt.id) := by
  simp [PromptQueueState.ids, hitems]

theorem Ledger.step_of_unchanged (h : transitionPromptQueue l.queue action = unchanged l.queue) :
    l.step action = l := by
  simp [Ledger.step, h, unchanged]

/-- The text written last, for the prompts that an edit or a new prompt leaves alone. -/
theorem written_of_ne {written : Text → Option Text} {id : Text} {text : Text}
    (hne : item.id ≠ id) (h : written item.id = some item.text) :
    Function.update written id (some text) item.id = some item.text := by
  rw [Function.update_of_ne hne]
  exact h

theorem Accounted.enqueue (h : Accounted l) (hitem : canEnqueue l.queue item = true) :
    Accounted (l.step (.enqueue item)) := by
  have haccepted := transition_properItems h.proper (.enqueue item)
  have hbalance := h.balance
  have hfresh := (canEnqueue_iff.mp hitem).2.2.2.2.2
  have ht : transitionPromptQueue l.queue (.enqueue item) =
      { state :=
          { l.queue with
            items := l.queue.items ++ [{ item with text := jsTrim item.text }] } } := by
    simp [transitionPromptQueue, hitem]
  refine ⟨haccepted, ?_, ?_⟩
  · simp only [Ledger.step, ht, PromptQueueState.ids, PromptQueueAction.enqueues,
      PromptQueueAction.deletes, ↓reduceIte, Option.toList_none, List.append_nil, List.map_append,
      List.map_cons, List.map_nil] at hbalance ⊢
    rw [← List.append_assoc]
    exact hbalance.append_right [item.id]
  · intro other hother
    simp only [Ledger.step, ht, ↓reduceIte, PromptQueueAction.writes] at hother ⊢
    obtain hother | hother := List.mem_append.mp hother
    · refine written_of_ne (fun hsame => hfresh ?_) (h.written other hother)
      exact List.mem_map.mpr ⟨other, hother, hsame⟩
    · rw [List.mem_singleton.mp hother]
      exact Function.update_self ..

theorem Accounted.edit {front back : List QueuedPrompt} {text : Text} (h : Accounted l)
    (hitems : l.queue.items = front ++ item :: back)
    (ht : transitionPromptQueue l.queue (.edit item.id item.revision text) =
      { state :=
          { l.queue with
            items := front ++
              { item with text := jsTrim text, revision := item.revision + 1 } :: back } }) :
    Accounted (l.step (.edit item.id item.revision text)) := by
  have haccepted := transition_properItems h.proper (.edit item.id item.revision text)
  have hbalance := h.balance
  have hdistinct := h.proper.distinct
  rw [hitems] at hdistinct
  refine ⟨haccepted, ?_, ?_⟩
  · simpa [Ledger.step, ht, PromptQueueState.ids, hitems, PromptQueueAction.enqueues,
      PromptQueueAction.deletes] using hbalance
  · intro other hother
    simp only [Ledger.step, ht, ↓reduceIte, PromptQueueAction.writes, List.mem_append,
      List.mem_cons] at hother ⊢
    have hkept : other ∈ front ++ back → Function.update l.written item.id (some (jsTrim text))
        other.id = some other.text := by
      intro hmem
      refine written_of_ne (fun hsame => notMem_of_distinct hdistinct ?_) ?_
      · exact List.mem_map.mpr ⟨other, hmem, hsame⟩
      · refine h.written other ?_
        rw [hitems]
        simp only [List.mem_append, List.mem_cons] at hmem ⊢
        tauto
    obtain hother | rfl | hother := hother
    · exact hkept (List.mem_append_left _ hother)
    · exact Function.update_self ..
    · exact hkept (List.mem_append_right _ hother)

/-- A prompt that leaves the queue is entered where it goes. -/
theorem Accounted.take {front back : List QueuedPrompt} {l' : Ledger} (h : Accounted l)
    (hitems : l.queue.items = front ++ item :: back) (hleft : l'.queue.items = front ++ back)
    (henqueued : l'.enqueued = l.enqueued) (hwritten : l'.written = l.written)
    (hgone : (l'.claimed.map QueuedPrompt.id ++ l'.deleted).Perm
      (item.id :: (l.claimed.map QueuedPrompt.id ++ l.deleted))) : Accounted l' := by
  have hsub : (front ++ back).Sublist l.queue.items := by simp [hitems]
  refine ⟨?_, ?_, ?_⟩
  · rw [hleft]
    exact ⟨fun other hother => h.proper.proper other (hsub.subset hother),
      h.proper.distinct.sublist (hsub.map _)⟩
  · rw [henqueued, PromptQueueState.ids, hleft]
    calc l.enqueued.Perm (l.claimed.map QueuedPrompt.id ++ l.deleted ++ l.queue.ids) := h.balance
      List.Perm _ (l.claimed.map QueuedPrompt.id ++ l.deleted ++
          item.id :: (front ++ back).map QueuedPrompt.id) := (ids_perm hitems).append_left _
      List.Perm _ (item.id :: (l.claimed.map QueuedPrompt.id ++ l.deleted) ++
          (front ++ back).map QueuedPrompt.id) := List.perm_middle
      List.Perm _ (l'.claimed.map QueuedPrompt.id ++ l'.deleted ++
          (front ++ back).map QueuedPrompt.id) := hgone.symm.append_right _
  · intro other hother
    rw [hwritten]
    rw [hleft] at hother
    exact h.written other (hsub.subset hother)

/-- An operation that leaves the prompts as they are, up to their order. -/
theorem Accounted.arrange (h : Accounted l) (hitems : t.state.items.Perm l.queue.items)
    (hclaimed : t.claimed = none) (henqueues : action.enqueues = []) (hdeletes : action.deletes = [])
    (hwrites : action.writes l.written = l.written) (ht : transitionPromptQueue l.queue action = t) :
    Accounted (l.step action) := by
  have haccepted := transition_properItems h.proper action
  refine ⟨haccepted, ?_, ?_⟩
  · simp only [Ledger.step, ht, hclaimed, henqueues, hdeletes, ite_self, List.append_nil,
      Option.toList_none, PromptQueueState.ids]
    exact h.balance.trans ((hitems.map _).symm.append_left _)
  · intro other hother
    simp only [Ledger.step, ht, hwrites, ite_self] at hother ⊢
    exact h.written other (hitems.subset hother)

theorem Accounted.step (h : Accounted l) (action : PromptQueueAction) :
    Accounted (l.step action) := by
  obtain hsame | haccepted := transition_cases l.queue action
  · rw [Ledger.step_of_unchanged hsame]
    exact h
  generalize ht : transitionPromptQueue l.queue action = t at haccepted
  cases haccepted with
  | enqueue hitem => exact h.enqueue hitem
  | edit hitems hfree htext hsafe => exact h.edit hitems ht
  | delete hitems hfree =>
    refine h.take hitems ?_ ?_ ?_ ?_
    · simp [Ledger.step, ht]
    · simp [Ledger.step, ht, PromptQueueAction.enqueues]
    · simp [Ledger.step, ht, PromptQueueAction.writes]
    · simp only [Ledger.step, ht, PromptQueueAction.deletes, ↓reduceIte, Option.toList_none,
        List.append_nil, ← List.append_assoc]
      exact List.perm_append_singleton _ _
  | reorder hitems hrest hplace hfree =>
    exact h.arrange (perm_of_reorder hitems hrest) rfl rfl rfl rfl ht
  | claim hitems hallowed =>
    have hwrites : action.writes l.written = l.written ∧ action.enqueues = [] ∧
        action.deletes = [] := by
      obtain ⟨rfl, -, -⟩ | ⟨rfl, -⟩ := hallowed <;> exact ⟨rfl, rfl, rfl⟩
    refine h.take hitems ?_ ?_ ?_ ?_
    · simp [Ledger.step, ht]
    · simp [Ledger.step, hwrites.2.1]
    · simp [Ledger.step, hwrites.1]
    · simp only [Ledger.step, ht, hwrites.2.2, ite_self, List.append_nil, Option.toList_some,
        List.map_append, List.map_cons, List.map_nil, List.append_assoc, List.singleton_append]
      exact List.perm_middle
  | beginSteering hitem hfree => exact h.arrange (List.Perm.refl _) rfl rfl rfl rfl ht
  | clearSteering hheld => exact h.arrange (List.Perm.refl _) rfl rfl rfl rfl ht

theorem Accounted.claimsWritten (h : Accounted l) (action : PromptQueueAction) :
    ClaimsWritten l action := by
  intro item hclaimed
  obtain hsame | haccepted := transition_cases l.queue action
  · rw [hsame] at hclaimed
    cases hclaimed
  generalize ht : transitionPromptQueue l.queue action = t at haccepted hclaimed
  cases haccepted with
  | @claim action front back taken hitems hallowed =>
    obtain rfl : taken = item := Option.some.inj hclaimed
    have hdistinct := h.proper.distinct
    have hitem : taken ∈ l.queue.items := by simp [hitems]
    rw [hitems] at hdistinct
    exact ⟨hitem, h.written taken hitem, notMem_of_distinct hdistinct⟩
  | _ => cases hclaimed

/-- In every run of a queue each accepted prompt is claimed, deleted or still queued, once for
each time it was enqueued, and every claim takes out a queued prompt, with the text that was
written last under its identity. -/
theorem prompts_accounted (actions : List PromptQueueAction) :
    Accounted (run Ledger.step {} actions) ∧ AllSteps Ledger.step ClaimsWritten {} actions := by
  have hstart : Accounted {} := by
    refine ⟨⟨by simp [emptyPromptQueue], List.nodup_nil⟩, ?_, by simp [emptyPromptQueue]⟩
    exact List.Perm.refl _
  have hstep : ∀ l action, Accounted l → True → Accounted (l.step action) :=
    fun l action h _ => h.step action
  exact ⟨run_invariant hstep hstart allSteps_true,
    allSteps_of_guarded hstep (fun l action h _ => h.claimsWritten action) hstart allSteps_true⟩

section
/-! The reservation. -/

/-- One operation on a queue. -/
def queueStep (s : PromptQueueState) (action : PromptQueueAction) : PromptQueueState :=
  (transitionPromptQueue s action).state

/-- The prompt is reserved, and stands in a proper queue. -/
structure Holds (item : QueuedPrompt) (s : PromptQueueState) : Prop where
  proper : ProperItems s.items
  queued : item ∈ s.items
  held : s.steering = some item.ref

/-- The operations by which the owner of a reservation ends it. -/
def EndsReservation (item : QueuedPrompt) (action : PromptQueueAction) : Prop :=
  action = .claimItem item.id item.revision ∨ action = .clearSteering item.id item.revision

theorem Holds.unclaimed (h : Holds item s) (hkeeps : ¬ EndsReservation item action) :
    (transitionPromptQueue s action).claimed = none ∧
      (transitionPromptQueue s action).state.steering = some item.ref := by
  obtain hsame | haccepted := transition_cases s action
  · rw [hsame]
    exact ⟨rfl, h.held⟩
  generalize transitionPromptQueue s action = t at haccepted
  cases haccepted with
  | @claim action front back taken hitems hallowed =>
    obtain ⟨-, -, hfree⟩ | ⟨rfl, howned⟩ := hallowed
    · rw [h.held] at hfree
      cases hfree
    · have hsame : item.ref = taken.ref := by simpa [h.held] using howned
      obtain ⟨hid, hrevision⟩ := PromptQueueItemRef.mk.inj hsame
      exact absurd (Or.inl (by rw [hid, hrevision])) hkeeps
  | beginSteering hitem hfree =>
    rw [h.held] at hfree
    cases hfree
  | @clearSteering held hheld =>
    obtain rfl : item.ref = held := Option.some.inj (h.held.symm.trans hheld)
    exact absurd (Or.inr rfl) hkeeps
  | _ => exact ⟨rfl, h.held⟩

theorem Holds.step (h : Holds item s) (hkeeps : ¬ EndsReservation item action) :
    Holds item (queueStep s action) := by
  obtain ⟨hunclaimed, hheld⟩ := h.unclaimed hkeeps
  refine ⟨transition_properItems h.proper action, ?_, hheld⟩
  obtain hsame | haccepted := transition_cases s action
  · rw [queueStep, hsame]
    exact h.queued
  · exact haccepted.keeps_held h.held h.queued hunclaimed

/-- The owner of a reservation gets what it has reserved. -/
theorem Holds.claim (h : Holds item s) :
    (transitionPromptQueue s (.claimItem item.id item.revision)).claimed = some item := by
  have hsome : (s.items.findIdx? (sameItemRef item.ref)).isSome := by
    rw [List.findIdx?_isSome]
    exact List.any_eq_true.mpr ⟨item, h.queued, by simp [sameItemRef]⟩
  obtain ⟨index, hindex⟩ := Option.isSome_iff_exists.mp hsome
  obtain ⟨front, taken, back, hitems, rfl, htaken⟩ := split_of_findIdx? hindex
  have href : taken.ref = item.ref := by simpa [sameItemRef] using htaken
  have hmem : taken ∈ s.items := by simp [hitems]
  have hsame : taken = item :=
    List.inj_on_of_nodup_map h.proper.distinct hmem h.queued (PromptQueueItemRef.mk.inj href).1
  have hget : s.items[front.length]? = some item := by simp [hitems, hsame]
  have hnonempty : s.items ≠ [] := List.ne_nil_of_mem h.queued
  have hwanted : (⟨item.id, item.revision⟩ : PromptQueueItemRef) = item.ref := rfl
  simp [transitionPromptQueue, transitionClaim, hnonempty, h.held, hwanted, hindex, hget]

/-- From when a prompt is reserved, and until its owner claims it or gives it up, nothing at all is
claimed from its queue, and the owner can claim exactly what it has reserved. -/
theorem reservation_respected (h : Holds item s) (actions : List PromptQueueAction)
    (hkeeps : ∀ action ∈ actions, ¬ EndsReservation item action) :
    AllSteps queueStep (fun s action => (transitionPromptQueue s action).claimed = none) s actions ∧
      (transitionPromptQueue (run queueStep s actions)
        (.claimItem item.id item.revision)).claimed = some item := by
  have hguard : AllSteps queueStep (fun _ action => ¬ EndsReservation item action) s actions :=
    allSteps_of_mem fun action haction _ => hkeeps action haction
  have hstep : ∀ s action, Holds item s → ¬ EndsReservation item action →
      Holds item (queueStep s action) := fun s action h hkeeps => h.step hkeeps
  exact ⟨allSteps_of_guarded hstep (fun s action h hkeeps => (h.unclaimed hkeeps).1) h hguard,
    (run_invariant hstep h hguard).claim⟩

end

section
/-! A queue of two prompts, for runs on it. -/

def typedPrompt (id text : String) : QueuedPrompt where
  id := id.toList
  revision := 1
  text := text.toList
  createdAt := "10:00".toList
  requestedPlanMode := false

def twoPrompts : PromptQueueState where
  items := [typedPrompt "one" "first", typedPrompt "two" "second"]
  steering := some ⟨"two".toList, 1⟩

theorem twoPrompts_proper : ProperItems twoPrompts.items := by
  constructor
  · intro item hitem
    obtain rfl | rfl : item = typedPrompt "one" "first" ∨ item = typedPrompt "two" "second" := by
      simpa [twoPrompts] using hitem
    · constructor <;> decide
    · constructor <;> decide
  · decide

theorem reservation_respected_twoPrompts :
    AllSteps queueStep (fun s action => (transitionPromptQueue s action).claimed = none) twoPrompts
        [.claimNext, .delete "two".toList 1, .delete "one".toList 1] ∧
      (transitionPromptQueue (run queueStep twoPrompts
          [.claimNext, .delete "two".toList 1, .delete "one".toList 1])
        (.claimItem "two".toList 1)).claimed = some (typedPrompt "two" "second") := by
  have hholds : Holds (typedPrompt "two" "second") twoPrompts :=
    ⟨twoPrompts_proper, by decide, by decide⟩
  refine reservation_respected hholds _ ?_
  simp [EndsReservation]

end

section
/-! The order. -/

variable {a b : Text}

/-- The operation neither enqueues one of the two prompts nor moves it. -/
def LeavesPlaces (a b : Text) : PromptQueueAction → Prop
  | .enqueue item => item.id ≠ a ∧ item.id ≠ b
  | .reorder itemId _ => itemId ≠ a ∧ itemId ≠ b
  | _ => True

/-- As long as both prompts are queued, the first stands in front of the second. -/
structure InFront (a b : Text) (s : PromptQueueState) : Prop where
  proper : ProperItems s.items
  front : a ∈ s.ids → b ∈ s.ids → [a, b].Sublist s.ids

theorem pair_sublist_of_sublist {ids ids' : List Text} (hids : ids.Nodup) (hsub : ids'.Sublist ids)
    (hpair : [a, b].Sublist ids) (ha : a ∈ ids') (hb : b ∈ ids') : [a, b].Sublist ids' := by
  have hne : a ≠ b := by
    have hnodup := hids.sublist hpair
    simpa using hnodup
  obtain hfront | hback := Ranking.pair_or ha hb hne
  · exact hfront
  · exact absurd (hback.trans hsub) (Ranking.not_pair_sublist hids hpair)

/-- Taking out a third prompt and putting it back elsewhere does not exchange two prompts. -/
theorem pair_sublist_of_move {front back front' back' : List QueuedPrompt} {moved : QueuedPrompt}
    (hrest : front ++ back = front' ++ back') (ha : moved.id ≠ a) (hb : moved.id ≠ b)
    (hpair : [a, b].Sublist ((front ++ moved :: back).map QueuedPrompt.id)) :
    [a, b].Sublist ((front' ++ moved :: back').map QueuedPrompt.id) := by
  have hothers := hpair.filter (· ≠ moved.id)
  have hsame : ((front ++ moved :: back).map QueuedPrompt.id).filter (· ≠ moved.id) =
      ((front ++ back).map QueuedPrompt.id).filter (· ≠ moved.id) := by simp
  rw [hsame, hrest] at hothers
  have hkept : [a, b].filter (· ≠ moved.id) = [a, b] := by simp [ha.symm, hb.symm]
  rw [hkept] at hothers
  have hback : ((front' ++ back').map QueuedPrompt.id).Sublist
      ((front' ++ moved :: back').map QueuedPrompt.id) := by simp
  exact (hothers.trans List.filter_sublist).trans hback

theorem InFront.step (h : InFront a b s) (hplaces : LeavesPlaces a b action) :
    InFront a b (queueStep s action) := by
  refine ⟨transition_properItems h.proper action, ?_⟩
  have hfront := h.front
  have hids := h.proper.distinct
  obtain hsame | haccepted := transition_cases s action
  · rw [queueStep, hsame]
    exact hfront
  rw [queueStep]
  generalize transitionPromptQueue s action = t at haccepted
  intro ha hb
  cases haccepted with
  | @enqueue item hitem =>
    have hnew : ∀ id, id ∈ (s.items ++ [{ item with text := jsTrim item.text }]).map
        QueuedPrompt.id → id ≠ item.id → id ∈ s.ids := by
      intro id hmem hne
      simpa [PromptQueueState.ids, hne] using hmem
    have hpair := hfront (hnew a ha hplaces.1.symm) (hnew b hb hplaces.2.symm)
    refine hpair.trans ?_
    simp [PromptQueueState.ids]
  | edit hitems hfree htext hsafe =>
    simp only [PromptQueueState.ids, hitems] at hfront ha hb ⊢
    simpa using hfront (by simpa using ha) (by simpa using hb)
  | @delete front back item hitems hfree =>
    have hsub : ((front ++ back).map QueuedPrompt.id).Sublist s.ids := by
      simp [PromptQueueState.ids, hitems]
    exact pair_sublist_of_sublist hids hsub (hfront (hsub.subset ha) (hsub.subset hb)) ha hb
  | @claim action front back item hitems hallowed =>
    have hsub : ((front ++ back).map QueuedPrompt.id).Sublist s.ids := by
      simp [PromptQueueState.ids, hitems]
    exact pair_sublist_of_sublist hids hsub (hfront (hsub.subset ha) (hsub.subset hb)) ha hb
  | reorder hitems hrest hplace hfree =>
    have hperm := (perm_of_reorder hitems hrest).map QueuedPrompt.id
    have hpair := hfront (hperm.subset ha) (hperm.subset hb)
    rw [PromptQueueState.ids, hitems] at hpair
    exact pair_sublist_of_move hrest hplaces.1 hplaces.2 hpair
  | beginSteering hitem hfree => exact hfront ha hb
  | clearSteering hheld => exact hfront ha hb

/-- The next claim does not take the second of two prompts while the first is queued. -/
theorem InFront.claims_first (h : InFront a b s) (ha : a ∈ s.ids) :
    ∀ item, (transitionPromptQueue s .claimNext).claimed = some item → item.id ≠ b := by
  intro item hclaimed hsame
  obtain hnone | haccepted := transition_cases s .claimNext
  · rw [hnone] at hclaimed
    cases hclaimed
  generalize transitionPromptQueue s .claimNext = t at haccepted hclaimed
  cases haccepted with
  | claim hitems hallowed =>
    obtain rfl := Option.some.inj hclaimed
    obtain ⟨-, rfl, -⟩ | ⟨hother, -⟩ := hallowed
    · have hb : b ∈ s.ids := by simp [PromptQueueState.ids, hitems, hsame]
      have hpair := h.front ha hb
      have hids := h.proper.distinct
      rw [PromptQueueState.ids] at hpair
      rw [hitems, List.nil_append, List.map_cons, hsame] at hpair hids
      cases hpair with
      | cons _ hpair =>
        exact (List.nodup_cons.mp hids).1 (hpair.subset (by simp))
      | cons_cons _ hpair =>
        exact (List.nodup_cons.mp hids).1 (hpair.subset (by simp))
    · cases hother

/-- Of two queued prompts, the one in front is claimed first by those who claim the next one, and
keeps its place as long as both are queued, whatever else is done to the queue, unless one of
the two is moved or enqueued anew. -/
theorem first_come_first_claimed (hs : ProperItems s.items) (hpair : [a, b].Sublist s.ids)
    (actions : List PromptQueueAction) (hplaces : ∀ action ∈ actions, LeavesPlaces a b action) :
    AllSteps queueStep (fun s action => action = .claimNext → a ∈ s.ids →
        ∀ item, (transitionPromptQueue s action).claimed = some item → item.id ≠ b) s actions ∧
      (a ∈ (run queueStep s actions).ids → b ∈ (run queueStep s actions).ids →
        [a, b].Sublist (run queueStep s actions).ids) := by
  have hstart : InFront a b s := ⟨hs, fun _ _ => hpair⟩
  have hguard : AllSteps queueStep (fun _ action => LeavesPlaces a b action) s actions :=
    allSteps_of_mem fun action haction _ => hplaces action haction
  have hstep : ∀ s action, InFront a b s → LeavesPlaces a b action →
      InFront a b (queueStep s action) := fun s action h hplaces => h.step hplaces
  refine ⟨allSteps_of_guarded hstep ?_ hstart hguard, (run_invariant hstep hstart hguard).front⟩
  rintro s action h - rfl ha
  exact h.claims_first ha

theorem first_come_first_claimed_twoPrompts :
    AllSteps queueStep (fun s action => action = .claimNext → "one".toList ∈ s.ids →
        ∀ item, (transitionPromptQueue s action).claimed = some item → item.id ≠ "two".toList)
        twoPrompts [.clearSteering "two".toList 1, .claimNext, .claimNext] ∧
      ("one".toList ∈ (run queueStep twoPrompts
          [.clearSteering "two".toList 1, .claimNext, .claimNext]).ids →
        "two".toList ∈ (run queueStep twoPrompts
          [.clearSteering "two".toList 1, .claimNext, .claimNext]).ids →
        ["one".toList, "two".toList].Sublist (run queueStep twoPrompts
          [.clearSteering "two".toList 1, .claimNext, .claimNext]).ids) := by
  refine first_come_first_claimed twoPrompts_proper ?_ _ ?_
  · simp [PromptQueueState.ids, twoPrompts, typedPrompt]
  · simp [LeavesPlaces]

end

end DeepseekScience.Frontend.PromptQueue
