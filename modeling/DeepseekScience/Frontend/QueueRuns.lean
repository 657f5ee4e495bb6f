import DeepseekScience.Frontend.QueueSteps
import DeepseekScience.Lib.Runs

/-! Runs of the store of prompt queues. Whatever is done to it, its prompts are proper ones, what
was enqueued is claimed once, deleted or still queued, and nobody but its owner takes a prompt that
is reserved. -/
namespace DeepseekScience.Frontend.PromptQueue

open Runs

/-- What an enqueued prompt is checked for. -/
structure QueuedPrompt.Proper (item : QueuedPrompt) : Prop where
  id : item.id ≠ []
  text : item.text ≠ []
  trimmed : jsTrim item.text = item.text
  createdAt : item.createdAt ≠ []
  positive : 1 ≤ item.revision
  safe : isSafeInteger item.revision = true

structure ProperItems (items : List QueuedPrompt) : Prop where
  proper : ∀ item ∈ items, item.Proper
  distinct : (items.map QueuedPrompt.id).Nodup

/-- A reservation names a queued prompt, at its revision. -/
def Reserved (s : PromptQueueState) : Prop :=
  ∀ held, s.steering = some held → ∃ item ∈ s.items, item.ref = held

theorem jsTrim_jsTrim (t : Text) : jsTrim (jsTrim t) = jsTrim t := by
  have hfront : (jsTrim t).dropWhile isJsWhitespace = jsTrim t := by
    obtain ⟨back, hback⟩ := List.rdropWhile_prefix isJsWhitespace (t.dropWhile isJsWhitespace)
    have htrim : jsTrim t = (t.dropWhile isJsWhitespace).rdropWhile isJsWhitespace := rfl
    cases hrest : (t.dropWhile isJsWhitespace).rdropWhile isJsWhitespace with
    | nil => simp [htrim, hrest]
    | cons c rest =>
      rw [hrest] at hback
      have hfirst := List.head?_dropWhile_not isJsWhitespace t
      rw [← hback] at hfirst
      rw [htrim, hrest]
      exact List.dropWhile_cons_of_neg (by simpa using hfirst)
  have hback := List.rdropWhile_idempotent isJsWhitespace (t.dropWhile isJsWhitespace)
  calc jsTrim (jsTrim t) = ((jsTrim t).dropWhile isJsWhitespace).rdropWhile isJsWhitespace := rfl
    _ = (jsTrim t).rdropWhile isJsWhitespace := by rw [hfront]
    _ = jsTrim t := hback

variable {s : PromptQueueState} {action : PromptQueueAction} {t : PromptQueueTransition}
  {item held : QueuedPrompt}

theorem canEnqueue_iff : canEnqueue s item = true ↔
    item.id ≠ [] ∧ jsTrim item.text ≠ [] ∧ item.createdAt ≠ [] ∧ isSafeInteger item.revision = true ∧
      1 ≤ item.revision ∧ item.id ∉ s.items.map QueuedPrompt.id := by
  simp [canEnqueue]

theorem ne_of_free (hfree : selectIsSteeringItem s item.id = false)
    (hheld : s.steering = some held.ref) : held ≠ item := by
  rintro rfl
  simp [selectIsSteeringItem, hheld, QueuedPrompt.ref] at hfree

theorem mem_of_ne {front back : List QueuedPrompt} (hne : held ≠ item)
    (hmem : held ∈ front ++ item :: back) : held ∈ front ++ back := by
  simp only [List.mem_append, List.mem_cons] at hmem ⊢
  tauto

theorem Accepted.changed (h : Accepted s action t) : t.changed = true := by cases h <;> rfl

/-- The prompts that a reorder leaves are those that were there. -/
theorem perm_of_reorder {front back front' back' : List QueuedPrompt} {moved : QueuedPrompt}
    (hitems : s.items = front ++ moved :: back) (hrest : front ++ back = front' ++ back') :
    (front' ++ moved :: back').Perm s.items := by
  rw [hitems]
  calc (front' ++ moved :: back').Perm (moved :: (front' ++ back')) := List.perm_middle
    _ = moved :: (front ++ back) := by rw [hrest]
    List.Perm _ (front ++ moved :: back) := List.perm_middle.symm

theorem Accepted.properItems (h : Accepted s action t) (hs : ProperItems s.items) :
    ProperItems t.state.items := by
  obtain ⟨hproper, hdistinct⟩ := hs
  cases h with
  | @enqueue item hitem =>
    obtain ⟨hid, htext, hcreated, hsafe, hpositive, hfresh⟩ := canEnqueue_iff.mp hitem
    constructor
    · intro other hother
      obtain hother | hother := List.mem_append.mp hother
      · exact hproper other hother
      · rw [List.mem_singleton.mp hother]
        exact ⟨hid, htext, jsTrim_jsTrim _, hcreated, hpositive, hsafe⟩
    · rw [List.map_append, List.nodup_append]
      refine ⟨hdistinct, by simp, ?_⟩
      intro id hid' other hother heq
      obtain rfl : other = item.id := by simpa using hother
      exact hfresh (heq ▸ hid')
  | @edit front back item text hitems hfree htext hsafe =>
    rw [hitems] at hproper hdistinct
    have hold := hproper item (by simp)
    constructor
    · intro other hother
      simp only [List.mem_append, List.mem_cons] at hother
      obtain hother | rfl | hother := hother
      · exact hproper other (by simp [hother])
      · exact ⟨hold.id, htext, jsTrim_jsTrim _, hold.createdAt,
          by have := hold.positive; simp only; omega, hsafe⟩
      · exact hproper other (by simp [hother])
    · simpa using hdistinct
  | @delete front back item hitems hfree =>
    rw [hitems] at hproper hdistinct
    have hsub : (front ++ back).Sublist (front ++ item :: back) := by simp
    exact ⟨fun other hother => hproper other (hsub.subset hother),
      hdistinct.sublist (hsub.map _)⟩
  | reorder hitems hrest hplace hfree =>
    have hperm := perm_of_reorder hitems hrest
    exact ⟨fun other hother => hproper other (hperm.subset hother),
      (hperm.map _).nodup_iff.mpr hdistinct⟩
  | @claim action front back item hitems hallowed =>
    rw [hitems] at hproper hdistinct
    have hsub : (front ++ back).Sublist (front ++ item :: back) := by simp
    exact ⟨fun other hother => hproper other (hsub.subset hother),
      hdistinct.sublist (hsub.map _)⟩
  | beginSteering hitem hfree => exact ⟨hproper, hdistinct⟩
  | clearSteering hheld => exact ⟨hproper, hdistinct⟩

/-- A queued prompt that is reserved stays as it is, unless it is claimed. -/
theorem Accepted.keeps_held (h : Accepted s action t) (hheld : s.steering = some held.ref)
    (hitem : held ∈ s.items) (hunclaimed : t.claimed = none) : held ∈ t.state.items := by
  cases h with
  | enqueue hnew => exact List.mem_append_left _ hitem
  | edit hitems hfree htext hsafe =>
    have hother := mem_of_ne (ne_of_free hfree hheld) (hitems ▸ hitem)
    simp only [List.mem_append, List.mem_cons] at hother ⊢
    tauto
  | delete hitems hfree => exact mem_of_ne (ne_of_free hfree hheld) (hitems ▸ hitem)
  | reorder hitems hrest hplace hfree =>
    exact (perm_of_reorder hitems hrest).symm.subset hitem
  | claim hitems hallowed => cases hunclaimed
  | beginSteering hnew hfree => exact hitem
  | clearSteering hnow => exact hitem

theorem Accepted.reserved (h : Accepted s action t) (hs : Reserved s) : Reserved t.state := by
  intro ref href
  have hold : ∀ held ∈ s.items, s.steering = some held.ref → t.claimed = none → held.ref = ref →
      ∃ item ∈ t.state.items, item.ref = ref :=
    fun held hheld hsteering hunclaimed hsame =>
      ⟨held, h.keeps_held hsteering hheld hunclaimed, hsame⟩
  cases h with
  | claim hitems hallowed => cases href
  | beginSteering hitem hfree => exact ⟨_, hitem, Option.some.inj href⟩
  | clearSteering hheld => cases href
  | enqueue | edit | delete | reorder =>
    obtain ⟨held, hheld, rfl⟩ := hs ref href
    exact hold held hheld href rfl rfl

theorem transition_properItems (hs : ProperItems s.items) (action : PromptQueueAction) :
    ProperItems (transitionPromptQueue s action).state.items := by
  obtain h | h := transition_cases s action
  · rw [h]
    exact hs
  · exact h.properItems hs

theorem transition_reserved (hs : Reserved s) (action : PromptQueueAction) :
    Reserved (transitionPromptQueue s action).state := by
  obtain h | h := transition_cases s action
  · rw [h]
    exact hs
  · exact h.reserved hs

section
/-! Every queue of the store. -/

variable {store : PromptQueueStore}

theorem getSnapshot_update (hsid : validSid sid = true) (state : PromptQueueState) (sid' : Text) :
    PromptQueueStore.getSnapshot (Function.update store sid (some state)) sid' =
      if sid' = sid then state else store.getSnapshot sid' := by
  unfold PromptQueueStore.getSnapshot
  by_cases hsame : sid' = sid
  · simp [hsame, hsid]
  · simp [hsame]

/-- A dispatch makes its transition in the queue of its session, and in no other. -/
theorem getSnapshot_dispatch (sid : Text) (action : PromptQueueAction) (sid' : Text) :
    (store.dispatch sid action).2.getSnapshot sid' =
      if sid' = sid ∧ validSid sid then
        (transitionPromptQueue (store.getSnapshot sid) action).state
      else store.getSnapshot sid' := by
  unfold PromptQueueStore.dispatch
  by_cases hsid : validSid sid = true
  · simp only [hsid, ↓reduceIte, and_true]
    obtain h | h := transition_cases (store.getSnapshot sid) action
    · simp only [h, unchanged]
      split <;> simp_all
    · simp only [h.changed, ↓reduceIte]
      exact getSnapshot_update hsid _ sid'
  · simp [hsid]

/-- What the operations of one queue keep is kept of all queues by every run of the store. -/
theorem queues_kept {P : PromptQueueState → Prop} {Listed : List QueuedPrompt → Prop}
    (htransition : ∀ s action, P s → P (transitionPromptQueue s action).state)
    (hreplace : ∀ s items, P s → Listed items →
      P ⟨items, s.steering.filter fun held => items.any (sameItemRef held)⟩)
    (ops : List StoreOp) (hlisted : ∀ sid items, StoreOp.replace sid items ∈ ops → Listed items) :
    ∀ store : PromptQueueStore, (∀ sid, P (store.getSnapshot sid)) →
      ∀ sid, P ((run storeStep store ops).getSnapshot sid) := by
  have hdispatch : ∀ (store : PromptQueueStore) sid action, (∀ sid, P (store.getSnapshot sid)) →
      ∀ sid', P ((store.dispatch sid action).2.getSnapshot sid') := by
    intro store sid action hstore sid'
    rw [getSnapshot_dispatch]
    split
    · exact htransition _ action (hstore sid)
    · exact hstore sid'
  induction ops with
  | nil => exact fun store hstore => hstore
  | cons op ops ih =>
    intro store hstore
    refine ih (fun sid items hmem => hlisted sid items (List.mem_cons_of_mem _ hmem)) _ ?_
    cases op with
    | dispatch sid action => exact hdispatch store sid action hstore
    | enqueue sid freshId now text mode =>
      simp only [storeStep, PromptQueueStore.enqueue]
      split
      · exact hstore
      · split
        · exact hdispatch store sid _ hstore
        · exact hstore
    | replace sid items =>
      intro sid'
      simp only [storeStep, PromptQueueStore.replace]
      split
      · rename_i hsid
        rw [getSnapshot_update hsid]
        split
        · exact hreplace _ items (hstore sid) (hlisted sid items List.mem_cons_self)
        · exact hstore sid'
      · exact hstore sid'

theorem getSnapshot_empty (sid : Text) :
    PromptQueueStore.getSnapshot (fun _ => none) sid = emptyPromptQueue := by
  unfold PromptQueueStore.getSnapshot
  split <;> rfl

theorem properItems_kept (ops : List StoreOp)
    (hlisted : ∀ sid items, StoreOp.replace sid items ∈ ops → ProperItems items)
    (store : PromptQueueStore) (hstore : ∀ sid, ProperItems (store.getSnapshot sid).items)
    (sid : Text) : ProperItems ((run storeStep store ops).getSnapshot sid).items := by
  have hkept := queues_kept (P := fun s => ProperItems s.items)
    (fun s action hs => transition_properItems hs action) (fun s items _ hitems => hitems) ops hlisted
  exact hkept store hstore sid

theorem reserved_replaced (items : List QueuedPrompt) :
    Reserved ⟨items, s.steering.filter fun held => items.any (sameItemRef held)⟩ := by
  intro held hheld
  obtain ⟨-, hany⟩ := Option.filter_eq_some_iff.mp hheld
  obtain ⟨item, hitem, hsame⟩ := List.any_eq_true.mp hany
  exact ⟨item, hitem, by simpa [sameItemRef] using hsame⟩

/-- In every run of the store a reservation names a prompt that is queued, at its revision, and as
long as the lists that the server answers are proper, so is every queue. -/
theorem queues_proper (ops : List StoreOp) (sid : Text) :
    Reserved ((run storeStep (fun _ => none) ops).getSnapshot sid) ∧
      ((∀ sid items, StoreOp.replace sid items ∈ ops → ProperItems items) →
        ProperItems ((run storeStep (fun _ => none) ops).getSnapshot sid).items) := by
  constructor
  · have hkept := queues_kept (P := Reserved) (fun s action hs => transition_reserved hs action)
      (fun s items _ (_ : True) => reserved_replaced items) ops fun _ _ _ => trivial
    refine hkept _ (fun sid held hheld => ?_) sid
    rw [getSnapshot_empty] at hheld
    cases hheld
  · intro hlisted
    refine properItems_kept ops hlisted _ (fun sid => ?_) sid
    rw [getSnapshot_empty]
    exact ⟨by simp [emptyPromptQueue], List.nodup_nil⟩

end

end DeepseekScience.Frontend.PromptQueue
