import DeepseekScience.Frontend.PromptQueue

/-! What an operation that changes a queue of prompts has done to it, and what no operation
breaks: prompts with identities of their own and proper texts, and a reservation that names a
queued prompt with its very revision. -/
namespace DeepseekScience.Frontend.PromptQueue

section
/-! Lists taken apart at an index. -/

variable {α : Type*} {p : α → Bool} {l : List α} {i : ℕ}

theorem split_of_findIdx? (h : l.findIdx? p = some i) :
    ∃ front a back, l = front ++ a :: back ∧ front.length = i ∧ p a = true := by
  induction l generalizing i with
  | nil => simp at h
  | cons b l ih =>
    rw [List.findIdx?_cons] at h
    split at h
    · rename_i hb
      obtain rfl := Option.some.inj h
      exact ⟨[], b, l, rfl, rfl, hb⟩
    · obtain ⟨j, hj, rfl⟩ := Option.map_eq_some_iff.mp h
      obtain ⟨front, a, back, rfl, hlength, ha⟩ := ih hj
      exact ⟨b :: front, a, back, rfl, by simp [hlength], ha⟩

@[simp] theorem eraseIdx_middle (front back : List α) (a : α) :
    (front ++ a :: back).eraseIdx front.length = front ++ back := by
  induction front with
  | nil => rfl
  | cons b front ih => simp [ih]

theorem split_of_insertIdx (a : α) (h : i ≤ l.length) :
    ∃ front back, l = front ++ back ∧ front.length = i ∧ l.insertIdx i a = front ++ a :: back := by
  induction l generalizing i with
  | nil =>
    obtain rfl : i = 0 := by simpa using h
    exact ⟨[], [], rfl, rfl, rfl⟩
  | cons b l ih =>
    cases i with
    | zero => exact ⟨[], b :: l, rfl, rfl, rfl⟩
    | succ i =>
      obtain ⟨front, back, rfl, hlength, hinsert⟩ := ih (i := i) (by simpa using h)
      exact ⟨b :: front, back, rfl, by simp [hlength], by simp [hinsert]⟩

end

/-- The operations that change a queue, with what they ask for and what they leave. -/
inductive Accepted (s : PromptQueueState) : PromptQueueAction → PromptQueueTransition → Prop
  | enqueue {item : QueuedPrompt} (hitem : canEnqueue s item = true) :
    Accepted s (.enqueue item)
      { state := { s with items := s.items ++ [{ item with text := jsTrim item.text }] } }
  | edit {front back : List QueuedPrompt} {item : QueuedPrompt} {text : Text}
    (hitems : s.items = front ++ item :: back) (hfree : selectIsSteeringItem s item.id = false)
    (htext : jsTrim text ≠ []) (hsafe : isSafeInteger (item.revision + 1) = true) :
    Accepted s (.edit item.id item.revision text)
      { state :=
          { s with
            items := front ++
              { item with text := jsTrim text, revision := item.revision + 1 } :: back } }
  | delete {front back : List QueuedPrompt} {item : QueuedPrompt}
    (hitems : s.items = front ++ item :: back) (hfree : selectIsSteeringItem s item.id = false) :
    Accepted s (.delete item.id item.revision) { state := { s with items := front ++ back } }
  | reorder {front back front' back' : List QueuedPrompt} {moved : QueuedPrompt} {targetId : Text}
    (hitems : s.items = front ++ moved :: back) (hrest : front ++ back = front' ++ back')
    (hplace : s.items[front'.length]?.map QueuedPrompt.id = some targetId)
    (hfree : selectIsSteeringItem s moved.id = false) :
    Accepted s (.reorder moved.id targetId)
      { state := { s with items := front' ++ moved :: back' } }
  | claim {action : PromptQueueAction} {front back : List QueuedPrompt} {item : QueuedPrompt}
    (hitems : s.items = front ++ item :: back)
    (hallowed : action = .claimNext ∧ front = [] ∧ s.steering = none ∨
      action = .claimItem item.id item.revision ∧ s.steering.all (· = item.ref)) :
    Accepted s action
      { state := { items := front ++ back, steering := none }, claimed := some item }
  | beginSteering {item : QueuedPrompt} (hitem : item ∈ s.items) (hfree : s.steering = none) :
    Accepted s (.beginSteering item.id item.revision)
      { state := { s with steering := some item.ref } }
  | clearSteering {held : PromptQueueItemRef} (hheld : s.steering = some held) :
    Accepted s (.clearSteering held.itemId held.revision)
      { state := { s with steering := none } }

variable {s : PromptQueueState} {action : PromptQueueAction} {item : QueuedPrompt}

theorem eq_of_sameItemRef {itemId : Text} {revision : ℤ}
    (h : sameItemRef ⟨itemId, revision⟩ item = true) : itemId = item.id ∧ revision = item.revision := by
  have href : item.ref = ⟨itemId, revision⟩ := by simpa [sameItemRef] using h
  cases href
  exact ⟨rfl, rfl⟩

/-- A claim takes a prompt out of the queue. One that is reserved goes to who wants it only. -/
theorem transitionClaim_cases (wanted : Option PromptQueueItemRef) :
    transitionClaim s wanted = unchanged s ∨
      ∃ front item back, s.items = front ++ item :: back ∧
        (wanted = none ∧ front = [] ∧ s.steering = none ∨
          wanted = some item.ref ∧ s.steering.all (· = item.ref)) ∧
        transitionClaim s wanted =
          { state := { items := front ++ back, steering := none }, claimed := some item } := by
  unfold transitionClaim
  split
  · exact Or.inl rfl
  rename_i hnonempty
  split
  · exact Or.inl rfl
  rename_i hsteering
  have hheld : ∀ held, s.steering = some held → wanted = some held := by
    intro held hheld
    simpa [hheld] using hsteering
  cases wanted with
  | none =>
    have hfree : s.steering = none := by
      cases hs : s.steering with
      | none => rfl
      | some held => simpa using hheld held hs
    obtain ⟨item, back, hitems⟩ := List.exists_cons_of_ne_nil hnonempty
    right
    use [], item, back
    simp [hitems, hfree]
  | some wanted =>
    cases hindex : s.items.findIdx? (sameItemRef wanted) with
    | none =>
      left
      simp [hindex]
    | some index =>
      obtain ⟨front, item, back, hitems, rfl, hitem⟩ := split_of_findIdx? hindex
      have href : item.ref = wanted := by simpa [sameItemRef] using hitem
      subst href
      right
      use front, item, back
      have hget : s.items[front.length]? = some item := by simp [hitems]
      have herase : s.items.eraseIdx front.length = front ++ back := by simp [hitems]
      have hleft : (if selectIsSteeringItem s item.id then none else s.steering) = none := by
        cases hs : s.steering with
        | none => simp
        | some held =>
          have hsame : held = item.ref := (Option.some.inj (hheld held hs)).symm
          simp [selectIsSteeringItem, hs, hsame, QueuedPrompt.ref]
      have hall : s.steering.all (· = item.ref) = true := by
        cases hs : s.steering with
        | none => rfl
        | some held => simp [Option.some.inj (hheld held hs)]
      refine ⟨hitems, Or.inr ⟨rfl, hall⟩, ?_⟩
      simp [hindex, hget, herase, hleft]

theorem transition_cases (s : PromptQueueState) (action : PromptQueueAction) :
    transitionPromptQueue s action = unchanged s ∨
      Accepted s action (transitionPromptQueue s action) := by
  cases action with
  | enqueue item =>
    rw [transitionPromptQueue]
    split
    · rename_i hitem
      exact Or.inr (.enqueue hitem)
    · exact Or.inl rfl
  | edit itemId expectedRevision text =>
    rw [transitionPromptQueue]
    split
    · exact Or.inl rfl
    rename_i hfree
    cases hindex : s.items.findIdx? (sameItemRef ⟨itemId, expectedRevision⟩) with
    | none => exact Or.inl rfl
    | some index =>
      obtain ⟨front, item, back, hitems, rfl, hitem⟩ := split_of_findIdx? hindex
      obtain ⟨rfl, rfl⟩ := eq_of_sameItemRef hitem
      have hget : s.items[front.length]? = some item := by simp [hitems]
      simp only [hget]
      split
      · exact Or.inl rfl
      rename_i htext
      split
      · exact Or.inl rfl
      rename_i hsafe
      have hset : ∀ edited, s.items.set front.length edited = front ++ edited :: back := by
        simp [hitems]
      rw [hset]
      exact Or.inr (.edit hitems (by simpa using hfree) (by tauto) (by simpa using hsafe))
  | delete itemId expectedRevision =>
    rw [transitionPromptQueue]
    split
    · exact Or.inl rfl
    rename_i hfree
    cases hindex : s.items.findIdx? (sameItemRef ⟨itemId, expectedRevision⟩) with
    | none => exact Or.inl rfl
    | some index =>
      obtain ⟨front, item, back, hitems, rfl, hitem⟩ := split_of_findIdx? hindex
      obtain ⟨rfl, rfl⟩ := eq_of_sameItemRef hitem
      have herase : s.items.eraseIdx front.length = front ++ back := by simp [hitems]
      simp only [herase]
      exact Or.inr (.delete hitems (by simpa using hfree))
  | reorder itemId targetId =>
    rw [transitionPromptQueue]
    split
    · exact Or.inl rfl
    rename_i hfree
    cases hfrom : s.items.findIdx? (·.id = itemId) with
    | none => exact Or.inl rfl
    | some fromIndex =>
      cases htarget : s.items.findIdx? (·.id = targetId) with
      | none => exact Or.inl rfl
      | some targetIndex =>
        obtain ⟨front, moved, back, hitems, rfl, hmoved⟩ := split_of_findIdx? hfrom
        obtain rfl : moved.id = itemId := by simpa using hmoved
        obtain ⟨before, target, behind, htargetItems, rfl, hid⟩ := split_of_findIdx? htarget
        obtain rfl : target.id = targetId := by simpa using hid
        have hget : s.items[front.length]? = some moved := by simp [hitems]
        have herase : s.items.eraseIdx front.length = front ++ back := by simp [hitems]
        have hlength : before.length ≤ (front ++ back).length := by
          have hsame := congrArg List.length (hitems.symm.trans htargetItems)
          simp only [List.length_append, List.length_cons] at hsame ⊢
          omega
        obtain ⟨front', back', hrest, hplace, hinsert⟩ := split_of_insertIdx moved hlength
        simp only [hget, herase, hinsert]
        refine Or.inr (.reorder hitems hrest ?_ (by simp_all))
        simp [hplace, htargetItems]
  | claimNext =>
    obtain hnone | ⟨front, item, back, hitems, hallowed, hclaim⟩ := transitionClaim_cases (s := s) none
    · exact Or.inl hnone
    · rw [transitionPromptQueue, hclaim]
      exact Or.inr (.claim hitems (Or.inl (by simpa using hallowed)))
  | claimItem itemId expectedRevision =>
    obtain hnone | ⟨front, item, back, hitems, hallowed, hclaim⟩ :=
      transitionClaim_cases (s := s) (some ⟨itemId, expectedRevision⟩)
    · exact Or.inl hnone
    · rw [transitionPromptQueue, hclaim]
      obtain ⟨hwanted, -⟩ | ⟨hwanted, hall⟩ := hallowed
      · cases hwanted
      · cases hwanted
        exact Or.inr (.claim hitems (Or.inr ⟨rfl, hall⟩))
  | beginSteering itemId expectedRevision =>
    rw [transitionPromptQueue]
    split
    · exact Or.inl rfl
    rename_i hfree
    cases hfind : s.items.find? (sameItemRef ⟨itemId, expectedRevision⟩) with
    | none => exact Or.inl rfl
    | some item =>
      obtain ⟨rfl, rfl⟩ := eq_of_sameItemRef (List.find?_some hfind)
      exact Or.inr (.beginSteering (List.mem_of_find?_eq_some hfind) (by simpa using hfree))
  | clearSteering itemId expectedRevision =>
    rw [transitionPromptQueue]
    split
    · exact Or.inl rfl
    · rename_i hheld
      have hreserved : s.steering = some ⟨itemId, expectedRevision⟩ := by simpa using hheld
      exact Or.inr (.clearSteering hreserved)

end DeepseekScience.Frontend.PromptQueue
