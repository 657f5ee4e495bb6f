import DeepseekScience.Llm.Message
import DeepseekScience.Lib.SpanCover

/-! Non-destructive compaction: the message log is append-only, and the projection decides
what the model sees. A fold stands for a range of the log; ranges are normalized to whole user
turns on the fly, and the active turn is never hidden. -/
namespace DeepseekScience.Compact

structure Fold where
  startIdx : ℕ
  endIdx : ℕ
  summary : Text
  level : ℕ
  deriving DecidableEq

structure CompactionState where
  folds : List Fold := []
  l1SummaryCount : ℕ := 0
  deriving DecidableEq

/-- Record a fold; the stable sort keeps the folds ordered by their start. -/
def CompactionState.recordFold (s : CompactionState) (fold : Fold) : CompactionState where
  folds := (s.folds ++ [fold]).mergeSort fun f g => decide (f.startIdx ≤ g.startIdx)
  l1SummaryCount := if fold.level = 1 then s.l1SummaryCount + 1 else s.l1SummaryCount

def isUserAt (messages : List ChatMessage) (i : ℕ) : Bool :=
  messages[i]?.any fun m => m.role == .user

/-- `rposition` of the user messages. -/
def rpositionUser : List ChatMessage → Option ℕ
  | [] => none
  | m :: rest =>
    match rpositionUser rest with
    | some i => some (i + 1)
    | none => if m.role = .user then some 0 else none

/-- The newest user message begins the active turn; without one the log ends there. -/
def latestUserTurnStart (messages : List ChatMessage) : ℕ :=
  (rpositionUser messages).getD messages.length

/-- Step back to the nearest user message in front of `start`, or to the start of the log. -/
def stepBackToUser (messages : List ChatMessage) : ℕ → ℕ
  | 0 => 0
  | n + 1 => if isUserAt messages n then n else stepBackToUser messages n

/-- Extend an exclusive fold end to the next user-turn boundary. -/
def extendEndToTurnBoundary (messages : List ChatMessage) (stop : ℕ) : ℕ :=
  let alignedEnd := min stop messages.length
  if alignedEnd = 0 || alignedEnd = messages.length || isUserAt messages alignedEnd then alignedEnd
  else alignedEnd + ((messages.drop alignedEnd).takeWhile fun m => m.role != .user).length

/-- Normalize arbitrary fold bounds to whole user turns. -/
def alignFoldRange (messages : List ChatMessage) (start stop : ℕ) : ℕ × ℕ :=
  let alignedStart := min start messages.length
  let alignedStart :=
    if alignedStart < messages.length && !isUserAt messages alignedStart then
      stepBackToUser messages alignedStart
    else alignedStart
  (alignedStart, extendEndToTurnBoundary messages (max stop alignedStart))

/-- The loop over the folds: what is pushed from the cursor on. -/
def projectionFrom (messages : List ChatMessage) (activeTurnStart : ℕ) :
    List Fold → ℕ → List ChatMessage
  | [], cursor => messages.drop cursor
  | fold :: folds, cursor =>
    let (start, stop) := alignFoldRange messages fold.startIdx fold.endIdx
    let stop := min stop activeTurnStart
    if activeTurnStart ≤ start then projectionFrom messages activeTurnStart folds cursor
    else if start < cursor then
      if cursor < stop then
        ChatMessage.ofAssistant fold.summary :: projectionFrom messages activeTurnStart folds stop
      else projectionFrom messages activeTurnStart folds cursor
    else if stop ≤ start then projectionFrom messages activeTurnStart folds cursor
    else
      (messages.take start).drop cursor ++ ChatMessage.ofAssistant fold.summary ::
        projectionFrom messages activeTurnStart folds (max stop cursor)

/-- The view of the log that the model is given. -/
def projection (messages : List ChatMessage) (s : CompactionState) : List ChatMessage :=
  if s.folds.isEmpty then messages
  else projectionFrom messages (latestUserTurnStart messages) s.folds 0

/-- A turn boundary: an end of the log, or a user message. -/
def IsTurnBoundary (messages : List ChatMessage) (i : ℕ) : Prop :=
  i = 0 ∨ i = messages.length ∨ isUserAt messages i = true

theorem isUserAt_eq_true {messages : List ChatMessage} {i : ℕ} :
    isUserAt messages i = true ↔ ∃ m, messages[i]? = some m ∧ m.role = .user := by
  simp [isUserAt, Option.any_eq_true]

theorem lt_length_of_isUserAt {messages : List ChatMessage} {i : ℕ}
    (h : isUserAt messages i = true) : i < messages.length := by
  obtain ⟨m, hm, -⟩ := isUserAt_eq_true.mp h
  exact (List.getElem?_eq_some_iff.mp hm).1

theorem isUserAt_append_left {messages : List ChatMessage} {i : ℕ} (h : i < messages.length)
    (later : List ChatMessage) : isUserAt (messages ++ later) i = isUserAt messages i := by
  rw [isUserAt, isUserAt, List.getElem?_append_left h]

theorem isUserAt_cons_succ (m : ChatMessage) (rest : List ChatMessage) (i : ℕ) :
    isUserAt (m :: rest) (i + 1) = isUserAt rest i := by simp [isUserAt]

theorem rpositionUser_eq_none {messages : List ChatMessage} (h : rpositionUser messages = none)
    (i : ℕ) : isUserAt messages i = false := by
  induction messages generalizing i with
  | nil => rfl
  | cons m rest ih =>
    rw [rpositionUser] at h
    split at h
    · cases h
    · rename_i hrest
      cases i with
      | zero =>
        have hm : m.role ≠ .user := by
          intro hm
          simp [hm] at h
        simp [isUserAt, hm]
      | succ i => rw [isUserAt_cons_succ, ih hrest]

theorem rpositionUser_eq_some {messages : List ChatMessage} {i : ℕ}
    (h : rpositionUser messages = some i) :
    isUserAt messages i = true ∧ ∀ j, isUserAt messages j = true → j ≤ i := by
  induction messages generalizing i with
  | nil => cases h
  | cons m rest ih =>
    rw [rpositionUser] at h
    split at h
    · rename_i k hrest
      obtain rfl : k + 1 = i := by simpa using h
      obtain ⟨huser, hlast⟩ := ih hrest
      refine ⟨by rwa [isUserAt_cons_succ], fun j hj => ?_⟩
      cases j with
      | zero => exact Nat.zero_le _
      | succ j =>
        rw [isUserAt_cons_succ] at hj
        exact Nat.succ_le_succ (hlast j hj)
    · rename_i hrest
      split_ifs at h with hm
      obtain rfl : 0 = i := by simpa using h
      refine ⟨by simp [isUserAt, hm], fun j hj => ?_⟩
      cases j with
      | zero => exact le_rfl
      | succ j =>
        rw [isUserAt_cons_succ, rpositionUser_eq_none hrest] at hj
        cases hj

theorem latestUserTurnStart_boundary (messages : List ChatMessage) :
    IsTurnBoundary messages (latestUserTurnStart messages) := by
  rw [latestUserTurnStart]
  cases h : rpositionUser messages with
  | none => exact Or.inr (Or.inl rfl)
  | some i => exact Or.inr (Or.inr (rpositionUser_eq_some h).1)

/-- No user message lies behind the start of the active turn. -/
theorem le_latestUserTurnStart {messages : List ChatMessage} {i : ℕ}
    (h : isUserAt messages i = true) : i ≤ latestUserTurnStart messages := by
  rw [latestUserTurnStart]
  cases hpos : rpositionUser messages with
  | none => exact (lt_length_of_isUserAt h).le
  | some j => exact (rpositionUser_eq_some hpos).2 i h

theorem stepBackToUser_le (messages : List ChatMessage) (n : ℕ) :
    stepBackToUser messages n ≤ n := by
  induction n with
  | zero => exact le_rfl
  | succ n ih =>
    rw [stepBackToUser]
    split_ifs <;> omega

theorem stepBackToUser_boundary (messages : List ChatMessage) (n : ℕ) :
    stepBackToUser messages n = 0 ∨ isUserAt messages (stepBackToUser messages n) = true := by
  induction n with
  | zero => exact Or.inl rfl
  | succ n ih =>
    rw [stepBackToUser]
    split_ifs with h
    · exact Or.inr h
    · exact ih

theorem le_stepBackToUser {messages : List ChatMessage} {i n : ℕ}
    (hi : isUserAt messages i = true) (hlt : i < n) : i ≤ stepBackToUser messages n := by
  induction n with
  | zero => omega
  | succ n ih =>
    rw [stepBackToUser]
    split_ifs with h
    · omega
    · exact ih (lt_of_le_of_ne (Nat.le_of_lt_succ hlt) fun he => h (he ▸ hi))

theorem alignFoldRange_start_le (messages : List ChatMessage) (start stop : ℕ) :
    (alignFoldRange messages start stop).1 ≤ min start messages.length := by
  simp only [alignFoldRange]
  split_ifs
  · exact stepBackToUser_le _ _
  · exact le_rfl

theorem alignFoldRange_start_boundary (messages : List ChatMessage) (start stop : ℕ) :
    IsTurnBoundary messages (alignFoldRange messages start stop).1 := by
  simp only [alignFoldRange]
  split_ifs with h
  · exact (stepBackToUser_boundary messages _).imp_right Or.inr
  · simp only [Bool.and_eq_true, decide_eq_true_eq, Bool.not_eq_true', not_and, Bool.not_eq_false]
      at h
    rcases Nat.lt_or_ge (min start messages.length) messages.length with hlt | hge
    · exact Or.inr (Or.inr (h hlt))
    · exact Or.inr (Or.inl (by omega))

/-- Normalization keeps the order of the starts. -/
theorem alignFoldRange_start_mono (messages : List ChatMessage) {start start' : ℕ} (stop stop' : ℕ)
    (hle : start ≤ start') :
    (alignFoldRange messages start stop).1 ≤ (alignFoldRange messages start' stop').1 := by
  have hself := alignFoldRange_start_le messages start stop
  rcases Nat.eq_or_lt_of_le (show min start messages.length ≤ min start' messages.length by omega)
    with heq | hlt
  · exact le_of_eq (by simp only [alignFoldRange, heq])
  · rw [alignFoldRange.eq_def messages start' stop']
    simp only
    split_ifs
    · rcases alignFoldRange_start_boundary messages start stop with h0 | hlen | huser
      · omega
      · omega
      · exact le_stepBackToUser huser (lt_of_le_of_lt hself hlt)
    · omega

theorem extendEndToTurnBoundary_boundary (messages : List ChatMessage) (stop : ℕ) :
    IsTurnBoundary messages (extendEndToTurnBoundary messages stop) := by
  simp only [extendEndToTurnBoundary]
  split_ifs with h
  · simp only [Bool.or_eq_true, decide_eq_true_eq] at h
    rcases h with (h | h) | h
    · exact Or.inl h
    · exact Or.inr (Or.inl h)
    · exact Or.inr (Or.inr h)
  · have hle : min stop messages.length ≤ messages.length := min_le_right _ _
    generalize min stop messages.length = start at hle
    have hsplit := List.takeWhile_append_dropWhile (p := fun m : ChatMessage => m.role != .user)
      (l := messages.drop start)
    cases hd : (messages.drop start).dropWhile fun m => m.role != .user with
    | nil =>
      rw [hd, List.append_nil] at hsplit
      refine Or.inr (Or.inl ?_)
      rw [hsplit, List.length_drop]
      omega
    | cons m rest =>
      have hm : m.role = .user := by
        have := List.head_dropWhile_not (fun m : ChatMessage => m.role != .user)
          (l := messages.drop start) (by simp [hd])
        simpa [hd] using this
      refine Or.inr (Or.inr (isUserAt_eq_true.mpr ⟨m, ?_, hm⟩))
      rw [hd] at hsplit
      generalize (messages.drop start).takeWhile (fun m => m.role != .user) = turn at hsplit ⊢
      rw [← List.getElem?_drop, ← hsplit]
      simp

theorem extendEndToTurnBoundary_eq_self {messages : List ChatMessage} {stop : ℕ}
    (h : isUserAt messages stop = true) : extendEndToTurnBoundary messages stop = stop := by
  have hlt := lt_length_of_isUserAt h
  simp [extendEndToTurnBoundary, min_eq_left hlt.le, h]

end DeepseekScience.Compact
