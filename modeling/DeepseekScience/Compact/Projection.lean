import DeepseekScience.Compact.State

/-! The projection never loses or reorders history: it is the one-pass replacement of the
turn-aligned fold ranges, clipped at the active turn, and it respects the tool protocol
because every range starts and ends on a turn boundary. -/
namespace DeepseekScience.Compact

open SpanCover

/-- The first message that a fold hides. -/
def foldStart (messages : List ChatMessage) (fold : Fold) : ℕ :=
  (alignFoldRange messages fold.startIdx fold.endIdx).1

/-- The end of what a fold hides, clipped at the active turn. -/
def foldStop (messages : List ChatMessage) (fold : Fold) : ℕ :=
  min (alignFoldRange messages fold.startIdx fold.endIdx).2 (latestUserTurnStart messages)

def summaryMessage (fold : Fold) : ChatMessage := ChatMessage.ofAssistant fold.summary

/-- The loop over the folds is the one-pass replacement of their clipped ranges. -/
theorem projectionFrom_eq_replaceSpans (messages : List ChatMessage) (folds : List Fold)
    {cursor : ℕ} (hcursor : cursor ≤ latestUserTurnStart messages) :
    projectionFrom messages (latestUserTurnStart messages) folds cursor =
      replaceSpans (foldStart messages) (foldStop messages) messages summaryMessage folds cursor := by
  induction folds generalizing cursor with
  | nil => rfl
  | cons fold folds ih =>
    have hstop : foldStop messages fold ≤ latestUserTurnStart messages := min_le_right _ _
    have hstep : projectionFrom messages (latestUserTurnStart messages) (fold :: folds) cursor =
        if latestUserTurnStart messages ≤ foldStart messages fold then
          projectionFrom messages (latestUserTurnStart messages) folds cursor
        else if foldStart messages fold < cursor then
          if cursor < foldStop messages fold then
            summaryMessage fold :: projectionFrom messages (latestUserTurnStart messages) folds
              (foldStop messages fold)
          else projectionFrom messages (latestUserTurnStart messages) folds cursor
        else if foldStop messages fold ≤ foldStart messages fold then
          projectionFrom messages (latestUserTurnStart messages) folds cursor
        else
          (messages.take (foldStart messages fold)).drop cursor ++ summaryMessage fold ::
            projectionFrom messages (latestUserTurnStart messages) folds
              (max (foldStop messages fold) cursor) := rfl
    rw [hstep, replaceSpans, ih hcursor, ih hstop]
    split_ifs
    · omega
    · omega
    · rfl
    · omega
    · rfl
    · rfl
    · rfl
    · rw [max_eq_left (by omega), ih hstop]

theorem projection_eq_replaceSpans (messages : List ChatMessage) (s : CompactionState) :
    projection messages s =
      replaceSpans (foldStart messages) (foldStop messages) messages summaryMessage s.folds 0 := by
  rw [projection]
  split_ifs with h
  · rw [List.isEmpty_iff.mp h]
    rfl
  · exact projectionFrom_eq_replaceSpans messages s.folds (Nat.zero_le _)

/-- No call is pending at a turn boundary of a valid log. -/
theorem cut_of_isTurnBoundary {messages : List ChatMessage} (hvalid : ToolProtocolValid messages)
    {i : ℕ} (h : IsTurnBoundary messages i) : Cut protocolStep [] messages i := by
  rcases h with rfl | rfl | huser
  · rfl
  · rw [Cut, List.take_length]
    exact hvalid
  · obtain ⟨m, hm, hrole⟩ := isUserAt_eq_true.mp huser
    obtain ⟨hlt, hget⟩ := List.getElem?_eq_some_iff.mp hm
    have hsplit := List.take_append_drop i messages
    rw [List.drop_eq_getElem_cons hlt, hget] at hsplit
    rw [ToolProtocolValid, ← hsplit, List.foldlM_append] at hvalid
    rw [Cut]
    cases hpending : (messages.take i).foldlM protocolStep [] with
    | none => simp [hpending] at hvalid
    | some pending =>
      simp only [hpending, Option.bind_eq_bind, Option.bind_some, List.foldlM_cons] at hvalid
      cases hnext : protocolStep pending m with
      | none => simp [hnext] at hvalid
      | some next => rw [(pending_eq_nil_of_user hrole hnext).1]

theorem foldStart_boundary (messages : List ChatMessage) (fold : Fold) :
    IsTurnBoundary messages (foldStart messages fold) := alignFoldRange_start_boundary _ _ _

theorem foldStop_boundary (messages : List ChatMessage) (fold : Fold) :
    IsTurnBoundary messages (foldStop messages fold) := by
  rw [foldStop]
  rcases min_choice (alignFoldRange messages fold.startIdx fold.endIdx).2
    (latestUserTurnStart messages) with h | h <;> rw [h]
  · exact extendEndToTurnBoundary_boundary _ _
  · exact latestUserTurnStart_boundary _

/-- The projection of sorted folds, as runs of covered messages between verbatim ones. -/
theorem exists_projection_runs (messages : List ChatMessage) {s : CompactionState}
    (hsorted : s.folds.Pairwise fun f g => f.startIdx ≤ g.startIdx) :
    ∃ runs, Replaced (foldStart messages) (foldStop messages) messages summaryMessage s.folds
      (projection messages s) runs := by
  rw [projection_eq_replaceSpans]
  exact exists_replaced messages summaryMessage
    (hsorted.imp fun h => alignFoldRange_start_mono messages _ _ h)

section
variable {messages : List ChatMessage} {s : CompactionState} {runs : List (Run Fold)}

theorem run_last_le (h : Replaced (foldStart messages) (foldStop messages) messages summaryMessage
    s.folds (projection messages s) runs) {r : Run Fold} (hr : r ∈ runs) :
    r.last ≤ latestUserTurnStart messages := by
  obtain ⟨fold, -, hstop⟩ := h.last r hr
  rw [← hstop]
  exact min_le_right _ _

/-- The latest user message and everything behind it stay as they are. -/
theorem activeTurn_suffix (h : Replaced (foldStart messages) (foldStop messages) messages
    summaryMessage s.folds (projection messages s) runs) :
    messages.drop (latestUserTurnStart messages) <:+ projection messages s := by
  rw [h.out]
  exact drop_suffix_weave messages summaryMessage (Nat.zero_le _) fun r hr => run_last_le h hr

theorem projection_toolProtocolValid (h : Replaced (foldStart messages) (foldStop messages)
    messages summaryMessage s.folds (projection messages s) runs)
    (hvalid : ToolProtocolValid messages) : ToolProtocolValid (projection messages s) := by
  rw [h.out]
  refine foldlM_weave (fun _ => rfl) hvalid rfl h.separated fun r hr => ⟨?_, ?_⟩
  · obtain ⟨fold, -, hstart⟩ := h.first r hr
    exact hstart ▸ cut_of_isTurnBoundary hvalid (foldStart_boundary messages fold)
  · obtain ⟨fold, -, hstop⟩ := h.last r hr
    exact hstop ▸ cut_of_isTurnBoundary hvalid (foldStop_boundary messages fold)

end
/-- The projection shows the messages outside of the turn-aligned and clipped fold ranges
verbatim and in order, and for every maximal run of covered messages the summaries of the folds
that extend the coverage. The active turn stays as it is, and a valid log stays valid. -/
theorem projection_replaces_covered_runs (messages : List ChatMessage) (s : CompactionState)
    (hsorted : s.folds.Pairwise fun f g => f.startIdx ≤ g.startIdx) :
    (∃ runs, Replaced (foldStart messages) (foldStop messages) messages summaryMessage s.folds
        (projection messages s) runs ∧ ∀ r ∈ runs, r.spans ≠ []) ∧
      messages.drop (latestUserTurnStart messages) <:+ projection messages s ∧
      (ToolProtocolValid messages → ToolProtocolValid (projection messages s)) := by
  obtain ⟨runs, h⟩ := exists_projection_runs messages hsorted
  refine ⟨⟨runs, h, fun r hr hnil => ?_⟩, activeTurn_suffix h, projection_toolProtocolValid h⟩
  obtain ⟨fold, hfold, -⟩ := h.first r hr
  rw [hnil] at hfold
  cases hfold

theorem projection_replaces_covered_runs_overlap :
    let messages := [ChatMessage.ofUser "a".toList, ChatMessage.ofAssistant "b".toList,
      ChatMessage.ofUser "c".toList, ChatMessage.ofUser "d".toList]
    let s : CompactionState := ⟨[⟨0, 1, "x".toList, 1⟩, ⟨1, 3, "y".toList, 1⟩], 2⟩
    s.folds.Pairwise (fun f g => f.startIdx ≤ g.startIdx) ∧
      ToolProtocolValid (projection messages s) ∧
      projection messages s = [ChatMessage.ofAssistant "x".toList,
        ChatMessage.ofAssistant "y".toList, ChatMessage.ofUser "d".toList] := by
  intro messages s
  have hsorted : s.folds.Pairwise fun f g => f.startIdx ≤ g.startIdx := by simp [s]
  exact ⟨hsorted, (projection_replaces_covered_runs messages s hsorted).2.2 (by decide), by decide⟩

end DeepseekScience.Compact
