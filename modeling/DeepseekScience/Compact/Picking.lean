import DeepseekScience.Compact.Chain

/-! The chunk that is picked for the next fold lies in the first gap of the turn-aligned fold
ranges, whatever the folds are. Recording it replaces its messages in the projection, and with
folds in the order of their starts it replaces nothing else. -/
namespace DeepseekScience.Compact

open SpanCover

/-- Some fold, once aligned to whole turns, hides the message. -/
def Hidden (messages : List ChatMessage) (s : CompactionState) (i : ℕ) : Prop :=
  ∃ fold ∈ s.folds, (alignFoldRange messages fold.startIdx fold.endIdx).1 ≤ i ∧
    i < (alignFoldRange messages fold.startIdx fold.endIdx).2

/-- Recording the fold replaces the messages of its range by its summary. -/
def ReplacesExactly (messages : List ChatMessage) (s : CompactionState) (fold : Fold) : Prop :=
  ∃ before after,
    projection messages s =
      before ++ chunkOf messages (fold.startIdx, fold.endIdx) ++ after ∧
    projection messages (s.recordFold fold) = before ++ summaryMessage fold :: after

/-- A gap between sorted ranges: where it starts, where it ends, and that nothing is in it. -/
theorem unfoldedSpanFrom_spec {foldableEnd : ℕ} {ranges : List (ℕ × ℕ)} {cursor : ℕ}
    (hsorted : ranges.Pairwise fun r q => r.1 ≤ q.1) {first last : ℕ}
    (h : unfoldedSpanFrom foldableEnd ranges cursor = some (first, last)) :
    cursor ≤ first ∧ first < last ∧ last ≤ foldableEnd ∧
      (first = cursor ∨ ∃ r ∈ ranges, r.2 = first) ∧
      (last = foldableEnd ∨ ∃ r ∈ ranges, r.1 = last) ∧
      ∀ r ∈ ranges, r.2 ≤ first ∨ last ≤ r.1 := by
  induction ranges generalizing cursor with
  | nil =>
    rw [unfoldedSpanFrom] at h
    split_ifs at h with hlt
    obtain ⟨rfl, rfl⟩ : cursor = first ∧ foldableEnd = last := by simpa using h
    exact ⟨le_rfl, hlt, le_rfl, Or.inl rfl, Or.inl rfl, fun r hr => absurd hr List.not_mem_nil⟩
  | cons range ranges ih =>
    obtain ⟨start, stop⟩ := range
    obtain ⟨hhead, htail⟩ := List.pairwise_cons.mp hsorted
    rw [unfoldedSpanFrom] at h
    simp only at h
    split_ifs at h with hgap hend
    · obtain ⟨rfl, rfl⟩ : cursor = first ∧ min start foldableEnd = last := by simpa using h
      refine ⟨le_rfl, hgap, min_le_right _ _, Or.inl rfl, ?_, fun r hr => Or.inr ?_⟩
      · rcases min_choice start foldableEnd with he | he
        · exact Or.inr ⟨(start, stop), List.mem_cons_self, he.symm⟩
        · exact Or.inl he
      · rcases List.mem_cons.mp hr with rfl | hr
        · exact min_le_left _ _
        · exact le_trans (min_le_left _ _) (hhead r hr)
    · obtain ⟨hcursor, hlt, hle, hfirst, hlast, hclear⟩ := ih htail h
      obtain ⟨hcur, hmin⟩ := max_le_iff.mp hcursor
      have hstop : stop ≤ first := by
        rcases min_le_iff.mp hmin with hs | hs
        · exact hs
        · exact absurd (hs.trans_lt (hlt.trans_le hle)) (lt_irrefl _)
      refine ⟨hcur, hlt, hle, ?_, ?_, fun r hr => ?_⟩
      · rcases hfirst with he | ⟨r, hr, he⟩
        · rcases max_choice cursor (min stop foldableEnd) with hm | hm
          · exact Or.inl (he.trans hm)
          · exact Or.inr ⟨(start, stop), List.mem_cons_self,
              le_antisymm hstop (he.trans hm ▸ min_le_left _ _)⟩
        · exact Or.inr ⟨r, List.mem_cons_of_mem _ hr, he⟩
      · rcases hlast with he | ⟨r, hr, he⟩
        · exact Or.inl he
        · exact Or.inr ⟨r, List.mem_cons_of_mem _ hr, he⟩
      · rcases List.mem_cons.mp hr with rfl | hr
        · exact Or.inl hstop
        · exact hclear r hr

section
variable {messages : List ChatMessage} {s : CompactionState} {first last : ℕ}

/-- The first gap of the aligned fold ranges in front of the active turn. -/
structure FirstGap (messages : List ChatMessage) (s : CompactionState) (first last : ℕ) : Prop where
  lt : first < last
  le : last ≤ latestUserTurnStart messages
  starts : first = 0 ∨ ∃ fold ∈ s.folds,
    (alignFoldRange messages fold.startIdx fold.endIdx).1 < first ∧
      (alignFoldRange messages fold.startIdx fold.endIdx).2 = first
  ends : last = latestUserTurnStart messages ∨ ∃ fold ∈ s.folds,
    (alignFoldRange messages fold.startIdx fold.endIdx).1 = last
  clear : ∀ fold ∈ s.folds,
    (alignFoldRange messages fold.startIdx fold.endIdx).1 <
      (alignFoldRange messages fold.startIdx fold.endIdx).2 →
    (alignFoldRange messages fold.startIdx fold.endIdx).2 ≤ first ∨
      last ≤ (alignFoldRange messages fold.startIdx fold.endIdx).1

theorem firstUnfoldedSpan_spec
    (h : firstUnfoldedSpan messages s (latestUserTurnStart messages) = some (first, last)) :
    FirstGap messages s first last := by
  rw [firstUnfoldedSpan] at h
  split_ifs at h with hzero
  simp only at h
  generalize hranges : ((s.folds.map fun fold => alignFoldRange messages fold.startIdx
    fold.endIdx).filter fun r => decide (r.1 < r.2)).mergeSort
      (fun r q => decide (r.1 < q.1 ∨ r.1 = q.1 ∧ r.2 ≤ q.2)) = ranges at h
  have hmem : ∀ r, r ∈ ranges ↔ r.1 < r.2 ∧
      ∃ fold ∈ s.folds, alignFoldRange messages fold.startIdx fold.endIdx = r := by
    intro r
    rw [← hranges, List.mem_mergeSort, List.mem_filter, List.mem_map]
    simp only [decide_eq_true_eq]
    tauto
  have hsorted : ranges.Pairwise fun r q => r.1 ≤ q.1 := by
    rw [← hranges]
    refine (List.pairwise_mergeSort ?_ ?_ _).imp ?_
    · intro a b c hab hbc
      simp only [decide_eq_true_eq] at hab hbc ⊢
      omega
    · intro a b
      simp only [Bool.or_eq_true, decide_eq_true_eq]
      omega
    · intro a b hab
      simp only [decide_eq_true_eq] at hab
      omega
  obtain ⟨-, hlt, hle, hfirst, hlast, hclear⟩ := unfoldedSpanFrom_spec hsorted h
  refine ⟨hlt, hle, ?_, ?_, ?_⟩
  · rcases hfirst with he | ⟨r, hr, he⟩
    · exact Or.inl he
    · obtain ⟨hr, fold, hfold, rfl⟩ := (hmem r).mp hr
      exact Or.inr ⟨fold, hfold, he ▸ hr, he⟩
  · rcases hlast with he | ⟨r, hr, he⟩
    · exact Or.inl he
    · obtain ⟨-, fold, hfold, rfl⟩ := (hmem r).mp hr
      exact Or.inr ⟨fold, hfold, he⟩
  · intro fold hfold hne
    exact hclear _ ((hmem _).mpr ⟨hne, fold, hfold, rfl⟩)

theorem alignFoldRange_stop_boundary (messages : List ChatMessage) (start stop : ℕ) :
    IsTurnBoundary messages (alignFoldRange messages start stop).2 :=
  extendEndToTurnBoundary_boundary _ _

theorem FirstGap.first_boundary (h : FirstGap messages s first last) :
    IsTurnBoundary messages first := by
  rcases h.starts with rfl | ⟨fold, -, -, he⟩
  · exact Or.inl rfl
  · exact he ▸ alignFoldRange_stop_boundary _ _ _

theorem FirstGap.last_boundary (h : FirstGap messages s first last) :
    IsTurnBoundary messages last := by
  rcases h.ends with he | ⟨fold, -, he⟩
  · exact he ▸ latestUserTurnStart_boundary _
  · exact he ▸ alignFoldRange_start_boundary _ _ _

/-- A chunk is the front part of its span, and ends on a turn boundary. -/
theorem pickChunkFrom_bounds {minTokens start spanEnd : ℕ}
    (hboundary : IsTurnBoundary messages spanEnd) (hlen : spanEnd ≤ messages.length)
    (rest : List ChatMessage) {acc stop : ℕ} {range : ℕ × ℕ} (hstart : start ≤ stop)
    (hrest : stop + rest.length = spanEnd)
    (h : pickChunkFrom messages minTokens start spanEnd rest acc stop = some range) :
    range.1 = start ∧ start < range.2 ∧ range.2 ≤ spanEnd ∧ IsTurnBoundary messages range.2 := by
  induction rest generalizing acc stop with
  | nil =>
    rw [pickChunkFrom] at h
    split_ifs at h with hlt
    obtain rfl : (start, stop) = range := by simpa using h
    obtain rfl : stop = spanEnd := by simpa using hrest
    exact ⟨rfl, hlt, le_rfl, hboundary⟩
  | cons m rest ih =>
    rw [pickChunkFrom] at h
    simp only [List.length_cons] at hrest
    split_ifs at h
    · obtain rfl : (start, min (extendEndToTurnBoundary messages (stop + 1)) spanEnd) = range := by
        simpa using h
      have hle := min_le_extendEndToTurnBoundary messages (stop + 1)
      refine ⟨rfl, by simp only; omega, min_le_right _ _, ?_⟩
      rcases min_choice (extendEndToTurnBoundary messages (stop + 1)) spanEnd with he | he
      · rw [he]
        exact extendEndToTurnBoundary_boundary _ _
      · rw [he]
        exact hboundary
    · exact ih (by omega) (by omega) h

theorem latestUserTurnStart_le_length (messages : List ChatMessage) :
    latestUserTurnStart messages ≤ messages.length := by
  rw [latestUserTurnStart]
  cases hpos : rpositionUser messages with
  | none => exact le_rfl
  | some i => exact (lt_length_of_isUserAt (rpositionUser_eq_some hpos).1).le

theorem pickNextChunk_spec {minTokens : ℕ} {range : ℕ × ℕ}
    (h : pickNextChunkWithMinTokens messages s minTokens = some range) :
    ∃ last, FirstGap messages s range.1 last ∧ range.1 < range.2 ∧ range.2 ≤ last ∧
      IsTurnBoundary messages range.2 := by
  rw [pickNextChunkWithMinTokens] at h
  split at h
  · cases h
  · rename_i start spanEnd hspan
    have hgap := firstUnfoldedSpan_spec hspan
    have hlen := hgap.le.trans (latestUserTurnStart_le_length messages)
    have hlt := hgap.lt
    rw [if_neg (by omega)] at h
    obtain ⟨hstart, hlt, hle, hboundary⟩ := pickChunkFrom_bounds hgap.last_boundary hlen _ le_rfl
      (by
        rw [List.length_drop, List.length_take]
        omega) h
    exact ⟨spanEnd, hstart ▸ hgap, hstart ▸ hlt, hle, hboundary⟩

/-- A range between turn boundaries is aligned already. -/
theorem alignFoldRange_of_boundaries {start stop : ℕ} (hstart : IsTurnBoundary messages start)
    (hstop : IsTurnBoundary messages stop) (hlt : start < stop) (hle : stop ≤ messages.length) :
    alignFoldRange messages start stop = (start, stop) := by
  have hmin : min start messages.length = start := by omega
  have hfirst : (if start < messages.length && !isUserAt messages start then
      stepBackToUser messages start else start) = start := by
    rcases hstart with h | h | h
    · rw [h]
      split_ifs <;> rfl
    · omega
    · simp [h]
  have hlast : extendEndToTurnBoundary messages stop = stop := by
    rcases hstop with h | h | h
    · omega
    · simp [extendEndToTurnBoundary, h]
    · exact extendEndToTurnBoundary_eq_self h
  simp only [alignFoldRange, hmin, hfirst, max_eq_left hlt.le, hlast]

/-- A list with one entry more has it in one place. -/
theorem exists_insert_of_sublist {α : Type} {l r : List α} (h : l.Sublist r)
    (hlen : r.length = l.length + 1) : ∃ front x back, r = front ++ x :: back ∧ l = front ++ back := by
  induction h with
  | slnil => simp at hlen
  | @cons l r a h _ =>
    have heq : l = r := h.eq_of_length (by simpa using hlen.symm)
    exact ⟨[], a, r, rfl, heq⟩
  | @cons_cons l r a h ih =>
    obtain ⟨front, x, back, rfl, rfl⟩ := ih (by simpa using hlen)
    exact ⟨a :: front, x, back, rfl, rfl⟩

/-- Recording keeps the order of sorted folds, and puts the new one in its place. -/
theorem recordFold_sorted (hsorted : s.folds.Pairwise fun f g => f.startIdx ≤ g.startIdx)
    (fold : Fold) :
    ∃ front back, s.folds = front ++ back ∧ (s.recordFold fold).folds = front ++ fold :: back ∧
      (∀ f ∈ front, f.startIdx ≤ fold.startIdx) ∧ ∀ f ∈ back, fold.startIdx ≤ f.startIdx := by
  have htrans : ∀ a b c : Fold, decide (a.startIdx ≤ b.startIdx) = true →
      decide (b.startIdx ≤ c.startIdx) = true → decide (a.startIdx ≤ c.startIdx) = true := by
    intro a b c hab hbc
    simp only [decide_eq_true_eq] at hab hbc ⊢
    omega
  have htotal : ∀ a b : Fold,
      (decide (a.startIdx ≤ b.startIdx) || decide (b.startIdx ≤ a.startIdx)) = true := by
    intro a b
    simp only [Bool.or_eq_true, decide_eq_true_eq]
    omega
  have hrecord : (s.recordFold fold).folds =
      (s.folds ++ [fold]).mergeSort fun f g => decide (f.startIdx ≤ g.startIdx) := rfl
  have hsub : s.folds.Sublist (s.recordFold fold).folds := by
    rw [hrecord]
    exact List.sublist_mergeSort htrans htotal (hsorted.imp fun h => by simpa using h)
      (List.sublist_append_left _ _)
  have hperm : (s.recordFold fold).folds.Perm (s.folds ++ [fold]) := by
    rw [hrecord]
    exact List.mergeSort_perm _ _
  obtain ⟨front, x, back, hfolds, hsplit⟩ := exists_insert_of_sublist hsub
    (by rw [hperm.length_eq, List.length_append, List.length_singleton])
  have hx : x = fold := by
    rw [hfolds, hsplit] at hperm
    have hcons : (x :: (front ++ back)).Perm (fold :: (front ++ back)) :=
      (List.perm_middle.symm.trans hperm).trans (List.perm_append_singleton _ _)
    exact List.singleton_perm_singleton.mp
      ((List.perm_append_right_iff (front ++ back)).mp hcons)
  subst hx
  have hpairs : (front ++ x :: back).Pairwise fun f g => f.startIdx ≤ g.startIdx := by
    rw [← hfolds, hrecord]
    exact (List.pairwise_mergeSort htrans htotal _).imp fun h => by simpa using h
  obtain ⟨-, hback, hfront⟩ := List.pairwise_append.mp hpairs
  exact ⟨front, back, hsplit, hfolds, fun f hf => hfront f hf x List.mem_cons_self,
    (List.pairwise_cons.mp hback).1⟩

/-- With sorted folds, a fold that starts the first gap replaces just its own messages. -/
theorem FirstGap.replacesExactly (h : FirstGap messages s first last)
    (hsorted : s.folds.Pairwise fun f g => f.startIdx ≤ g.startIdx) {fold : Fold}
    (hstart : fold.startIdx = first) (hlt : first < fold.endIdx) (hle : fold.endIdx ≤ last)
    (hboundary : IsTurnBoundary messages fold.endIdx) : ReplacesExactly messages s fold := by
  subst hstart
  have hlen := h.le.trans (latestUserTurnStart_le_length messages)
  have halign := alignFoldRange_of_boundaries h.first_boundary hboundary hlt (hle.trans hlen)
  have hfirst : foldStart messages fold = fold.startIdx := by rw [foldStart, halign]
  have hstop : foldStop messages fold = fold.endIdx := by
    rw [foldStop, halign, min_eq_left (hle.trans h.le)]
  obtain ⟨front, back, hfolds, hrecord, hfront, hback⟩ := recordFold_sorted hsorted fold
  have hnonempty : ∀ f, foldStart messages f < foldStop messages f →
      (alignFoldRange messages f.startIdx f.endIdx).1 <
        (alignFoldRange messages f.startIdx f.endIdx).2 :=
    fun f hf => lt_of_lt_of_le hf (min_le_left _ _)
  have hbefore : ∀ f ∈ back, fold.startIdx ≤ foldStart messages f := by
    intro f hf
    rw [← hfirst]
    exact alignFoldRange_start_mono messages _ _ (hback f hf)
  have hcursor : cursorAfter (foldStart messages) (foldStop messages) front 0 =
      fold.startIdx := by
    apply le_antisymm
    · apply cursorAfter_le (Nat.zero_le _)
      intro f hf hne
      rcases h.clear f (by rw [hfolds]; exact List.mem_append_left _ hf) (hnonempty f hne)
        with hs | hs
      · exact (min_le_left _ _).trans hs
      · have := alignFoldRange_start_le messages f.startIdx f.endIdx
        have := hfront f hf
        have := h.lt
        omega
    · rcases h.starts with hzero | ⟨f, hf, hbelow, hends⟩
      · rw [hzero]
        exact Nat.zero_le _
      · have hmem : f ∈ front := by
          rw [hfolds] at hf
          rcases List.mem_append.mp hf with hf | hf
          · exact hf
          · exact absurd hbelow (not_lt.mpr (hbefore f hf))
        have hfstop : foldStop messages f = fold.startIdx := by
          rw [foldStop, hends, min_eq_left (h.lt.le.trans h.le)]
        have hne : foldStart messages f < foldStop messages f := by
          rw [hfstop]
          exact hbelow
        exact hfstop ▸ stop_le_cursorAfter hmem hne 0
  have hbehind : ∀ f ∈ back, foldStart messages f < foldStop messages f →
      foldStop messages fold ≤ foldStart messages f := by
    intro f hf hne
    rcases h.clear f (by rw [hfolds]; exact List.mem_append_right _ hf) (hnonempty f hne)
      with hs | hs
    · exact absurd (lt_of_lt_of_le (hnonempty f hne) hs) (not_lt.mpr (hbefore f hf))
    · exact (hstop.le.trans hle).trans hs
  obtain ⟨before, after, hold, hnew⟩ := replaceSpans_insert messages summaryMessage
    (by rw [hfirst, hstop]; exact hlt) (hcursor.trans hfirst.symm) hbehind
  rw [hfirst, hstop, ← hfolds, ← projection_eq_replaceSpans] at hold
  rw [← hrecord, ← projection_eq_replaceSpans] at hnew
  exact ⟨before, after, hold, hnew⟩

end
/-- The picked range is not empty, touches no hidden message, starts and ends on turn boundaries
and does not reach into the active turn. Where the folds are in the order of their starts,
recording it replaces its messages by the summary, and nothing else. -/
theorem pickNextChunk_agrees_with_projection (messages : List ChatMessage) (s : CompactionState)
    (minTokens : ℕ) (range : ℕ × ℕ)
    (h : pickNextChunkWithMinTokens messages s minTokens = some range) :
    range.1 < range.2 ∧ (∀ i, range.1 ≤ i → i < range.2 → ¬ Hidden messages s i) ∧
      IsTurnBoundary messages range.1 ∧ IsTurnBoundary messages range.2 ∧
      range.2 ≤ latestUserTurnStart messages ∧
      ((s.folds.Pairwise fun f g => f.startIdx ≤ g.startIdx) → ∀ summary level,
        ReplacesExactly messages s ⟨range.1, range.2, summary, level⟩) := by
  obtain ⟨last, hgap, hlt, hle, hboundary⟩ := pickNextChunk_spec h
  refine ⟨hlt, ?_, hgap.first_boundary, hboundary, hle.trans hgap.le, ?_⟩
  · rintro i hfirst hlast ⟨fold, hfold, hstart, hstop⟩
    rcases hgap.clear fold hfold (by omega) with hs | hs
    · omega
    · omega
  · intro hsorted summary level
    exact hgap.replacesExactly hsorted rfl hlt hle hboundary

def fourTurns : List ChatMessage :=
  [ChatMessage.ofUser "a".toList, ChatMessage.ofUser "b".toList, ChatMessage.ofUser "c".toList,
    ChatMessage.ofUser "d".toList]

theorem pickNextChunk_agrees_with_projection_fourTurns :
    ReplacesExactly fourTurns ⟨[⟨0, 1, "first".toList, 1⟩], 1⟩ ⟨1, 3, "rest".toList, 1⟩ := by
  have hspan : firstUnfoldedSpan fourTurns ⟨[⟨0, 1, "first".toList, 1⟩], 1⟩
      (latestUserTurnStart fourTurns) = some (1, 3) := by
    have hranges : (([⟨0, 1, "first".toList, 1⟩] : List Fold).map fun fold =>
        alignFoldRange fourTurns fold.startIdx fold.endIdx).filter
          (fun r => decide (r.1 < r.2)) = [(0, 1)] := by decide
    simp only [firstUnfoldedSpan, hranges, List.mergeSort_singleton]
    decide
  have hpick : pickNextChunkWithMinTokens fourTurns ⟨[⟨0, 1, "first".toList, 1⟩], 1⟩ 0 =
      some (1, 3) := by
    simp only [pickNextChunkWithMinTokens, hspan]
    decide
  exact (pickNextChunk_agrees_with_projection fourTurns _ 0 (1, 3) hpick).2.2.2.2.2
    (List.pairwise_singleton _ _) _ _

/-- The folds of the third and of the first turn, in that order. -/
def unsortedState : CompactionState :=
  ⟨[⟨2, 3, "third".toList, 1⟩, ⟨0, 1, "first".toList, 1⟩], 2⟩

theorem unsortedState_pick : pickNextChunkWithMinTokens fourTurns unsortedState 0 = some (1, 2) := by
  have hranges : ((unsortedState.folds.map fun fold => alignFoldRange fourTurns fold.startIdx
      fold.endIdx).filter fun r => decide (r.1 < r.2)) = [(2, 3), (0, 1)] := by decide
  have hsorted : ([(2, 3), (0, 1)] : List (ℕ × ℕ)).mergeSort
      (fun r q => decide (r.1 < q.1 ∨ r.1 = q.1 ∧ r.2 ≤ q.2)) = [(0, 1), (2, 3)] := by
    simp [List.mergeSort, List.MergeSort.Internal.splitInTwo]
  have hspan : firstUnfoldedSpan fourTurns unsortedState (latestUserTurnStart fourTurns) =
      some (1, 2) := by
    simp only [firstUnfoldedSpan, hranges, hsorted]
    decide
  simp only [pickNextChunkWithMinTokens, hspan]
  decide

/-- The projection goes through the folds as they are stored, and recording a fold sorts them:
the summary of the first turn appears with the new fold. -/
theorem unsortedState_not_replacesExactly :
    pickNextChunkWithMinTokens fourTurns unsortedState 0 = some (1, 2) ∧
      ¬ ReplacesExactly fourTurns unsortedState ⟨1, 2, "second".toList, 1⟩ := by
  refine ⟨unsortedState_pick, ?_⟩
  rintro ⟨before, after, hold, hnew⟩
  have hold' : projection fourTurns unsortedState = [ChatMessage.ofUser "a".toList,
      ChatMessage.ofUser "b".toList, ChatMessage.ofAssistant "third".toList,
      ChatMessage.ofUser "d".toList] := by decide
  have hnew' : projection fourTurns (unsortedState.recordFold ⟨1, 2, "second".toList, 1⟩) =
      [ChatMessage.ofAssistant "first".toList, ChatMessage.ofAssistant "second".toList,
        ChatMessage.ofAssistant "third".toList, ChatMessage.ofUser "d".toList] := by
    have hfolds : (unsortedState.recordFold ⟨1, 2, "second".toList, 1⟩).folds =
        [⟨0, 1, "first".toList, 1⟩, ⟨1, 2, "second".toList, 1⟩, ⟨2, 3, "third".toList, 1⟩] := by
      simp [CompactionState.recordFold, unsortedState, List.mergeSort,
        List.MergeSort.Internal.splitInTwo]
    rw [projection, hfolds]
    decide
  rw [hold'] at hold
  rw [hnew'] at hnew
  cases before with
  | nil => simp [chunkOf, fourTurns, ChatMessage.ofUser] at hold
  | cons m before =>
    rw [List.cons_append, List.cons_append] at hold
    rw [List.cons_append] at hnew
    have hfirst := (List.cons.inj hold).1.trans (List.cons.inj hnew).1.symm
    exact absurd hfirst (by decide)

end DeepseekScience.Compact
