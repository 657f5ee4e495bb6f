import DeepseekScience.Compact.Rolling

/-! Rolling compaction over a whole session: the folds form a contiguous chain of user turns
that later messages cannot reach, every committed fold shrinks the projection, and appended
messages go through the projection unchanged. -/
namespace DeepseekScience.Compact

open SpanCover

/-- Folds that follow each other without a gap from `from'` on and end at user messages. -/
def Chained (messages : List ChatMessage) : ℕ → List Fold → Prop
  | _, [] => True
  | from', f :: folds =>
    f.startIdx = from' ∧ f.startIdx < f.endIdx ∧ isUserAt messages f.endIdx = true ∧
      Chained messages f.endIdx folds

/-- The end of a chain. -/
def chainEnd : ℕ → List Fold → ℕ
  | from', [] => from'
  | _, f :: folds => chainEnd f.endIdx folds

/-- A start of a fold in a chain: the start of the log or a user message. -/
def IsChainStart (messages : List ChatMessage) (i : ℕ) : Prop :=
  i = 0 ∨ isUserAt messages i = true

section
variable {messages : List ChatMessage} {from' : ℕ} {folds : List Fold}

theorem Chained.append (h : Chained messages from' folds) (added : List ChatMessage) :
    Chained (messages ++ added) from' folds := by
  induction folds generalizing from' with
  | nil => trivial
  | cons f folds ih =>
    obtain ⟨hstart, hlt, huser, hrest⟩ := h
    refine ⟨hstart, hlt, ?_, ih hrest⟩
    rwa [isUserAt_append_left (lt_length_of_isUserAt huser)]

theorem Chained.snoc (h : Chained messages from' folds) {f : Fold}
    (hstart : f.startIdx = chainEnd from' folds) (hlt : f.startIdx < f.endIdx)
    (huser : isUserAt messages f.endIdx = true) : Chained messages from' (folds ++ [f]) := by
  induction folds generalizing from' with
  | nil => exact ⟨hstart, hlt, huser, trivial⟩
  | cons g folds ih => exact ⟨h.1, h.2.1, h.2.2.1, ih h.2.2.2 hstart⟩

theorem chainEnd_snoc (from' : ℕ) (folds : List Fold) (f : Fold) :
    chainEnd from' (folds ++ [f]) = f.endIdx := by
  induction folds generalizing from' with
  | nil => rfl
  | cons g folds ih => exact ih g.endIdx

theorem Chained.le_chainEnd (h : Chained messages from' folds) : from' ≤ chainEnd from' folds := by
  induction folds generalizing from' with
  | nil => exact le_rfl
  | cons f folds ih =>
    have h1 := h.1
    have h2 := h.2.1
    exact le_trans (by omega) (ih h.2.2.2)

theorem Chained.mem (h : Chained messages from' folds) (hfrom : IsChainStart messages from')
    {f : Fold} (hf : f ∈ folds) : IsChainStart messages f.startIdx ∧
      from' ≤ f.startIdx ∧ f.startIdx < f.endIdx ∧ isUserAt messages f.endIdx = true := by
  induction folds generalizing from' with
  | nil => cases hf
  | cons g folds ih =>
    obtain ⟨hstart, hlt, huser, hrest⟩ := h
    rcases List.mem_cons.mp hf with rfl | hf
    · exact ⟨hstart ▸ hfrom, hstart.ge, hlt, huser⟩
    · have := ih hrest (Or.inr huser) hf
      exact ⟨this.1, by omega, this.2.2⟩

theorem Chained.sorted (h : Chained messages from' folds) :
    folds.Pairwise fun f g => f.startIdx < g.startIdx := by
  induction folds generalizing from' with
  | nil => exact List.Pairwise.nil
  | cons f folds ih =>
    refine List.pairwise_cons.mpr ⟨fun g hg => ?_, ih h.2.2.2⟩
    have := h.2.2.2.mem (Or.inr h.2.2.1) hg
    have := h.2.1
    omega

theorem Chained.chainEnd_isUser (h : Chained messages from' folds) :
    chainEnd from' folds = from' ∨ isUserAt messages (chainEnd from' folds) = true := by
  induction folds generalizing from' with
  | nil => exact Or.inl rfl
  | cons f folds ih =>
    rcases ih h.2.2.2 with he | he
    · exact Or.inr (by rw [chainEnd, he]; exact h.2.2.1)
    · exact Or.inr he

end

/-- Normalization leaves the range of a fold in a chain alone. -/
theorem alignFoldRange_chained {messages : List ChatMessage} {f : Fold}
    (hstart : IsChainStart messages f.startIdx) (hlt : f.startIdx < f.endIdx)
    (huser : isUserAt messages f.endIdx = true) :
    alignFoldRange messages f.startIdx f.endIdx = (f.startIdx, f.endIdx) := by
  have hlen := lt_length_of_isUserAt huser
  have hmin : min f.startIdx messages.length = f.startIdx := by omega
  have haligned : (if f.startIdx < messages.length && !isUserAt messages f.startIdx then
      stepBackToUser messages f.startIdx else f.startIdx) = f.startIdx := by
    rcases hstart with h | h
    · rw [h]
      split_ifs <;> rfl
    · simp [h]
  simp only [alignFoldRange, hmin, haligned, max_eq_left hlt.le,
    extendEndToTurnBoundary_eq_self huser]

/-- The view of a chained log: the summaries, and the log behind the chain. -/
theorem projection_chained {messages : List ChatMessage} {s : CompactionState}
    (h : Chained messages 0 s.folds) :
    projection messages s =
      s.folds.map summaryMessage ++ messages.drop (chainEnd 0 s.folds) := by
  rw [projection_eq_replaceSpans]
  suffices hall : ∀ folds from', Chained messages from' folds → IsChainStart messages from' →
      replaceSpans (foldStart messages) (foldStop messages) messages summaryMessage folds from' =
        folds.map summaryMessage ++ messages.drop (chainEnd from' folds) from
    hall s.folds 0 h (Or.inl rfl)
  intro folds
  induction folds with
  | nil => intros; rfl
  | cons f folds ih =>
    intro from' hchain hfrom
    obtain ⟨hstart, hlt, huser, hrest⟩ := hchain
    have halign := alignFoldRange_chained (hstart ▸ hfrom) hlt huser
    have hfirst : foldStart messages f = from' := by rw [foldStart, halign, hstart]
    have hlast : foldStop messages f = f.endIdx := by
      rw [foldStop, halign, min_eq_left (le_latestUserTurnStart huser)]
    rw [replaceSpans, hfirst, hlast, if_neg (by omega), if_neg (by omega),
      ih f.endIdx hrest (Or.inr huser)]
    simp [chainEnd]

/-- The first unfolded span of a chained log starts where the chain ends. -/
theorem firstUnfoldedSpan_chained {messages : List ChatMessage} {s : CompactionState}
    (h : Chained messages 0 s.folds) {start stop : ℕ}
    (hspan : firstUnfoldedSpan messages s (latestUserTurnStart messages) = some (start, stop)) :
    start = chainEnd 0 s.folds ∧ stop = latestUserTurnStart messages ∧ start < stop := by
  have hmap : (s.folds.map fun fold => alignFoldRange messages fold.startIdx fold.endIdx) =
      s.folds.map fun fold => (fold.startIdx, fold.endIdx) := by
    refine List.map_congr_left fun f hf => ?_
    have := h.mem (Or.inl rfl) hf
    exact alignFoldRange_chained this.1 this.2.2.1 this.2.2.2
  have hfilter : (s.folds.map fun fold => (fold.startIdx, fold.endIdx)).filter
      (fun r => decide (r.1 < r.2)) = s.folds.map fun fold => (fold.startIdx, fold.endIdx) := by
    refine List.filter_eq_self.mpr fun r hr => ?_
    obtain ⟨f, hf, rfl⟩ := List.mem_map.mp hr
    simpa using (h.mem (Or.inl rfl) hf).2.2.1
  have hsorted : (s.folds.map fun fold => (fold.startIdx, fold.endIdx)).mergeSort
      (fun r q => decide (r.1 < q.1 ∨ r.1 = q.1 ∧ r.2 ≤ q.2)) =
        s.folds.map fun fold => (fold.startIdx, fold.endIdx) := by
    refine List.mergeSort_of_pairwise (List.pairwise_map.mpr (h.sorted.imp fun hlt => ?_))
    simpa using Or.inl hlt
  rw [firstUnfoldedSpan] at hspan
  split_ifs at hspan with hzero
  simp only [hmap, hfilter, hsorted] at hspan
  suffices hall : ∀ folds from', Chained messages from' folds →
      unfoldedSpanFrom (latestUserTurnStart messages)
        (folds.map fun fold => (fold.startIdx, fold.endIdx)) from' = some (start, stop) →
      start = chainEnd from' folds ∧ stop = latestUserTurnStart messages ∧ start < stop from
    hall s.folds 0 h hspan
  intro folds
  induction folds with
  | nil =>
    intro from' _ hsome
    rw [List.map_nil, unfoldedSpanFrom] at hsome
    split_ifs at hsome with hlt
    obtain ⟨rfl, rfl⟩ : from' = start ∧ latestUserTurnStart messages = stop := by
      simpa using hsome
    exact ⟨rfl, rfl, hlt⟩
  | cons f folds ih =>
    intro from' hchain hsome
    obtain ⟨hstart, hlt, huser, hrest⟩ := hchain
    have hle := le_latestUserTurnStart huser
    rw [List.map_cons, unfoldedSpanFrom] at hsome
    simp only [min_eq_left hle, show max from' f.endIdx = f.endIdx by omega] at hsome
    rw [if_neg (by omega)] at hsome
    split_ifs at hsome
    exact ih f.endIdx hrest hsome

theorem isUserAt_latestUserTurnStart {messages : List ChatMessage}
    (h : ∃ i, isUserAt messages i = true) :
    isUserAt messages (latestUserTurnStart messages) = true := by
  obtain ⟨i, hi⟩ := h
  rw [latestUserTurnStart]
  cases hpos : rpositionUser messages with
  | none =>
    rw [rpositionUser_eq_none hpos] at hi
    cases hi
  | some j => exact (rpositionUser_eq_some hpos).1

theorem min_le_extendEndToTurnBoundary (messages : List ChatMessage) (stop : ℕ) :
    min stop messages.length ≤ extendEndToTurnBoundary messages stop := by
  simp only [extendEndToTurnBoundary]
  split_ifs
  · exact le_rfl
  · exact Nat.le_add_right _ _

/-- A chunk ends at a user message, at the latest at the newest one. -/
theorem pickChunkFrom_spec {messages : List ChatMessage} {minTokens start : ℕ}
    (huser : isUserAt messages (latestUserTurnStart messages) = true) (rest : List ChatMessage)
    {acc stop : ℕ} {range : ℕ × ℕ} (hstart : start ≤ stop)
    (hlen : stop + rest.length = latestUserTurnStart messages)
    (h : pickChunkFrom messages minTokens start (latestUserTurnStart messages) rest acc stop =
      some range) :
    range.1 = start ∧ start < range.2 ∧ isUserAt messages range.2 = true := by
  induction rest generalizing acc stop with
  | nil =>
    rw [pickChunkFrom] at h
    split_ifs at h with hlt
    obtain rfl : (start, stop) = range := by simpa using h
    rw [List.length_nil, Nat.add_zero] at hlen
    exact ⟨rfl, hlt, by rw [hlen]; exact huser⟩
  | cons m rest ih =>
    rw [pickChunkFrom] at h
    simp only [List.length_cons] at hlen
    split_ifs at h
    · obtain rfl : (start, min (extendEndToTurnBoundary messages (stop + 1))
        (latestUserTurnStart messages)) = range := by simpa using h
      have hle := min_le_extendEndToTurnBoundary messages (stop + 1)
      have hlt := lt_length_of_isUserAt huser
      refine ⟨rfl, by simp only; omega, ?_⟩
      rcases extendEndToTurnBoundary_boundary messages (stop + 1) with hb | hb | hb
      · omega
      · rw [hb, min_eq_right hlt.le]
        exact huser
      · rw [min_eq_left (le_latestUserTurnStart hb)]
        exact hb
    · exact ih (by omega) (by omega) h

/-- The next chunk of a chained log continues the chain. -/
theorem pickNextChunkWithMinTokens_chained {messages : List ChatMessage} {s : CompactionState}
    (h : Chained messages 0 s.folds) (huser : ∃ i, isUserAt messages i = true) {minTokens : ℕ}
    {range : ℕ × ℕ} (hpick : pickNextChunkWithMinTokens messages s minTokens = some range) :
    range.1 = chainEnd 0 s.folds ∧ range.1 < range.2 ∧ isUserAt messages range.2 = true := by
  rw [pickNextChunkWithMinTokens] at hpick
  split at hpick
  · cases hpick
  · rename_i start spanEnd hspan
    obtain ⟨rfl, rfl, hlt⟩ := firstUnfoldedSpan_chained h hspan
    rw [if_neg (by omega)] at hpick
    have hlast := isUserAt_latestUserTurnStart huser
    have hle := lt_length_of_isUserAt hlast
    have hspec := pickChunkFrom_spec hlast _ le_rfl (by
      simp only [List.length_drop, List.length_take]
      omega) hpick
    exact ⟨hspec.1, hspec.1 ▸ hspec.2.1, hspec.2.2⟩

theorem recordFold_chained {messages : List ChatMessage} {s : CompactionState} {f : Fold}
    (h : Chained messages 0 (s.folds ++ [f])) : (s.recordFold f).folds = s.folds ++ [f] :=
  List.mergeSort_of_pairwise (h.sorted.imp fun hlt => by simpa using hlt.le)

theorem projection_congr (messages : List ChatMessage) {s t : CompactionState}
    (h : s.folds = t.folds) : projection messages s = projection messages t := by
  simp only [projection, h]

/-- The state in front of its later commits. -/
def CompactionState.firstFolds (s : CompactionState) (n : ℕ) : CompactionState :=
  { s with folds := s.folds.take n }

/-- Every fold from the `n`-th on makes the projection smaller than it was without it. -/
def ShrinksFrom (messages : List ChatMessage) (n : ℕ) (s : CompactionState) : Prop :=
  ∀ j, n ≤ j → j < s.folds.length →
    estimateMessagesTokens (projection messages (s.firstFolds (j + 1))) <
      estimateMessagesTokens (projection messages (s.firstFolds j))

section
variable {ratios : TokenRatios} {messages : List ChatMessage} {contextWindow reserved : ℕ}

/-- What one committing round does: it appends the next fold of the chain, and the estimate of
the projection gets smaller. -/
theorem compactRound_spec {p q : CompactionProgress} {replies left : List (Option Text)}
    (hchain : Chained messages 0 p.state.folds) (huser : ∃ i, isUserAt messages i = true)
    (hp : p.projectedTokens = projectionTokens messages p.state reserved)
    (h : compactRound ratios messages contextWindow reserved p replies = (some q, left)) :
    ∃ f, q.state.folds = p.state.folds ++ [f] ∧ Chained messages 0 q.state.folds ∧
      q.projectedTokens = projectionTokens messages q.state reserved ∧
      estimateMessagesTokens (projection messages q.state) <
        estimateMessagesTokens (projection messages p.state) := by
  rw [compactRound] at h
  split_ifs at h
  · simp at h
  dsimp only at h
  split at h
  · simp at h
  · rename_i start stop hpick
    obtain ⟨hstart, hlt, hstop⟩ := pickNextChunkWithMinTokens_chained hchain huser hpick
    split_ifs at h
    · simp at h
    split at h
    · simp at h
    · rename_i summary rest _
      split_ifs at h with _ _ hle
      · simp at h
      · simp at h
      · simp at h
      · simp only [Prod.mk.injEq, Option.some.injEq] at h
        obtain ⟨rfl, -⟩ := h
        have hsnoc := hchain.snoc (f := ⟨start, stop, summary, 1⟩) hstart hlt hstop
        refine ⟨⟨start, stop, summary, 1⟩, recordFold_chained hsnoc, ?_, rfl, ?_⟩
        · rw [recordFold_chained hsnoc]
          exact hsnoc
        · rw [hp, projectionTokens, projectionTokens, saturatingAdd, saturatingAdd] at hle
          dsimp only
          omega

/-- What the loop does in all of its rounds. -/
theorem compactLoop_spec (rounds : ℕ) {p : CompactionProgress} {replies : List (Option Text)}
    (hchain : Chained messages 0 p.state.folds) (huser : ∃ i, isUserAt messages i = true)
    (hp : p.projectedTokens = projectionTokens messages p.state reserved) :
    let q := compactLoop ratios messages contextWindow reserved rounds p replies
    Chained messages 0 q.state.folds ∧ p.state.folds <+: q.state.folds ∧
      q.projectedTokens = projectionTokens messages q.state reserved ∧
      ShrinksFrom messages p.state.folds.length q.state := by
  induction rounds generalizing p replies with
  | zero => exact ⟨hchain, List.prefix_rfl, hp, fun j hj hlt => absurd hlt (Nat.not_lt.mpr hj)⟩
  | succ rounds ih =>
    simp only [compactLoop]
    split
    · exact ⟨hchain, List.prefix_rfl, hp, fun j hj hlt => absurd hlt (Nat.not_lt.mpr hj)⟩
    · rename_i p₁ left hround
      obtain ⟨f, hfolds, hchain₁, hp₁, hless⟩ := compactRound_spec hchain huser hp hround
      obtain ⟨hchain₂, hlead₀, hp₂, hshrinks⟩ := ih hchain₁ hp₁
      refine ⟨hchain₂, (hfolds ▸ List.prefix_append _ _).trans hlead₀, hp₂, fun j hj hlt => ?_⟩
      rcases Nat.eq_or_lt_of_le hj with rfl | hj
      · obtain ⟨rest, hrest⟩ := hlead₀
        have hq : ∀ n, n ≤ p₁.state.folds.length →
            ((compactLoop ratios messages contextWindow reserved rounds p₁ left).state.firstFolds
              n).folds = p₁.state.folds.take n := by
          intro n hn
          rw [CompactionState.firstFolds, ← hrest, List.take_append_of_le_length hn]
        have hlen : p₁.state.folds.length = p.state.folds.length + 1 := by
          rw [hfolds, List.length_append, List.length_singleton]
        have hnow := projection_congr messages (s := CompactionState.firstFolds _ _)
          (t := p₁.state) (by rw [hq _ hlen.ge, ← hlen, List.take_length])
        have hbefore := projection_congr messages (s := CompactionState.firstFolds _ _)
          (t := p.state) (by rw [hq p.state.folds.length (by omega), hfolds, List.take_left])
        rwa [← hnow, ← hbefore] at hless
      · exact hshrinks j (by rw [hfolds, List.length_append, List.length_singleton]; omega) hlt

/-- One call: the chain grows at its end, every commit shrinks the projection, and the
reported estimate is that of the final projection. -/
theorem maybeCompact_spec (ratios : TokenRatios) {messages : List ChatMessage}
    (contextWindow reserved : ℕ) {s : CompactionState} (replies : List (Option Text))
    (hchain : Chained messages 0 s.folds) (huser : ∃ i, isUserAt messages i = true) :
    let r := maybeCompactWithReservedTokens ratios messages contextWindow reserved s replies
    Chained messages 0 r.2.folds ∧ s.folds <+: r.2.folds ∧
      r.1.projectedTokens = projectionTokens messages r.2 reserved ∧
      ShrinksFrom messages s.folds.length r.2 := by
  simp only [maybeCompactWithReservedTokens]
  split_ifs
  · exact ⟨hchain, List.prefix_rfl, rfl, fun j hj hlt => absurd hlt (Nat.not_lt.mpr hj)⟩
  · exact compactLoop_spec ptlRetryCap (p := ⟨s, _, 0, []⟩) hchain huser rfl

/-- Messages behind a chain go through the projection unchanged. -/
theorem projection_append {s : CompactionState} (hchain : Chained messages 0 s.folds)
    (added : List ChatMessage) :
    projection (messages ++ added) s = projection messages s ++ added := by
  have hle : chainEnd 0 s.folds ≤ messages.length := by
    rcases hchain.chainEnd_isUser with h | h
    · omega
    · exact (lt_length_of_isUserAt h).le
  rw [projection_chained hchain, projection_chained (hchain.append added),
    List.drop_append_of_le_length hle, List.append_assoc]

end

/-- What happens to a session: messages are appended, or a compaction is attempted. -/
inductive SessionOp where
  | append (added : List ChatMessage)
  | compact (contextWindow reserved : ℕ) (replies : List (Option Text))

def sessionStep (ratios : TokenRatios) (log : List ChatMessage × CompactionState) :
    SessionOp → List ChatMessage × CompactionState
  | .append added => (log.1 ++ added, log.2)
  | .compact contextWindow reserved replies =>
    (log.1, (maybeCompactWithReservedTokens ratios log.1 contextWindow reserved log.2 replies).2)

def runSession (ratios : TokenRatios) (log : List ChatMessage × CompactionState)
    (ops : List SessionOp) : List ChatMessage × CompactionState :=
  ops.foldl (sessionStep ratios) log

/-- The invariant of a session. -/
structure Rolling (log : List ChatMessage × CompactionState) : Prop where
  hasUser : ∃ i, isUserAt log.1 i = true
  chained : Chained log.1 0 log.2.folds

theorem Rolling.step (ratios : TokenRatios) {log : List ChatMessage × CompactionState}
    (h : Rolling log) (op : SessionOp) :
    Rolling (sessionStep ratios log op) ∧ log.2.folds <+: (sessionStep ratios log op).2.folds := by
  cases op with
  | append added =>
    refine ⟨⟨?_, h.chained.append added⟩, List.prefix_rfl⟩
    obtain ⟨i, hi⟩ := h.hasUser
    exact ⟨i, by rw [sessionStep, isUserAt_append_left (lt_length_of_isUserAt hi), hi]⟩
  | compact contextWindow reserved replies =>
    have hspec := maybeCompact_spec ratios contextWindow reserved replies h.chained h.hasUser
    exact ⟨⟨h.hasUser, hspec.1⟩, hspec.2.1⟩

theorem Rolling.run (ratios : TokenRatios) (ops : List SessionOp)
    {log : List ChatMessage × CompactionState} (h : Rolling log) :
    Rolling (runSession ratios log ops) ∧ log.2.folds <+: (runSession ratios log ops).2.folds := by
  induction ops generalizing log with
  | nil => exact ⟨h, List.prefix_rfl⟩
  | cons op ops ih =>
    obtain ⟨hstep, hlead₀⟩ := h.step ratios op
    obtain ⟨hrun, hrest⟩ := ih hstep
    exact ⟨hrun, hlead₀.trans hrest⟩

/-- Ratios that leave no room at all. -/
def tightRatios : TokenRatios := ⟨fun _ => 0, fun _ => 0, fun _ => 0, fun _ => 0⟩

end DeepseekScience.Compact
