import DeepseekScience.Compact.Projection

/-! Rolling compaction: token estimates, chunk selection, the summarizer and the loop that
commits folds. Thresholds that the source computes with floating-point ratios are parameters. -/
namespace DeepseekScience.Compact

open SpanCover

def charsPerToken : ℕ := 4
def kaFloor : ℕ := 50000
def minChunkTokens : ℕ := 4096
def outputCeiling : ℕ := 32000
def absoluteTokenCeiling : ℕ := 300000
def ptlRetryCap : ℕ := 32
def compressionGateDivisor : ℕ := 3
def summarizerRetryCap : ℕ := 3

/-- `usize::MAX` of a 64-bit target. -/
def usizeMax : ℕ := 2 ^ 64 - 1

def saturatingAdd (a b : ℕ) : ℕ := min (a + b) usizeMax

/-- Rounded products of token counts with the ratio constants. -/
structure TokenRatios where
  /-- `COMPACTION_TRIGGER_RATIO` of the context window. -/
  trigger : ℕ → ℕ
  /-- `HARD_WALL_RATIO` of the context window. -/
  hardWall : ℕ → ℕ
  /-- `KB_RATIO` of the context window. -/
  keptAvailable : ℕ → ℕ
  /-- The share of the kept-available target that has to stay free. -/
  desiredAvailable : ℕ → ℕ

def estimateMessageTokens (m : ChatMessage) : ℕ :=
  ((m.content.getD []).length + (m.reasoningContent.getD []).length +
    ((m.toolCalls.getD []).map fun call =>
      call.function.name.length + call.function.arguments.length).sum +
    (m.toolCallId.getD []).length + 8) / charsPerToken

def estimateMessagesTokens (messages : List ChatMessage) : ℕ :=
  (messages.map estimateMessageTokens).sum

section
variable (ratios : TokenRatios)

def keptAvailableTarget (contextWindow : ℕ) : ℕ := max kaFloor (ratios.keptAvailable contextWindow)

def compactionTriggerTokens (contextWindow : ℕ) : ℕ :=
  min (ratios.trigger contextWindow) absoluteTokenCeiling

def hardWallTokens (contextWindow : ℕ) : ℕ :=
  min (ratios.hardWall contextWindow) absoluteTokenCeiling

def projectionTokenTarget (contextWindow : ℕ) : ℕ :=
  let desiredAvailable := ratios.desiredAvailable (keptAvailableTarget ratios contextWindow)
  let capacityTarget := contextWindow - min desiredAvailable contextWindow
  min capacityTarget (hardWallTokens ratios contextWindow - 1)

def isOverTrigger (totalTokens contextWindow : ℕ) : Bool :=
  let trigger := compactionTriggerTokens ratios contextWindow
  if trigger = 0 then decide (0 < totalTokens) else decide (trigger ≤ totalTokens)

end

/-- The loop over the sorted fold ranges, up to the first gap. -/
def unfoldedSpanFrom (foldableEnd : ℕ) : List (ℕ × ℕ) → ℕ → Option (ℕ × ℕ)
  | [], cursor => if cursor < foldableEnd then some (cursor, foldableEnd) else none
  | (start, stop) :: ranges, cursor =>
    let start := min start foldableEnd
    let stop := min stop foldableEnd
    if cursor < start then some (cursor, start)
    else
      let cursor := max cursor stop
      if foldableEnd ≤ cursor then none else unfoldedSpanFrom foldableEnd ranges cursor

/-- Earliest unfolded interval in front of `foldableEnd`, after normalizing the fold ranges. -/
def firstUnfoldedSpan (messages : List ChatMessage) (s : CompactionState) (foldableEnd : ℕ) :
    Option (ℕ × ℕ) :=
  if foldableEnd = 0 then none
  else
    let ranges := (s.folds.map fun fold => alignFoldRange messages fold.startIdx fold.endIdx).filter
      fun r => decide (r.1 < r.2)
    unfoldedSpanFrom foldableEnd
      (ranges.mergeSort fun r q => decide (r.1 < q.1 ∨ r.1 = q.1 ∧ r.2 ≤ q.2)) 0

/-- Accumulate messages of the span until the chunk has enough tokens. -/
def pickChunkFrom (messages : List ChatMessage) (minTokens start spanEnd : ℕ) :
    List ChatMessage → ℕ → ℕ → Option (ℕ × ℕ)
  | [], _, stop => if start < stop then some (start, stop) else none
  | m :: rest, acc, stop =>
    let acc := acc + estimateMessageTokens m
    if minTokens ≤ acc then some (start, min (extendEndToTurnBoundary messages (stop + 1)) spanEnd)
    else pickChunkFrom messages minTokens start spanEnd rest acc (stop + 1)

def pickNextChunkWithMinTokens (messages : List ChatMessage) (s : CompactionState)
    (minTokens : ℕ) : Option (ℕ × ℕ) :=
  match firstUnfoldedSpan messages s (latestUserTurnStart messages) with
  | none => none
  | some (start, spanEnd) =>
    if spanEnd ≤ start then none
    else
      pickChunkFrom messages (max minTokens minChunkTokens) start spanEnd
        ((messages.take spanEnd).drop start) 0 start

def pickNextChunk (messages : List ChatMessage) (s : CompactionState) : Option (ℕ × ℕ) :=
  pickNextChunkWithMinTokens messages s minChunkTokens

def chunkOf (messages : List ChatMessage) (range : ℕ × ℕ) : List ChatMessage :=
  (messages.take range.2).drop range.1

def projectionTokens (messages : List ChatMessage) (s : CompactionState) (reserved : ℕ) : ℕ :=
  saturatingAdd (estimateMessagesTokens (projection messages s)) reserved

def shouldTriggerL1WithReserved (ratios : TokenRatios) (messages : List ChatMessage)
    (s : CompactionState) (contextWindow reserved : ℕ) : Bool :=
  match pickNextChunk messages s with
  | none => false
  | some candidate =>
    if estimateMessagesTokens (chunkOf messages candidate) < minChunkTokens then false
    else decide (projectionTokenTarget ratios contextWindow < projectionTokens messages s reserved)

/-- The chunk as the text that the summarizer is given. -/
def chunkBody (chunk : List ChatMessage) : Text :=
  (['\n'] : Text).intercalate
    (chunk.map fun m => '[' :: m.role.toText ++ "] ".toList ++ m.content.getD [])

/-- The attempts of the summarizer. `none` in the replies is a failed call. -/
def summarizeFrom (targetChars : ℕ) :
    ℕ → Option Text → List (Option Text) → Option Text × List (Option Text)
  | 0, best, replies => (some (best.getD []), replies)
  | _ + 1, _, [] => (none, [])
  | _ + 1, _, none :: replies => (none, replies)
  | attempts + 1, best, some reply :: replies =>
    let candidate := reply.take outputCeiling
    let best :=
      match best with
      | some b => if candidate.length ≤ b.length then some b else some candidate
      | none => some candidate
    if targetChars / 2 ≤ candidate.length then (some candidate, replies)
    else summarizeFrom targetChars attempts best replies

/-- The summary of a chunk, and the provider replies that are left. -/
def summarizeChunk (replies : List (Option Text)) (chunk : List ChatMessage) :
    Option Text × List (Option Text) :=
  let chunkTokens := (chunkBody chunk).length / 4
  let targetChars := min (chunkTokens / compressionGateDivisor * 4) outputCeiling
  summarizeFrom targetChars summarizerRetryCap none replies

structure CompactionOutcome where
  folded : Bool
  foldsAdded : ℕ
  projectedTokens : ℕ
  hardWallTokens : ℕ
  hardWallExceeded : Bool
  foldedRanges : List (ℕ × ℕ)

/-- What the loop carries from round to round. -/
structure CompactionProgress where
  state : CompactionState
  projectedTokens : ℕ
  foldsAdded : ℕ
  foldedRanges : List (ℕ × ℕ)

section
variable (ratios : TokenRatios) (messages : List ChatMessage) (contextWindow reserved : ℕ)

/-- One round of the loop; `none` leaves the loop. -/
def compactRound (p : CompactionProgress) (replies : List (Option Text)) :
    Option CompactionProgress × List (Option Text) :=
  if !shouldTriggerL1WithReserved ratios messages p.state contextWindow reserved then
    (none, replies)
  else
    let reductionNeeded := p.projectedTokens - projectionTokenTarget ratios contextWindow
    let maxSummaryTokens := outputCeiling / charsPerToken + 2
    let requestedChunkTokens :=
      max (saturatingAdd reductionNeeded maxSummaryTokens) minChunkTokens
    match pickNextChunkWithMinTokens messages p.state requestedChunkTokens with
    | none => (none, replies)
    | some (start, stop) =>
      let chunk := chunkOf messages (start, stop)
      let chunkTokens := estimateMessagesTokens chunk
      if chunkTokens < minChunkTokens then (none, replies)
      else
        match summarizeChunk replies chunk with
        | (none, replies) => (none, replies)
        | (some summary, replies) =>
          let summaryTokens := estimateMessageTokens (ChatMessage.ofAssistant summary)
          let nextState := p.state.recordFold ⟨start, stop, summary, 1⟩
          let nextProjectedTokens := projectionTokens messages nextState reserved
          if (trim summary).isEmpty then (none, replies)
          else if chunkTokens ≤ summaryTokens then (none, replies)
          else if p.projectedTokens ≤ nextProjectedTokens then (none, replies)
          else
            (some ⟨nextState, nextProjectedTokens, p.foldsAdded + 1,
              p.foldedRanges ++ [(start, stop)]⟩, replies)

/-- The loop, with at most `rounds` rounds. -/
def compactLoop : ℕ → CompactionProgress → List (Option Text) → CompactionProgress
  | 0, p, _ => p
  | rounds + 1, p, replies =>
    match compactRound ratios messages contextWindow reserved p replies with
    | (none, _) => p
    | (some p, replies) => compactLoop rounds p replies

def compactionOutcome (p : CompactionProgress) : CompactionOutcome where
  folded := decide (0 < p.foldsAdded)
  foldsAdded := p.foldsAdded
  projectedTokens := p.projectedTokens
  hardWallTokens := hardWallTokens ratios contextWindow
  hardWallExceeded := decide (hardWallTokens ratios contextWindow < p.projectedTokens)
  foldedRanges := p.foldedRanges

/-- Compact the log if it is over its trigger. The replies are what the provider answers to the
summarizer calls, in order. -/
def maybeCompactWithReservedTokens (s : CompactionState) (replies : List (Option Text)) :
    CompactionOutcome × CompactionState :=
  let begin' : CompactionProgress := ⟨s, projectionTokens messages s reserved, 0, []⟩
  if !isOverTrigger ratios begin'.projectedTokens contextWindow then
    (compactionOutcome ratios contextWindow begin', s)
  else
    let p := compactLoop ratios messages contextWindow reserved ptlRetryCap begin' replies
    (compactionOutcome ratios contextWindow p, p.state)

end
end DeepseekScience.Compact
