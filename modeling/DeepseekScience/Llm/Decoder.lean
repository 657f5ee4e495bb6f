import DeepseekScience.Llm.Sse

/-! The line grammar of a response body, and that the stream decoder yields its items for every
cut of the body into chunks. -/
namespace DeepseekScience.Llm

open Lines

/-! The items of a body, by its lines. -/

def lineItems : List LineOutcome → List (Except LlmError StreamEvent)
  | [] => []
  | .skip :: rest => lineItems rest
  | .done :: _ => []
  | .events evs :: rest => evs.map .ok ++ lineItems rest
  | .error e :: _ => [.error e]

/-- The event batches in front of the end or the first error. -/
def eventBatches : List LineOutcome → List (List StreamEvent)
  | [] => []
  | .skip :: rest => eventBatches rest
  | .done :: _ => []
  | .events evs :: rest => evs :: eventBatches rest
  | .error _ :: _ => []

/-- The boundaries of the events, after `seen` of them. -/
def WithinEventCaps (seen : ℕ) (outcomes : List LineOutcome) : Prop :=
  (∀ evs ∈ eventBatches outcomes, evs.length ≤ maxSseEventsPerLine) ∧
    seen + (eventBatches outcomes).flatten.length ≤ maxSseEventsPerResponse

instance (seen : ℕ) (outcomes : List LineOutcome) : Decidable (WithinEventCaps seen outcomes) :=
  inferInstanceAs (Decidable (_ ∧ _))

section
variable {json : SerdeJson} {jsonError : Text → Text}

section
variable (json : SerdeJson) (jsonError : Text → Text)

def lineOutcomes (body : List UInt8) : List LineOutcome :=
  (lines newline body).map (parseSseLine json jsonError)

/-- The grammar: parse the lines of the whole body in order, up to the end marker. -/
def bodyItems (body : List UInt8) : List (Except LlmError StreamEvent) :=
  lineItems (lineOutcomes json jsonError body)

/-- What a state has still to yield, if it receives the rest of the body. -/
def remaining (s : SseState) (rest : List UInt8) : List (Except LlmError StreamEvent) :=
  s.pending.map .ok ++ if s.done then [] else bodyItems json jsonError (s.buf ++ rest)

/-- A state whose input respects the boundaries. -/
structure WithinCaps (s : SseState) (chunks : List (List UInt8)) : Prop where
  arrivals : s.chunks = chunks.map .chunk
  linesFit : ∀ line ∈ lines newline (s.buf ++ chunks.flatten), line.length ≤ maxSseLineBytes
  bytes : s.rawBytes + chunks.flatten.length ≤ maxSseResponseBytes
  chunkCount : s.chunksSeen + chunks.length ≤ maxSseChunksPerResponse
  events : s.done = false →
    WithinEventCaps s.eventsSeen (lineOutcomes json jsonError (s.buf ++ chunks.flatten))

end

theorem lineOutcomes_of_takeLine {buf line rest : List UInt8}
    (h : takeLine newline buf = some (line, rest)) (bytes : List UInt8) :
    lineOutcomes json jsonError (buf ++ bytes) =
      parseSseLine json jsonError line :: lineOutcomes json jsonError (rest ++ bytes) := by
  unfold lineOutcomes
  rw [lines_of_takeLine h, List.map_cons]

theorem queueEvents_of_caps {s : SseState} {evs : List StreamEvent} {rest : List LineOutcome}
    (h : WithinEventCaps s.eventsSeen (.events evs :: rest)) :
    queueEvents s evs = .again
        { s with eventsSeen := s.eventsSeen + evs.length, pending := s.pending ++ evs } ∧
      WithinEventCaps (s.eventsSeen + evs.length) rest := by
  obtain ⟨hline, htotal⟩ := h
  simp only [eventBatches, List.flatten_cons, List.length_append] at hline htotal
  have hevs := hline evs List.mem_cons_self
  constructor
  · unfold queueEvents
    rw [if_neg]
    omega
  · exact ⟨fun evs' h' => hline evs' (List.mem_cons_of_mem _ h'), by omega⟩

/-- The round of a state whose first line is known. -/
theorem round_line {s : SseState} {line rest : List UInt8} (hpending : s.pending = [])
    (hdone : s.done = false) (hline : takeLine newline s.buf = some (line, rest))
    (hfit : line.length ≤ maxSseLineBytes) :
    round json jsonError s =
      match parseSseLine json jsonError line with
      | .skip => .again { s with buf := rest }
      | .done => .again { s with buf := rest, done := true }
      | .events evs => queueEvents { s with buf := rest } evs
      | .error e => .item (.error e) { s with buf := rest } := by
  unfold round
  rw [hpending]
  dsimp only
  rw [hdone, if_neg Bool.false_ne_true, hline]
  dsimp only
  refine (if_neg (by omega)).trans ?_
  cases parseSseLine json jsonError line <;> rfl

/-- The round of a state that waits for the next chunk. -/
theorem round_wait {s : SseState} (hpending : s.pending = []) (hdone : s.done = false)
    (hline : takeLine newline s.buf = none) :
    round json jsonError s =
      match s.chunks with
      | .chunk bytes :: chunks => receiveChunk { s with chunks := chunks } bytes
      | .timedOut :: chunks => .item (.error (timeoutError s)) { s with chunks := chunks }
      | .broken e :: chunks => .item (.error (.transport e)) { s with chunks := chunks }
      | [] => receiveEnd json jsonError s := by
  unfold round
  rw [hpending]
  dsimp only
  refine (if_neg (by rw [hdone]; exact Bool.false_ne_true)).trans ?_
  cases s.chunks with
  | nil => simp only [hline]
  | cons arrival chunks => cases arrival <;> simp only [hline]

/-- What one round does to a state within its boundaries. -/
def RoundKeeps (json : SerdeJson) (jsonError : Text → Text) (s : SseState)
    (rest : List UInt8) (chunks : List (List UInt8)) : Round → Prop
  | .item (.ok ev) s' => WithinCaps json jsonError s' chunks ∧
      remaining json jsonError s rest = .ok ev :: remaining json jsonError s' rest
  | .item (.error e) _ => remaining json jsonError s rest = [.error e]
  | .again s' => ∃ chunks', WithinCaps json jsonError s' chunks' ∧
      remaining json jsonError s rest = remaining json jsonError s' chunks'.flatten
  | .ended => remaining json jsonError s rest = []

section
variable {s : SseState} {chunks : List (List UInt8)}

theorem roundKeeps_line {line rest : List UInt8} (hpending : s.pending = [])
    (hdone : s.done = false) (hline : takeLine newline s.buf = some (line, rest))
    (h : WithinCaps json jsonError s chunks) :
    RoundKeeps json jsonError s chunks.flatten chunks (round json jsonError s) := by
  have hlines := h.linesFit
  rw [lines_of_takeLine hline] at hlines
  have hevents := h.events hdone
  have hremaining : remaining json jsonError s chunks.flatten =
      lineItems (parseSseLine json jsonError line ::
        lineOutcomes json jsonError (rest ++ chunks.flatten)) := by
    unfold remaining
    rw [hpending, hdone, bodyItems, lineOutcomes_of_takeLine hline]
    rfl
  rw [lineOutcomes_of_takeLine hline] at hevents
  have hrest : ∀ l ∈ lines newline (rest ++ chunks.flatten), l.length ≤ maxSseLineBytes :=
    fun l hl => hlines l (List.mem_cons_of_mem _ hl)
  rw [round_line hpending hdone hline (hlines line List.mem_cons_self)]
  cases hparse : parseSseLine json jsonError line with
  | skip =>
    rw [hparse] at hevents hremaining
    refine ⟨chunks, ⟨h.arrivals, hrest, h.bytes, h.chunkCount, fun _ => hevents⟩, ?_⟩
    rw [hremaining]
    unfold remaining
    dsimp only
    rw [hpending, hdone]
    rfl
  | done =>
    rw [hparse] at hremaining
    refine ⟨chunks, ⟨h.arrivals, hrest, h.bytes, h.chunkCount, fun hd => by cases hd⟩, ?_⟩
    rw [hremaining]
    unfold remaining
    dsimp only
    rw [hpending]
    rfl
  | error e =>
    rw [hparse] at hremaining
    exact hremaining
  | events evs =>
    rw [hparse] at hevents hremaining
    obtain ⟨hqueued, hafter⟩ := queueEvents_of_caps (s := { s with buf := rest }) hevents
    dsimp only
    rw [hqueued]
    refine ⟨chunks, ⟨h.arrivals, hrest, h.bytes, h.chunkCount, fun _ => hafter⟩, ?_⟩
    rw [hremaining]
    unfold remaining
    dsimp only
    rw [hpending, hdone]
    rfl

/-- A chunk within the boundaries is taken in. -/
theorem receiveChunk_of_fits {bytes : List UInt8}
    (hcount : s.chunksSeen + 1 ≤ maxSseChunksPerResponse)
    (hbytes : s.rawBytes + bytes.length ≤ maxSseResponseBytes)
    (hfit : chunkLinesFit s.buf.length bytes maxSseLineBytes = true) :
    receiveChunk s bytes = .again
      { s with
        receivedChunk := true
        chunksSeen := s.chunksSeen + 1
        rawBytes := s.rawBytes + bytes.length
        buf := s.buf ++ bytes } := by
  have hadd : checkedBoundedAdd s.rawBytes bytes.length maxSseResponseBytes =
      some (s.rawBytes + bytes.length) := by
    unfold checkedBoundedAdd
    rw [if_pos]
    unfold maxSseResponseBytes at *
    omega
  unfold receiveChunk
  dsimp only
  rw [if_neg (by omega), hadd]
  dsimp only
  rw [if_pos hfit]

theorem roundKeeps_chunk {bytes : List UInt8} {chunks' : List (List UInt8)} (hdone : s.done = false)
    (hnone : newline ∉ s.buf) (h : WithinCaps json jsonError s (bytes :: chunks')) :
    RoundKeeps json jsonError s (bytes :: chunks').flatten (bytes :: chunks')
      (receiveChunk { s with chunks := chunks'.map .chunk } bytes) := by
  have hbytes := h.bytes
  have hcount := h.chunkCount
  rw [List.flatten_cons, List.length_append] at hbytes
  rw [List.length_cons] at hcount
  have hbody : s.buf ++ (bytes :: chunks').flatten = s.buf ++ bytes ++ chunks'.flatten := by
    rw [List.flatten_cons, List.append_assoc]
  have hall : linesFit newline maxSseLineBytes 0 (s.buf ++ bytes ++ chunks'.flatten) = true := by
    rw [linesFit_iff, fitFrom_zero, ← hbody]
    exact h.linesFit
  have hfit : chunkLinesFit s.buf.length bytes maxSseLineBytes = true := by
    have hpart := linesFit_of_append hall
    rw [linesFit_append hnone 0 (by
      rw [Nat.zero_add]
      exact length_le_of_linesFit hnone hpart), Nat.zero_add] at hpart
    exact hpart
  rw [receiveChunk_of_fits (s := { s with chunks := chunks'.map .chunk }) (by dsimp only; omega)
    (by dsimp only; omega) hfit]
  refine ⟨chunks', ⟨rfl, hbody ▸ h.linesFit, ?_, ?_, fun _ => hbody ▸ h.events hdone⟩, ?_⟩
  · dsimp only
    omega
  · dsimp only
    omega
  · unfold remaining
    dsimp only
    rw [hbody]

theorem roundKeeps_end (hpending : s.pending = []) (hdone : s.done = false)
    (hnone : newline ∉ s.buf) (h : WithinCaps json jsonError s []) :
    RoundKeeps json jsonError s [] [] (receiveEnd json jsonError s) := by
  unfold receiveEnd
  split_ifs with hempty hlong
  · rw [List.isEmpty_iff] at hempty
    unfold RoundKeeps remaining
    rw [hpending, hdone, hempty]
    rfl
  all_goals
    rw [List.isEmpty_iff] at hempty
    have hlines : lines newline (s.buf ++ [].flatten) = [s.buf] := by
      rw [List.flatten_nil, List.append_nil]
      exact lines_of_notMem hnone hempty
  · have hfit := h.linesFit s.buf (hlines ▸ List.mem_singleton_self _)
    omega
  · have houtcomes : lineOutcomes json jsonError (s.buf ++ [].flatten) =
        [parseSseLine json jsonError s.buf] := by
      unfold lineOutcomes
      rw [hlines, List.map_singleton]
    have hevents := h.events hdone
    rw [houtcomes] at hevents
    have hremaining : remaining json jsonError s [] =
        lineItems [parseSseLine json jsonError s.buf] := by
      unfold remaining bodyItems
      rw [hpending, hdone, show s.buf ++ [] = s.buf ++ [].flatten from rfl, houtcomes]
      rfl
    have hcaps : ∀ s' : SseState, s'.chunks = s.chunks → s'.buf = [] → s'.done = true →
        s'.rawBytes = s.rawBytes → s'.chunksSeen = s.chunksSeen →
        WithinCaps json jsonError s' [] := by
      intro s' hchunks hbuf hdone' hraw hcount
      constructor
      · rw [hchunks]
        exact h.arrivals
      · rw [hbuf]
        exact fun _ hl => by cases hl
      · rw [hraw]
        exact h.bytes
      · rw [hcount]
        exact h.chunkCount
      · rw [hdone']
        exact fun hd => by cases hd
    dsimp only
    cases hparse : parseSseLine json jsonError s.buf with
    | skip =>
      rw [hparse] at hremaining
      refine ⟨[], hcaps _ rfl rfl rfl rfl rfl, ?_⟩
      rw [hremaining]
      unfold remaining
      dsimp only
      rw [hpending]
      rfl
    | done =>
      rw [hparse] at hremaining
      refine ⟨[], hcaps _ rfl rfl rfl rfl rfl, ?_⟩
      rw [hremaining]
      unfold remaining
      dsimp only
      rw [hpending]
      rfl
    | error e =>
      rw [hparse] at hremaining
      exact hremaining
    | events evs =>
      rw [hparse] at hevents hremaining
      obtain ⟨hqueued, -⟩ := queueEvents_of_caps (s := { s with buf := [], done := true }) hevents
      dsimp only
      rw [hqueued]
      refine ⟨[], hcaps _ rfl rfl rfl rfl rfl, ?_⟩
      rw [hremaining]
      unfold remaining
      dsimp only
      rw [hpending]
      rfl

/-- A round yields the next of the remaining items, ends with them, or keeps them. -/
theorem round_keeps (h : WithinCaps json jsonError s chunks) :
    RoundKeeps json jsonError s chunks.flatten chunks (round json jsonError s) := by
  cases hpending : s.pending with
  | cons ev pending =>
    have hround : round json jsonError s = .item (.ok ev) { s with pending := pending } := by
      unfold round
      rw [hpending]
    rw [hround]
    refine ⟨⟨h.arrivals, h.linesFit, h.bytes, h.chunkCount, h.events⟩, ?_⟩
    unfold remaining
    rw [hpending]
    rfl
  | nil =>
    cases hdone : s.done with
    | true =>
      have hround : round json jsonError s = .ended := by
        unfold round
        rw [hpending]
        dsimp only
        rw [if_pos hdone]
      rw [hround]
      unfold RoundKeeps remaining
      rw [hpending, hdone]
      rfl
    | false =>
      cases hline : takeLine newline s.buf with
      | some found => exact roundKeeps_line hpending hdone hline h
      | none =>
        rw [round_wait hpending hdone hline, h.arrivals]
        have hnone := takeLine_eq_none.mp hline
        cases chunks with
        | nil => exact roundKeeps_end hpending hdone hnone h
        | cons bytes chunks' => exact roundKeeps_chunk hdone hnone h

theorem itemsUpToError_round (s : SseState) :
    itemsUpToError json jsonError s =
      match round json jsonError s with
      | .item (.ok ev) s' => .ok ev :: itemsUpToError json jsonError s'
      | .item (.error e) _ => [.error e]
      | .again s' => itemsUpToError json jsonError s'
      | .ended => [] := by
  rw [itemsUpToError]
  split <;> rename_i h <;> rw [h]

/-- A state within its boundaries yields what it has still to yield. -/
theorem itemsUpToError_eq (h : WithinCaps json jsonError s chunks) :
    itemsUpToError json jsonError s = remaining json jsonError s chunks.flatten := by
  induction s using itemsUpToError.induct json jsonError generalizing chunks with
  | case1 s ev s' hround ih =>
    have hkeeps := round_keeps h
    rw [hround] at hkeeps
    obtain ⟨hcaps, hremaining⟩ := hkeeps
    rw [itemsUpToError_round, hround]
    dsimp only
    rw [ih hcaps, hremaining]
  | case2 s e s' hround =>
    have hkeeps := round_keeps h
    rw [hround] at hkeeps
    rw [itemsUpToError_round, hround, hkeeps]
  | case3 s s' hround ih =>
    have hkeeps := round_keeps h
    rw [hround] at hkeeps
    obtain ⟨chunks', hcaps, hremaining⟩ := hkeeps
    rw [itemsUpToError_round, hround]
    dsimp only
    rw [ih hcaps, hremaining]
  | case4 s hround =>
    have hkeeps := round_keeps h
    rw [hround] at hkeeps
    rw [itemsUpToError_round, hround, hkeeps]

theorem nextItem_round (s : SseState) :
    nextItem json jsonError s =
      match round json jsonError s with
      | .item i s' => some (i, s')
      | .again s' => nextItem json jsonError s'
      | .ended => none := by
  rw [nextItem]
  split <;> rename_i h <;> rw [h]

/-- The items are those of the polls of a consumer that stops at an error. -/
theorem itemsUpToError_nextItem (s : SseState) :
    itemsUpToError json jsonError s =
      match nextItem json jsonError s with
      | some (.ok ev, s') => .ok ev :: itemsUpToError json jsonError s'
      | some (.error e, _) => [.error e]
      | none => [] := by
  induction s using nextItem.induct json jsonError with
  | case1 s i s' hround =>
    rw [itemsUpToError_round, nextItem, hround]
    cases i <;> rfl
  | case2 s s' hround ih =>
    rw [itemsUpToError_round, nextItem, hround]
    exact ih
  | case3 s hround =>
    rw [itemsUpToError_round, nextItem, hround]

/-! The buffer. -/

/-- The state behind a round. -/
def Round.next : Round → Option SseState
  | .item _ s => some s
  | .again s => some s
  | .ended => none

/-- The states at the beginning of a round. -/
inductive Reached (json : SerdeJson) (jsonError : Text → Text) (start : SseState) :
    SseState → Prop
  | start : Reached json jsonError start start
  | round {s s' : SseState} : Reached json jsonError start s →
      (round json jsonError s).next = some s' → Reached json jsonError start s'

def BufferFits (s : SseState) : Prop := linesFit newline maxSseLineBytes 0 s.buf = true

theorem queueEvents_buf {s' : SseState} {evs : List StreamEvent}
    (h : (queueEvents s evs).next = some s') : s'.buf = s.buf := by
  unfold queueEvents at h
  split_ifs at h
  all_goals
    obtain rfl := Option.some.inj h
    rfl

theorem receiveChunk_bufferFits {s' : SseState} {bytes : List UInt8} (hnone : newline ∉ s.buf)
    (hfits : BufferFits s) (h : (receiveChunk s bytes).next = some s') : BufferFits s' := by
  cases hround : receiveChunk s bytes with
  | ended =>
    rw [hround] at h
    cases h
  | again s'' =>
    rw [hround] at h
    obtain rfl := Option.some.inj h
    obtain ⟨rfl, -, hlines⟩ := receiveChunk_again hround
    have hle : 0 + s.buf.length ≤ maxSseLineBytes := by
      rw [Nat.zero_add]
      have hfits' : linesFit newline maxSseLineBytes 0 (s.buf ++ []) = true := by
        rwa [List.append_nil]
      exact length_le_of_linesFit hnone hfits'
    unfold BufferFits
    rw [linesFit_append hnone 0 hle, Nat.zero_add]
    exact hlines
  | item i s'' =>
    rw [hround] at h
    obtain rfl := Option.some.inj h
    unfold BufferFits
    rw [(receiveChunk_item hround).2]
    exact hfits

theorem receiveEnd_bufferFits {s' : SseState} (hfits : BufferFits s)
    (h : (receiveEnd json jsonError s).next = some s') : BufferFits s' := by
  unfold receiveEnd at h
  split_ifs at h
  · cases h
  · obtain rfl := Option.some.inj h
    exact hfits
  · dsimp only at h
    split at h
    · unfold BufferFits
      rw [queueEvents_buf h]
      rfl
    all_goals
      obtain rfl := Option.some.inj h
      rfl

/-- A round keeps the lines of the buffer within their boundary. -/
theorem round_bufferFits {s' : SseState} (hfits : BufferFits s)
    (h : (round json jsonError s).next = some s') : BufferFits s' := by
  unfold round at h
  split at h
  · obtain rfl := Option.some.inj h
    exact hfits
  · split_ifs at h
    · cases h
    · split at h
      · rename_i line rest hline
        split_ifs at h
        · obtain rfl := Option.some.inj h
          exact hfits
        · have hrest := linesFit_of_takeLine hline hfits
          dsimp only at h
          split at h
          · obtain rfl := Option.some.inj h
            exact hrest
          · obtain rfl := Option.some.inj h
            exact hrest
          · unfold BufferFits
            rw [queueEvents_buf h]
            exact hrest
          · obtain rfl := Option.some.inj h
            exact hrest
      · rename_i hnone
        split at h
        · rename_i bytes chunks _
          exact receiveChunk_bufferFits (s := { s with chunks := chunks })
            (takeLine_eq_none.mp hnone) hfits h
        · obtain rfl := Option.some.inj h
          exact hfits
        · obtain rfl := Option.some.inj h
          exact hfits
        · exact receiveEnd_bufferFits hfits h

theorem Reached.bufferFits {start : SseState} (hstart : BufferFits start)
    (h : Reached json jsonError start s) : BufferFits s := by
  induction h with
  | start => exact hstart
  | round _ hround ih => exact round_bufferFits ih hround

theorem BufferFits.lines (h : BufferFits s) :
    (∀ line ∈ lines newline s.buf, line.length ≤ maxSseLineBytes) ∧
      (newline ∉ s.buf → s.buf.length ≤ maxSseLineBytes) := by
  constructor
  · exact fitFrom_zero.mp ((linesFit_iff 0 s.buf).mp h)
  · intro hnone
    have hfits : linesFit newline maxSseLineBytes 0 (s.buf ++ []) = true := by
      rwa [List.append_nil]
    exact length_le_of_linesFit hnone hfits

end
end

/-- For every cut of a body within the boundaries into chunks, a consumer polls the items of the
line grammar up to the first error. No line in the buffer gets too long, neither a complete one
nor the partial one that waits for the next chunk. -/
theorem sseEventStream_decodes (json : SerdeJson) (jsonError : Text → Text)
    (chunks : List (List UInt8)) (firstChunkTimeout idleTimeout : ℕ)
    (hbody : chunks.flatten.length ≤ maxSseResponseBytes)
    (hlines : ∀ line ∈ lines newline chunks.flatten, line.length ≤ maxSseLineBytes)
    (hevents : WithinEventCaps 0 (lineOutcomes json jsonError chunks.flatten))
    (hcount : chunks.length ≤ maxSseChunksPerResponse) :
    itemsUpToError json jsonError
        (sseEventStream (chunks.map .chunk) firstChunkTimeout idleTimeout) =
      bodyItems json jsonError chunks.flatten ∧
    ∀ s, Reached json jsonError
        (sseEventStream (chunks.map .chunk) firstChunkTimeout idleTimeout) s →
      (∀ line ∈ lines newline s.buf, line.length ≤ maxSseLineBytes) ∧
        (newline ∉ s.buf → s.buf.length ≤ maxSseLineBytes) := by
  constructor
  · have hcaps : WithinCaps json jsonError
        (sseEventStream (chunks.map .chunk) firstChunkTimeout idleTimeout) chunks := by
      refine ⟨rfl, hlines, ?_, ?_, fun _ => hevents⟩
      · exact (Nat.zero_add _).trans_le hbody
      · exact (Nat.zero_add _).trans_le hcount
    rw [itemsUpToError_eq hcaps]
    rfl
  · intro s hs
    have hstart : BufferFits
        (sseEventStream (chunks.map .chunk) firstChunkTimeout idleTimeout) := rfl
    exact (hs.bufferFits hstart).lines

/-- A parser that knows one document, a delta with the answer `hi`. -/
def oneDeltaJson : SerdeJson where
  fromStr text :=
    if text = "1".toList then
      some (.object [("choices".toList, .array [.object [("delta".toList,
        .object [("content".toList, .string "hi".toList)])]])])
    else none
  toText _ := []

/-- The ASCII bytes of a text. -/
def asciiBytes (t : Text) : List UInt8 := t.map fun c => UInt8.ofNat c.toNat

/-- A body with a line that is cut, and an end marker. -/
theorem sseEventStream_decodes_cutLine :
    itemsUpToError oneDeltaJson (fun _ => []) (sseEventStream
        [.chunk (asciiBytes "data:".toList), .chunk (asciiBytes "1\ndata: [DONE]".toList)] 60 60) =
      [.ok (.text "hi".toList)] := by
  have hlines : lines newline [asciiBytes "data:".toList,
      asciiBytes "1\ndata: [DONE]".toList].flatten =
        [asciiBytes "data:1\n".toList, asciiBytes "data: [DONE]".toList] := by decide
  have houtcomes : lineOutcomes oneDeltaJson (fun _ => []) [asciiBytes "data:".toList,
      asciiBytes "1\ndata: [DONE]".toList].flatten = [.events [.text "hi".toList], .done] := by
    rw [lineOutcomes, hlines]
    rfl
  have hdecodes := (sseEventStream_decodes oneDeltaJson (fun _ => [])
    [asciiBytes "data:".toList, asciiBytes "1\ndata: [DONE]".toList] 60 60 (by decide)
    (by rw [hlines]; decide) (by rw [houtcomes]; decide) (by decide)).1
  rw [bodyItems, houtcomes] at hdecodes
  exact hdecodes

theorem lines_blank (n : ℕ) :
    lines newline (List.replicate n newline) = List.replicate n [newline] := by
  induction n with
  | zero => rfl
  | succ n ih => rw [List.replicate_succ, lines, if_pos rfl, ih, List.replicate_succ]

theorem eventBatches_skip (n : ℕ) : eventBatches (List.replicate n .skip) = [] := by
  induction n with
  | zero => rfl
  | succ n ih =>
    rw [List.replicate_succ]
    exact ih

theorem round_firstChunk (json : SerdeJson) (jsonError : Text → Text) (bytes : List UInt8) :
    round json jsonError (sseEventStream [.chunk bytes] 60 60) =
      receiveChunk (sseEventStream [] 60 60) bytes := rfl

/-- Blank lines, one byte more than the boundary of a single line. -/
def blankLines : List UInt8 := List.replicate (maxSseLineBytes + 1) newline

def brokenLine : List UInt8 := asciiBytes "data:0\ndata:1\n".toList

/-- The state behind the only chunk, with the bytes that are still in the buffer. -/
def receivedState (buf : List UInt8) : SseState :=
  { sseEventStream [] 60 60 with buf := buf, receivedChunk := true, rawBytes := 14, chunksSeen := 1 }

/-- A chunk with several lines makes the buffer longer than a line may be; and a consumer that
polls on behind an error is given the events of the next line. -/
theorem chunk_exceeds_line_cap :
    (blankLines.length ≤ maxSseResponseBytes ∧
      (∀ line ∈ lines newline blankLines, line.length ≤ maxSseLineBytes) ∧
      WithinEventCaps 0 (lineOutcomes oneDeltaJson (fun _ => []) blankLines) ∧
      ∃ s, Reached oneDeltaJson (fun _ => []) (sseEventStream [.chunk blankLines] 60 60) s ∧
        maxSseLineBytes < s.buf.length) ∧
    ∃ e s ev s', nextItem oneDeltaJson (fun _ => []) (sseEventStream [.chunk brokenLine] 60 60) =
        some (.error e, s) ∧
      nextItem oneDeltaJson (fun _ => []) s = some (.ok ev, s') := by
  have hlength : blankLines.length = maxSseLineBytes + 1 := List.length_replicate
  have hlines : lines newline blankLines = List.replicate (maxSseLineBytes + 1) [newline] :=
    lines_blank _
  have hskip : parseSseLine oneDeltaJson (fun _ => []) [newline] = .skip := rfl
  have hfits : ∀ line ∈ lines newline blankLines, line.length ≤ maxSseLineBytes := by
    intro line hline
    rw [hlines] at hline
    rw [List.eq_of_mem_replicate hline]
    decide
  constructor
  · refine ⟨by rw [hlength]; decide, hfits, ?_, ?_⟩
    · rw [lineOutcomes, hlines, List.map_replicate, hskip, WithinEventCaps, eventBatches_skip]
      decide
    · have hround := round_firstChunk oneDeltaJson (fun _ => []) blankLines
      have hbytes : (sseEventStream [] 60 60).rawBytes + blankLines.length ≤
          maxSseResponseBytes := by
        rw [hlength]
        decide
      have hfit : chunkLinesFit (sseEventStream [] 60 60).buf.length blankLines maxSseLineBytes =
          true := (linesFit_iff 0 blankLines).mpr (fitFrom_zero.mpr hfits)
      rw [receiveChunk_of_fits (by decide) hbytes hfit] at hround
      refine ⟨_, .round .start (congrArg Round.next hround), ?_⟩
      dsimp only [sseEventStream]
      rw [List.nil_append, hlength]
      exact Nat.lt_succ_self _
  · have herror : nextItem oneDeltaJson (fun _ => []) (sseEventStream [.chunk brokenLine] 60 60) =
        some (.error (.stream "invalid SSE JSON: ".toList),
          receivedState (asciiBytes "data:1\n".toList)) := by
      have hbroken : round oneDeltaJson (fun _ => []) (receivedState brokenLine) =
          .item (.error (.stream "invalid SSE JSON: ".toList))
            (receivedState (asciiBytes "data:1\n".toList)) := rfl
      have hchunk : round oneDeltaJson (fun _ => []) (sseEventStream [.chunk brokenLine] 60 60) =
          .again (receivedState brokenLine) := rfl
      rw [nextItem_round, hchunk]
      dsimp only
      rw [nextItem_round, hbroken]
    have hevent : ∃ s', nextItem oneDeltaJson (fun _ => [])
        (receivedState (asciiBytes "data:1\n".toList)) = some (.ok (.text "hi".toList), s') := by
      have hline : round oneDeltaJson (fun _ => [])
          (receivedState (asciiBytes "data:1\n".toList)) =
            .again { receivedState [] with pending := [.text "hi".toList], eventsSeen := 1 } := rfl
      rw [nextItem_round, hline]
      dsimp only
      rw [nextItem_round]
      exact ⟨_, rfl⟩
    obtain ⟨s', hs'⟩ := hevent
    exact ⟨_, _, _, s', herror, hs'⟩

end DeepseekScience.Llm
