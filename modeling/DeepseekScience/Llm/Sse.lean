import DeepseekScience.Lib.Lines
import DeepseekScience.Llm.Stream

/-! The event stream of a provider response: one `data:` line of the body is decoded at a time,
and the body arrives in network chunks that may be cut anywhere. -/
namespace DeepseekScience.Llm

/-! UTF-8 as `String::from_utf8_lossy` reads it. -/

def isContinuation (b : UInt8) : Bool := 0x80 ≤ b && b ≤ 0xBF

/-- The number of bytes that a sequence with this first byte takes; 0 for no first byte. -/
def sequenceWidth (b : UInt8) : ℕ :=
  if b < 0x80 then 1
  else if 0xC2 ≤ b && b ≤ 0xDF then 2
  else if 0xE0 ≤ b && b ≤ 0xEF then 3
  else if 0xF0 ≤ b && b ≤ 0xF4 then 4
  else 0

/-- Whether the second byte can follow the first one: no overlong form, no surrogate, and nothing
behind the last code point. -/
def secondByteFits (first second : UInt8) : Bool :=
  if first = 0xE0 then 0xA0 ≤ second && second ≤ 0xBF
  else if first = 0xED then 0x80 ≤ second && second ≤ 0x9F
  else if first = 0xF0 then 0x90 ≤ second && second ≤ 0xBF
  else if first = 0xF4 then 0x80 ≤ second && second ≤ 0x8F
  else isContinuation second

def replacementCharacter : Char := '\uFFFD'

def continuationBits (b : UInt8) : ℕ := b.toNat % 64

/-- Every maximal part of an invalid sequence becomes one replacement character. -/
def fromUtf8Lossy : List UInt8 → Text
  | [] => []
  | b :: rest =>
    match sequenceWidth b, rest with
    | 1, rest => Char.ofNat b.toNat :: fromUtf8Lossy rest
    | 2, c :: rest' =>
      if secondByteFits b c then
        Char.ofNat (b.toNat % 32 * 64 + continuationBits c) :: fromUtf8Lossy rest'
      else replacementCharacter :: fromUtf8Lossy (c :: rest')
    | 3, c :: rest' =>
      if secondByteFits b c then
        match rest' with
        | d :: rest'' =>
          if isContinuation d then
            Char.ofNat (b.toNat % 16 * 4096 + continuationBits c * 64 + continuationBits d) ::
              fromUtf8Lossy rest''
          else replacementCharacter :: fromUtf8Lossy (d :: rest'')
        | [] => [replacementCharacter]
      else replacementCharacter :: fromUtf8Lossy (c :: rest')
    | 4, c :: rest' =>
      if secondByteFits b c then
        match rest' with
        | d :: rest'' =>
          if isContinuation d then
            match rest'' with
            | e :: rest''' =>
              if isContinuation e then
                Char.ofNat (b.toNat % 8 * 262144 + continuationBits c * 4096 +
                  continuationBits d * 64 + continuationBits e) :: fromUtf8Lossy rest'''
              else replacementCharacter :: fromUtf8Lossy (e :: rest''')
            | [] => [replacementCharacter]
          else replacementCharacter :: fromUtf8Lossy (d :: rest'')
        | [] => [replacementCharacter]
      else replacementCharacter :: fromUtf8Lossy (c :: rest')
    | _, rest => replacementCharacter :: fromUtf8Lossy rest

/-! One line. -/

def u32Wrap (n : ℕ) : ℕ := n % 2 ^ 32

def parseUsage (v : Json) : Usage :=
  let promptTokens := u32Wrap ((v.get "prompt_tokens".toList).asU64.getD 0)
  let cacheHitTokens := u32Wrap (((v.get "prompt_cache_hit_tokens".toList).asU64.or
    ((v.get "prompt_tokens_details".toList).get "cached_tokens".toList).asU64).getD 0)
  let cacheMissTokens := u32Wrap ((v.get "prompt_cache_miss_tokens".toList).asU64.getD
    (if 0 < cacheHitTokens then promptTokens - cacheHitTokens else 0))
  { inputTokens := promptTokens
    outputTokens := u32Wrap ((v.get "completion_tokens".toList).asU64.getD 0)
    cacheHitTokens := cacheHitTokens
    cacheMissTokens := cacheMissTokens }

inductive LlmError where
  | stream (message : Text)
  | transport (message : Text)
  deriving DecidableEq

inductive LineOutcome where
  | skip
  | done
  | events (events : List StreamEvent)
  | error (e : LlmError)
  deriving DecidableEq

def nonemptyStr (v : Json) : Option Text := v.asStr.filter fun value => !value.isEmpty

/-- The reasoning and the answer of one delta. -/
def deltaEvents (delta : Json) : List StreamEvent :=
  match nonemptyStr (delta.get "reasoning_content".toList), nonemptyStr (delta.get "content".toList)
  with
  | some thinking, some text => [.assistantDelta thinking text]
  | some thinking, none => [.thinking thinking]
  | none, some text => [.text text]
  | none, none => []

def toolCallDelta (tc : Json) : ToolCallDelta where
  index := u32Wrap ((tc.get "index".toList).asU64.getD 0)
  id := (tc.get "id".toList).asStr
  name := ((tc.get "function".toList).get "name".toList).asStr
  arguments := ((tc.get "function".toList).get "arguments".toList).asStr

def choiceEvents (choice : Json) : List StreamEvent :=
  let delta := choice.get "delta".toList
  deltaEvents delta ++
    ((delta.get "tool_calls".toList).asArray.getD []).map (fun tc =>
      .toolCallDelta (toolCallDelta tc)) ++
    ((choice.get "finish_reason".toList).asStr.toList).map fun reason => .finish (some reason)

def payloadEvents (v : Json) : List StreamEvent :=
  let usage := v.get "usage".toList
  (if usage.isObject then [.usage (parseUsage usage)] else []) ++
    (((v.get "choices".toList).asArray.bind List.head?).elim [] choiceEvents)

/-- `str::trim_end_matches` with the line terminators. -/
def trimLineEnd (t : Text) : Text :=
  (t.reverse.dropWhile fun c => c == '\n' || c == '\r').reverse

def stripPrefixText (pattern t : Text) : Option Text :=
  if pattern.isPrefixOf t then some (t.drop pattern.length) else none

section
variable (json : SerdeJson) (jsonError : Text → Text)

/-- One line: `data: {json}` or `data: [DONE]`. `jsonError` is the text of a failed JSON parse. -/
def parseSseLine (line : List UInt8) : LineOutcome :=
  let line := trimLineEnd (fromUtf8Lossy line)
  if line.isEmpty || line.head? == some ':' then .skip
  else
    match stripPrefixText "data:".toList line with
    | none => .skip
    | some payload =>
      let payload := trimStart payload
      if payload = "[DONE]".toList then .done
      else
        match json.fromStr payload with
        | none => .error (.stream ("invalid SSE JSON: ".toList ++ jsonError payload))
        | some v => .events (payloadEvents v)

/-! The stream. -/

def maxSseLineBytes : ℕ := 4 * 1024 * 1024

def maxSseResponseBytes : ℕ := 16 * 1024 * 1024

def maxSseEventsPerLine : ℕ := 256

def maxSseEventsPerResponse : ℕ := 262144

def maxSseChunksPerResponse : ℕ := 262144

def newline : UInt8 := 0x0A

/-- What the wait for the next chunk of the body comes to; behind the last one the body has
ended. -/
inductive Arrival where
  | chunk (bytes : List UInt8)
  | broken (message : Text)
  | timedOut

structure SseState where
  chunks : List Arrival
  buf : List UInt8 := []
  pending : List StreamEvent := []
  done : Bool := false
  receivedChunk : Bool := false
  rawBytes : ℕ := 0
  eventsSeen : ℕ := 0
  chunksSeen : ℕ := 0
  firstChunkTimeout : ℕ := 0
  idleTimeout : ℕ := 0

/-- What one round of the stream's loop comes to. -/
inductive Round where
  | item (item : Except LlmError StreamEvent) (s : SseState)
  | again (s : SseState)
  | ended

def lineTooLong : LlmError :=
  .stream ("SSE line exceeds ".toList ++ natText maxSseLineBytes ++ " byte cap".toList)

def tooManyEvents : LlmError :=
  .stream "SSE event stream exceeds its configured boundary".toList

def checkedBoundedAdd (current additional cap : ℕ) : Option ℕ :=
  if current + additional < 2 ^ 64 ∧ current + additional ≤ cap then some (current + additional)
  else none

/-- No complete or partial line behind an unterminated one of `prefixLen` bytes gets too long. -/
def chunkLinesFit (prefixLen : ℕ) (chunk : List UInt8) (cap : ℕ) : Bool :=
  Lines.linesFit newline cap prefixLen chunk

/-- Queue the events of a line, within their boundaries. -/
def queueEvents (s : SseState) (evs : List StreamEvent) : Round :=
  if maxSseEventsPerLine < evs.length ∨ maxSseEventsPerResponse < s.eventsSeen + evs.length then
    .item (.error tooManyEvents) s
  else .again { s with eventsSeen := s.eventsSeen + evs.length, pending := s.pending ++ evs }

def timeoutError (s : SseState) : LlmError :=
  let (phase, timeout) :=
    if s.receivedChunk then ("SSE body idle".toList, s.idleTimeout)
    else ("first SSE body chunk".toList, s.firstChunkTimeout)
  .stream ("timed out waiting for ".toList ++ phase ++ " after ".toList ++ natText timeout ++
    "s".toList)

/-- Take in one chunk, unless it exceeds a boundary. -/
def receiveChunk (s : SseState) (bytes : List UInt8) : Round :=
  let s := { s with receivedChunk := true, chunksSeen := s.chunksSeen + 1 }
  if maxSseChunksPerResponse < s.chunksSeen then
    .item (.error (.stream "SSE response contains too many body chunks".toList)) s
  else
    match checkedBoundedAdd s.rawBytes bytes.length maxSseResponseBytes with
    | none =>
      .item (.error (.stream ("SSE response exceeds ".toList ++ natText maxSseResponseBytes ++
        " byte cap".toList))) s
    | some rawBytes =>
      if chunkLinesFit s.buf.length bytes maxSseLineBytes then
        .again { s with rawBytes := rawBytes, buf := s.buf ++ bytes }
      else .item (.error lineTooLong) s

/-- The end of the body: an unterminated rest is one more line. -/
def receiveEnd (s : SseState) : Round :=
  if s.buf.isEmpty then .ended
  else if maxSseLineBytes < s.buf.length then .item (.error lineTooLong) s
  else
    let line := s.buf
    let s := { s with buf := [], done := true }
    match parseSseLine json jsonError line with
    | .events evs => queueEvents s evs
    | .error e => .item (.error e) s
    | .skip | .done => .again s

/-- One round of the loop in `sse_event_stream_with_timeouts`. -/
def round (s : SseState) : Round :=
  match s.pending with
  | ev :: pending => .item (.ok ev) { s with pending := pending }
  | [] =>
    if s.done then .ended
    else
      match Lines.takeLine newline s.buf with
      | some (line, rest) =>
        if maxSseLineBytes < line.length then .item (.error lineTooLong) s
        else
          let s := { s with buf := rest }
          match parseSseLine json jsonError line with
          | .skip => .again s
          | .done => .again { s with done := true }
          | .events evs => queueEvents s evs
          | .error e => .item (.error e) s
      | none =>
        match s.chunks with
        | .chunk bytes :: chunks => receiveChunk { s with chunks := chunks } bytes
        | .timedOut :: chunks => .item (.error (timeoutError s)) { s with chunks := chunks }
        | .broken e :: chunks => .item (.error (.transport e)) { s with chunks := chunks }
        | [] => receiveEnd json jsonError s

/-! A round that goes on consumes a part of the input, and a yielded event one of the queue. -/

theorem queueEvents_again {s s' : SseState} {evs : List StreamEvent}
    (h : queueEvents s evs = .again s') : s' =
      { s with eventsSeen := s.eventsSeen + evs.length, pending := s.pending ++ evs } := by
  unfold queueEvents at h
  split_ifs at h
  exact (Round.again.inj h).symm

theorem queueEvents_item {s s' : SseState} {evs : List StreamEvent}
    {i : Except LlmError StreamEvent} (h : queueEvents s evs = .item i s') :
    i = .error tooManyEvents := by
  unfold queueEvents at h
  split_ifs at h
  exact (Round.item.inj h).1.symm

theorem receiveChunk_again {s s' : SseState} {bytes : List UInt8}
    (h : receiveChunk s bytes = .again s') : s' =
      { s with
        receivedChunk := true
        chunksSeen := s.chunksSeen + 1
        rawBytes := s.rawBytes + bytes.length
        buf := s.buf ++ bytes } ∧ s.rawBytes + bytes.length ≤ maxSseResponseBytes ∧
      chunkLinesFit s.buf.length bytes maxSseLineBytes = true := by
  unfold receiveChunk at h
  dsimp only at h
  cases hadd : checkedBoundedAdd s.rawBytes bytes.length maxSseResponseBytes with
  | none =>
    rw [hadd] at h
    split_ifs at h
  | some rawBytes =>
    rw [hadd] at h
    split_ifs at h with _ hfit
    unfold checkedBoundedAdd at hadd
    split_ifs at hadd with hcap
    obtain rfl := Option.some.inj hadd
    exact ⟨(Round.again.inj h).symm, hcap.2, hfit⟩

theorem receiveChunk_item {s s' : SseState} {bytes : List UInt8}
    {i : Except LlmError StreamEvent} (h : receiveChunk s bytes = .item i s') :
    (∃ e, i = .error e) ∧ s'.buf = s.buf := by
  unfold receiveChunk at h
  dsimp only at h
  cases hadd : checkedBoundedAdd s.rawBytes bytes.length maxSseResponseBytes with
  | none =>
    rw [hadd] at h
    split_ifs at h
    all_goals
      obtain ⟨rfl, rfl⟩ := Round.item.inj h
      exact ⟨⟨_, rfl⟩, rfl⟩
  | some rawBytes =>
    rw [hadd] at h
    split_ifs at h
    all_goals
      obtain ⟨rfl, rfl⟩ := Round.item.inj h
      exact ⟨⟨_, rfl⟩, rfl⟩

theorem receiveEnd_again {s s' : SseState} (h : receiveEnd json jsonError s = .again s') :
    s.buf ≠ [] ∧ s'.chunks = s.chunks ∧ s'.buf = [] := by
  unfold receiveEnd at h
  split_ifs at h with hempty
  rw [List.isEmpty_iff] at hempty
  dsimp only at h
  split at h
  · rw [queueEvents_again h]
    exact ⟨hempty, rfl, rfl⟩
  · cases h
  all_goals
    obtain rfl := Round.again.inj h
    exact ⟨hempty, rfl, rfl⟩

theorem receiveEnd_item {s s' : SseState} {i : Except LlmError StreamEvent}
    (h : receiveEnd json jsonError s = .item i s') : ∃ e, i = .error e := by
  unfold receiveEnd at h
  split_ifs at h
  · exact ⟨_, (Round.item.inj h).1.symm⟩
  · dsimp only at h
    split at h
    · exact ⟨_, queueEvents_item h⟩
    · exact ⟨_, (Round.item.inj h).1.symm⟩
    all_goals cases h

theorem round_again {s s' : SseState} (h : round json jsonError s = .again s') :
    s'.chunks.length < s.chunks.length ∨
      s'.chunks.length = s.chunks.length ∧ s'.buf.length < s.buf.length := by
  unfold round at h
  split at h
  · cases h
  · split_ifs at h
    split at h
    · rename_i line rest hline
      have hlength := Lines.takeLine_length hline
      right
      split_ifs at h
      dsimp only at h
      split at h
      · obtain rfl := Round.again.inj h
        exact ⟨rfl, hlength⟩
      · obtain rfl := Round.again.inj h
        exact ⟨rfl, hlength⟩
      · rw [queueEvents_again h]
        exact ⟨rfl, hlength⟩
      · cases h
    · split at h
      · rename_i hchunks
        left
        rw [(receiveChunk_again h).1, hchunks, List.length_cons]
        exact Nat.lt_succ_self _
      · cases h
      · cases h
      · obtain ⟨hne, hchunks, hbuf⟩ := receiveEnd_again json jsonError h
        right
        rw [hchunks, hbuf]
        exact ⟨rfl, List.length_pos_iff.mpr hne⟩

theorem round_event {s s' : SseState} {ev : StreamEvent}
    (h : round json jsonError s = .item (.ok ev) s') :
    s.pending = ev :: s'.pending ∧ s' = { s with pending := s'.pending } := by
  unfold round at h
  split at h
  · rename_i hpending
    obtain ⟨hev, rfl⟩ := Round.item.inj h
    obtain rfl := Except.ok.inj hev
    exact ⟨hpending, rfl⟩
  · split_ifs at h
    split at h
    · split_ifs at h
      · cases h
      · dsimp only at h
        split at h
        · cases h
        · cases h
        · cases queueEvents_item h
        · cases h
    · split at h
      · obtain ⟨⟨e, he⟩, -⟩ := receiveChunk_item h
        cases he
      · cases h
      · cases h
      · obtain ⟨e, he⟩ := receiveEnd_item json jsonError h
        cases he

/-- One poll of the stream. -/
def nextItem (s : SseState) : Option (Except LlmError StreamEvent × SseState) :=
  match _h : round json jsonError s with
  | .item i s' => some (i, s')
  | .again s' => nextItem s'
  | .ended => none
termination_by (s.chunks.length, s.buf.length)
decreasing_by
  rcases round_again json jsonError _h with hlt | ⟨heq, hlt⟩
  · exact Prod.Lex.left _ _ hlt
  · rw [heq]
    exact Prod.Lex.right _ hlt

/-- What a consumer polls, up to the end or the first error. -/
def itemsUpToError (s : SseState) : List (Except LlmError StreamEvent) :=
  match _h : round json jsonError s with
  | .item (.ok ev) s' => .ok ev :: itemsUpToError s'
  | .item (.error e) _ => [.error e]
  | .again s' => itemsUpToError s'
  | .ended => []
termination_by (s.chunks.length, s.buf.length, s.pending.length)
decreasing_by
  · obtain ⟨hpending, hs⟩ := round_event json jsonError _h
    rw [hs, hpending]
    exact Prod.Lex.right _ (Prod.Lex.right _ (Nat.lt_succ_self _))
  · rcases round_again json jsonError _h with hlt | ⟨heq, hlt⟩
    · exact Prod.Lex.left _ _ hlt
    · rw [heq]
      exact Prod.Lex.right _ (Prod.Lex.left _ _ hlt)

/-- The stream of a response body. -/
def sseEventStream (chunks : List Arrival) (firstChunkTimeout idleTimeout : ℕ) : SseState :=
  { chunks := chunks, firstChunkTimeout := firstChunkTimeout, idleTimeout := idleTimeout }

end
end DeepseekScience.Llm
