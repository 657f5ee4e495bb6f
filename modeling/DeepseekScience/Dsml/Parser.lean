import DeepseekScience.Json
import DeepseekScience.Dsml.Tag
import DeepseekScience.Dsml.Markdown

/-! Strict compatibility parser for the textual tool protocol: the visible scan that
honors complete Markdown code regions, the raw scan inside an established block, and the
whole-turn decision. The raw scan passes on the text behind its cursor. -/
namespace DeepseekScience.Dsml

structure ParsedDsmlCall where
  name : Text
  arguments : Text
  deriving DecidableEq

inductive ParsedAssistantText where
  | plain (text : Text)
  | toolCalls (visibleText : Text) (calls : List ParsedDsmlCall)
  deriving DecidableEq

structure LocatedTag where
  start : ℕ
  stop : ℕ
  tag : DsmlTag
  deriving DecidableEq

/-- A tag found by the raw scan, with the text in front of it and behind it. -/
structure RawTag where
  between : Text
  tag : DsmlTag
  rest : Text
  deriving DecidableEq

def RawTag.prepend (c : Char) (found : RawTag) : RawTag :=
  { found with between := c :: found.between }

/-- Locate protocol inside an established block. Markdown has no meaning here because
parameter bodies are control payload. -/
def findNextRawDsmlTag : Text → Except DsmlError (Option RawTag)
  | [] => .ok none
  | c :: rest =>
    if c = '<' then
      match parseCandidateTag rest with
      | .error e => .error e
      | .ok (.dsml tag) => (findTagEnd rest).map fun behind => some ⟨[], tag, behind⟩
      | .ok .notDsml => (findNextRawDsmlTag rest).map (Option.map (RawTag.prepend c))
    else (findNextRawDsmlTag rest).map (Option.map (RawTag.prepend c))

/-- Locate control protocol while honoring only complete Markdown code regions. -/
def findNextVisibleFrom (text : Text) (backticks : BacktickIndex) :
    Text → ℕ → ℕ → List (ℕ × ℕ) → Except DsmlError (Option LocatedTag)
  | [], _, _, _ => .ok none
  | c :: rest, position, cursor, ranges =>
    if position < cursor then findNextVisibleFrom text backticks rest (position + 1) cursor ranges
    else
      match pendingRanges ranges position with
      | [] => visit c rest position []
      | (start, stop) :: later =>
        if start ≤ position then findNextVisibleFrom text backticks rest (position + 1) stop later
        else visit c rest position ((start, stop) :: later)
where
  visit (c : Char) (rest : Text) (position : ℕ) (ranges : List (ℕ × ℕ)) :
      Except DsmlError (Option LocatedTag) :=
    let fence :=
      if isLineStart text position then fenceOpeningAtLine text position (lineEnd text position)
      else none
    match fence with
    | some (contentStart, _, width, _) =>
      -- An unterminated fence stays literal, so that it cannot conceal protocol.
      findNextVisibleFrom text backticks rest (position + 1) (contentStart + width) ranges
    | none =>
      if c = '`' then
        let rawWidth := backtickWidth (c :: rest)
        let closing :=
          match normalizedBacktickRun text position rawWidth with
          | some (start, width) => backticks.closingEnd start width
          | none => none
        findNextVisibleFrom text backticks rest (position + 1)
          (closing.getD (position + rawWidth)) ranges
      else if c = '<' then
        match parseCandidateTag rest with
        | .error e => .error e
        | .ok (.dsml tag) =>
          (findTagEnd rest).map fun behind =>
            some ⟨position, position + 1 + (rest.length - behind.length), tag⟩
        | .ok .notDsml =>
          findNextVisibleFrom text backticks rest (position + 1) (position + 1) ranges
      else findNextVisibleFrom text backticks rest (position + 1) (position + 1) ranges

def findNextVisibleDsmlTag (text : Text) (cursor : ℕ) : Except DsmlError (Option LocatedTag) :=
  let protectedBlocks := completeMarkdownBlockRanges text
  findNextVisibleFrom text (BacktickIndex.build text protectedBlocks) text 0 cursor
    (pendingRanges protectedBlocks cursor)

def requireWhitespace (text : Text) : Except DsmlError Unit :=
  if allWhitespace text then .ok () else .error .unexpectedTag

/-- The next raw tag of a block that is still open. -/
def requireRawTag (text : Text) : Except DsmlError RawTag :=
  match findNextRawDsmlTag text with
  | .error e => .error e
  | .ok none => .error .unclosedBlock
  | .ok (some found) => .ok found

section
variable (json : SerdeJson)

def parseParameter (text : Text) (isString : Bool) : Except DsmlError (Json × ℕ × Text) := do
  let close ← requireRawTag text
  if !close.tag.closing || close.tag.name != .parameter then throw .unexpectedTag
  requireAttrs close.tag []
  let body := close.between
  if byteLen body > maxToolArgumentBytesPerCall then throw .boundaryExceeded
  if isString then return (.string body, byteLen body, close.rest)
  match json.fromStr (trim body) with
  | some value => return (value, byteLen body, close.rest)
  | none => throw .invalidJson

def parseStringFlag (flag : Text) : Except DsmlError Bool :=
  if flag = "true".toList then .ok true
  else if flag = "false".toList then .ok false
  else .error .invalidStringFlag

/-- The loop over the parameters of one call. Every round consumes a tag, so the length of
the text is enough fuel. -/
def parseInvokeFrom (name : Text) :
    ℕ → Text → List (Text × Json) → ℕ → Except DsmlError (ParsedDsmlCall × Text)
  | 0, _, _, _ => .error .unclosedBlock
  | fuel + 1, text, arguments, argumentBodyBytes => do
    let next ← requireRawTag text
    requireWhitespace next.between
    match next.tag.closing, next.tag.name with
    | true, .invoke =>
      requireAttrs next.tag []
      let rendered := json.toText (.object arguments)
      if byteLen rendered > maxToolArgumentBytesPerCall then throw .boundaryExceeded
      return (⟨name, rendered⟩, next.rest)
    | false, .parameter =>
      let parameterName ← requiredAttr next.tag "name".toList
      let stringFlag ← requiredAttr next.tag "string".toList
      if next.tag.attrs.length ≠ 2 || parameterName.isEmpty then throw .invalidAttributes
      if byteLen parameterName > maxToolParameterNameBytes then throw .boundaryExceeded
      if maxToolParametersPerCall ≤ arguments.length then throw .boundaryExceeded
      if (arguments.lookup parameterName).isSome then throw .duplicateParameter
      let isString ← parseStringFlag stringFlag
      let (value, bodyBytes, rest) ← parseParameter json next.rest isString
      if argumentBodyBytes + bodyBytes > maxToolArgumentBytesPerCall then throw .boundaryExceeded
      parseInvokeFrom name fuel rest (insertMember parameterName value arguments)
        (argumentBodyBytes + bodyBytes)
    | _, _ => throw .unexpectedTag

def parseInvoke (text name : Text) : Except DsmlError (ParsedDsmlCall × Text) :=
  parseInvokeFrom json name (text.length + 1) text [] 0

/-- The loop over the calls of one block, with the same fuel argument. -/
def parseToolCallsBlockFrom :
    ℕ → Text → List ParsedDsmlCall → ℕ → Except DsmlError (List ParsedDsmlCall × Text)
  | 0, _, _, _ => .error .unclosedBlock
  | fuel + 1, text, calls, totalArgumentBytes => do
    let next ← requireRawTag text
    requireWhitespace next.between
    match next.tag.closing, next.tag.name with
    | true, .toolCalls =>
      requireAttrs next.tag []
      if calls.isEmpty then throw .emptyBatch
      return (calls, next.rest)
    | false, .invoke =>
      let name ← requiredSingleAttr next.tag "name".toList
      if name.isEmpty then throw .invalidAttributes
      if byteLen name > maxToolNameBytes then throw .boundaryExceeded
      let (call, rest) ← parseInvoke json next.rest name
      if maxToolCallsPerTurn ≤ calls.length then throw .boundaryExceeded
      if totalArgumentBytes + byteLen call.arguments > maxToolArgumentBytesTotal then
        throw .boundaryExceeded
      parseToolCallsBlockFrom fuel rest (calls ++ [call])
        (totalArgumentBytes + byteLen call.arguments)
    | _, _ => throw .unexpectedTag

def parseToolCallsBlock (text : Text) : Except DsmlError (List ParsedDsmlCall × Text) :=
  parseToolCallsBlockFrom json (text.length + 1) text [] 0

/-- Parse one complete assistant text turn. -/
def parseAssistantText (text : Text) : Except DsmlError ParsedAssistantText := do
  if byteLen text > maxAssistantTextBytes then throw .tooLarge
  match ← findNextVisibleDsmlTag text 0 with
  | none => return .plain text
  | some opener =>
    if opener.tag.closing || opener.tag.name != .toolCalls then throw .unexpectedTag
    if !isExecutableTopLevelOpener text opener.start then throw .invalidContext
    requireAttrs opener.tag []
    let (calls, rest) ← parseToolCallsBlock json (text.drop opener.stop)
    if (← findNextVisibleDsmlTag text (text.length - rest.length)).isSome then
      throw .multipleBlocks
    if !allWhitespace rest then throw .invalidContext
    return .toolCalls [] calls

end

theorem getElem?_of_drop_eq_cons {text rest : Text} {c : Char} {n : ℕ}
    (h : text.drop n = c :: rest) : text[n]? = some c := by
  have := congrArg (·[0]?) h
  simpa using this

theorem lt_length_of_drop_eq_cons {text rest : Text} {c : Char} {n : ℕ}
    (h : text.drop n = c :: rest) : n < text.length :=
  (List.getElem?_eq_some_iff.mp (getElem?_of_drop_eq_cons h)).1

theorem drop_succ_of_drop_eq_cons {text rest : Text} {c : Char} {n : ℕ}
    (h : text.drop n = c :: rest) : text.drop (n + 1) = rest := by
  rw [← List.tail_drop, h, List.tail_cons]

/-- The visible scan only reports a tag at a raw `<`. -/
theorem findNextVisibleFrom_start {text : Text} {backticks : BacktickIndex} {rest : Text}
    {position cursor : ℕ} {ranges : List (ℕ × ℕ)} {found : LocatedTag}
    (htext : text.drop position = rest)
    (h : findNextVisibleFrom text backticks rest position cursor ranges = .ok (some found)) :
    text[found.start]? = some '<' := by
  induction rest generalizing position cursor ranges with
  | nil => simp [findNextVisibleFrom] at h
  | cons c rest ih =>
    have hdrop := drop_succ_of_drop_eq_cons htext
    have hvisit : ∀ later, findNextVisibleFrom.visit text backticks c rest position later =
        .ok (some found) → text[found.start]? = some '<' := by
      intro later hv
      simp only [findNextVisibleFrom.visit] at hv
      split at hv
      · exact ih hdrop hv
      · split_ifs at hv with hb hl
        · exact ih hdrop hv
        · split at hv
          · cases hv
          · cases hend : findTagEnd rest with
            | error e => simp [hend, Except.map] at hv
            | ok behind =>
              simp only [hend, Except.map, Except.ok.injEq, Option.some.injEq] at hv
              rw [← hv, getElem?_of_drop_eq_cons htext, hl]
          · exact ih hdrop hv
        · exact ih hdrop hv
    rw [findNextVisibleFrom] at h
    split_ifs at h
    · exact ih hdrop h
    · split at h
      · exact hvisit _ h
      · split_ifs at h
        · exact ih hdrop h
        · exact hvisit _ h

theorem findNextVisibleDsmlTag_start {text : Text} {cursor : ℕ} {found : LocatedTag}
    (h : findNextVisibleDsmlTag text cursor = .ok (some found)) :
    text[found.start]? = some '<' :=
  findNextVisibleFrom_start (List.drop_zero ..) h

/-- What an accepted turn is: plain, or one executable envelope. -/
theorem parseAssistantText_cases {json : SerdeJson} {text : Text} {parsed : ParsedAssistantText}
    (h : parseAssistantText json text = .ok parsed) :
    (parsed = .plain text ∧ findNextVisibleDsmlTag text 0 = .ok none) ∨
      ∃ opener calls rest, findNextVisibleDsmlTag text 0 = .ok (some opener) ∧
        isExecutableTopLevelOpener text opener.start = true ∧
        parseToolCallsBlock json (text.drop opener.stop) = .ok (calls, rest) ∧
        allWhitespace rest = true ∧ parsed = .toolCalls [] calls := by
  simp only [parseAssistantText, bind, Except.bind, pure, Except.pure, throw, throwThe,
    MonadExceptOf.throw] at h
  split_ifs at h
  split at h
  · cases h
  · rename_i found hfind
    cases found with
    | none => exact Or.inl ⟨by simpa using h.symm, hfind⟩
    | some opener =>
      simp only at h
      split_ifs at h with _ hexec
      split at h
      · cases h
      · split at h
        · cases h
        · rename_i block hblock
          split at h
          · cases h
          · split_ifs at h with _ hrest
            exact Or.inr ⟨opener, block.1, block.2, hfind, by simpa using hexec, hblock,
              by simpa using hrest, by simpa using h.symm⟩

theorem parseAssistantText_plain_eq {json : SerdeJson} {text v : Text}
    (h : parseAssistantText json text = .ok (.plain v)) : v = text := by
  rcases parseAssistantText_cases h with ⟨he, -⟩ | ⟨_, _, _, _, _, _, _, he⟩
  · injection he
  · cases he

/-- A block that ends has at least one call, by induction on the fuel. -/
theorem parseToolCallsBlockFrom_ne {json : SerdeJson} {text rest : Text}
    {acc calls : List ParsedDsmlCall} {total fuel : ℕ}
    (h : parseToolCallsBlockFrom json fuel text acc total = .ok (calls, rest)) : calls ≠ [] := by
  induction fuel generalizing text acc total with
  | zero => simp [parseToolCallsBlockFrom] at h
  | succ fuel ih =>
    simp only [parseToolCallsBlockFrom, bind, Except.bind, pure, Except.pure, throw, throwThe,
      MonadExceptOf.throw] at h
    repeat' split at h
    all_goals first
      | exact ih h
      | simp only [Except.ok.injEq, Prod.mk.injEq] at h
        obtain ⟨rfl, rfl⟩ := h
        simp_all
      | cases h

/-- A turn with an envelope has no visible text and at least one call. -/
theorem parseAssistantText_toolCalls {json : SerdeJson} {text v : Text}
    {calls : List ParsedDsmlCall} (h : parseAssistantText json text = .ok (.toolCalls v calls)) :
    v = [] ∧ calls ≠ [] := by
  rcases parseAssistantText_cases h with ⟨he, -⟩ | ⟨_, _, _, -, -, hblock, -, he⟩
  · cases he
  · injection he with hv hcalls
    exact ⟨hv, hcalls ▸ parseToolCallsBlockFrom_ne hblock⟩

end DeepseekScience.Dsml
