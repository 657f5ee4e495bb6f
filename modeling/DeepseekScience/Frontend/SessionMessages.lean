import DeepseekScience.Json
import DeepseekScience.Lib.Fifo
import Mathlib.Data.Rat.Defs
import Mathlib.Data.List.Sort
import Mathlib.Tactic

/-! The transcript that the frontend restores from the stored rows of a session
(`sessionMessages.ts`). Results are queued under run and call id, and a call takes the first. -/
namespace DeepseekScience.Frontend

/-- What the browser and the display guard do with texts. -/
structure BrowserLib where
  lowercase : Text → Text
  parseJson : Text → Option Json
  number : Text → Option ℚ
  sanitize : Text → Text

structure PersistedSessionMessage where
  seq : Option ℤ
  runId : Option Text
  role : Text
  content : Json
  harnessNotice : Bool := false

inductive VisibleRole where
  | user
  | assistant
  | tool
  deriving DecidableEq

/-- `origin` is the identity of the block: the place of the row that it was read from, and its own
place in the content of that row. -/
structure ToolResultBlock where
  toolUseId : Text
  content : Text
  isError : Bool
  origin : ℕ × ℕ
  deriving DecidableEq

inductive ContentBlock where
  | thinking (thinking : Text)
  | text (text : Text)
  | toolUse (id name : Text) (input : Json)
  | toolResult (result : ToolResultBlock)

structure PersistedToolResult where
  block : ToolResultBlock
  seq : Option ℤ
  deriving DecidableEq

structure Usage where
  inputTokens : ℚ
  outputTokens : ℚ
  cacheHitTokens : ℚ
  cacheMissTokens : ℚ

inductive MessageContent where
  | text (text : Text)
  | blocks (blocks : List ContentBlock)

structure SessionRun where
  runId : Text
  ordinal : ℤ
  startSeq : Option ℤ
  endSeq : Option ℤ
  deriving DecidableEq

structure Message where
  role : VisibleRole
  content : MessageContent
  usage : Option Usage := none
  sourceSeq : Option ℤ := none
  sourceRunId : Option Text := none
  run : Option SessionRun := none

/-! Which rows are shown. -/

/-- `String.prototype.trim`: white space and line terminators of the language. -/
def isJsWhitespace (c : Char) : Bool :=
  let n := c.toNat
  (decide (9 ≤ n) && decide (n ≤ 13)) || n == 0x20 || n == 0xA0 || n == 0x1680 ||
    (decide (0x2000 ≤ n) && decide (n ≤ 0x200A)) || n == 0x2028 || n == 0x2029 || n == 0x202F ||
    n == 0x205F || n == 0x3000 || n == 0xFEFF

def jsTrim (t : Text) : Text :=
  ((t.dropWhile isJsWhitespace).reverse.dropWhile isJsWhitespace).reverse

section
variable (lib : BrowserLib)

def normalizeVisibleRole (value : Text) : Option VisibleRole :=
  let role := lib.lowercase (jsTrim value)
  if role = "user".toList then some .user
  else if role = "assistant".toList then some .assistant
  else if role = "tool".toList then some .tool
  else none

def isTrue : Option Json → Bool
  | some (.bool true) => true
  | _ => false

def isInternalObject (obj : Json) : Bool :=
  isTrue (obj.get? "harness_notice".toList) || isTrue (obj.get? "internal".toList) ||
    isTrue (obj.get? "_internal".toList) ||
    isTrue ((obj.get? "metadata".toList).bind fun metadata => metadata.get? "internal".toList)

/-- The role of a row that may be shown: both roles of a row have to agree. -/
def visibleRole (row : PersistedSessionMessage) : Option VisibleRole :=
  if row.harnessNotice then none
  else
    (normalizeVisibleRole lib row.role).bind fun outerRole =>
      if !row.content.isObject then some outerRole
      else if isInternalObject row.content then none
      else
        match row.content.get? "role".toList with
        | none => some outerRole
        | some (.string inner) =>
          if normalizeVisibleRole lib inner = some outerRole then some outerRole else none
        | some _ => none

/-! Blocks of a content. -/

/-- A finite number that is not negative. -/
def finiteCount : Option Json → Option ℚ
  | some (.number literal) => (lib.number literal).filter fun n => decide (0 ≤ n)
  | _ => none

def sanitizeUsage (value : Option Json) : Option Usage :=
  match value with
  | some (.object members) => do
    let input ← finiteCount lib (members.lookup "input_tokens".toList)
    let output ← finiteCount lib (members.lookup "output_tokens".toList)
    return ⟨input, output,
      (finiteCount lib (members.lookup "cache_hit_tokens".toList)).getD 0,
      (finiteCount lib (members.lookup "cache_miss_tokens".toList)).getD 0⟩
  | _ => none

def record : Option Json → Json
  | some (.object members) => .object members
  | _ => .object []

def textOf (value : Option Json) : Option Text := value.bind Json.asStr

/-- A block with known fields only; results carry the place that they come from. -/
def sanitizeBlock (origin : ℕ × ℕ) (value : Json) : Option ContentBlock :=
  match value with
  | .object members => do
    let kind ← textOf (members.lookup "type".toList)
    if kind = "thinking".toList then
      let thinking ← textOf (members.lookup "thinking".toList)
      return .thinking (lib.sanitize thinking)
    else if kind = "text".toList then
      let text ← textOf (members.lookup "text".toList)
      return .text text
    else if kind = "tool_use".toList then
      let id ← textOf (members.lookup "id".toList)
      let name ← textOf (members.lookup "name".toList)
      return .toolUse id name (record (members.lookup "input".toList))
    else if kind = "tool_result".toList then
      let id ← textOf (members.lookup "tool_use_id".toList)
      let content ← textOf (members.lookup "content".toList)
      return .toolResult ⟨id, content, isTrue (members.lookup "is_error".toList), origin⟩
    else none
  | _ => none

def parseToolInput (value : Option Json) : Json :=
  match value with
  | some (.object members) => .object members
  | some (.string text) =>
    match lib.parseJson (if text.isEmpty then "{}".toList else text) with
    | some (.object members) => .object members
    | _ => .object [("_raw".toList, .string text)]
  | _ => .object []

/-! Results and calls. -/

abbrev ToolResults := Text → List PersistedToolResult

def toolKey (runId : Option Text) (callId : Text) : Text :=
  runId.getD "legacy".toList ++ '\x00' :: callId

def takeToolResult (toolResults : ToolResults) (runId : Option Text) (callId : Text) :
    Option PersistedToolResult × ToolResults :=
  Fifo.take toolResults (toolKey runId callId)

/-- `Math.max`, when there is a result with a sequence number. -/
def laterSeq (seq resultSeq : Option ℤ) : Option ℤ :=
  match resultSeq with
  | some r => some (max (seq.getD r) r)
  | none => seq

/-- The blocks so far, the sequence number so far and the results that are left. -/
structure Restoring where
  blocks : List ContentBlock := []
  seq : Option ℤ
  toolResults : ToolResults

def Restoring.push (s : Restoring) (block : ContentBlock) : Restoring :=
  { s with blocks := s.blocks ++ [block] }

/-- A call, with the result that it takes behind it. -/
def Restoring.call (s : Restoring) (runId : Option Text) (id name : Text) (input : Json) :
    Restoring :=
  let s := s.push (.toolUse id name input)
  let (result, toolResults) := takeToolResult s.toolResults runId id
  match result with
  | some result =>
    { s.push (.toolResult result.block) with
      seq := laterSeq s.seq result.seq
      toolResults := toolResults }
  | none => s

/-- A call of an object: its id, name and arguments. -/
def objectCall (candidate : Json) : Option (Text × Text × Option Json) := do
  let id ← textOf (candidate.get? "id".toList)
  let fn ← candidate.get? "function".toList
  let name ← textOf (fn.get? "name".toList)
  return (id, name, fn.get? "arguments".toList)

def appendObjectToolCalls (s : Restoring) (value : Option Json) (runId : Option Text) : Restoring :=
  match value with
  | some (.array candidates) =>
    (candidates.filterMap objectCall).foldl (fun s call =>
      s.call runId call.1 call.2.1 (parseToolInput lib call.2.2)) s
  | _ => s

def resultBlock (origin : ℕ × ℕ) (candidate : Json) : Option ToolResultBlock :=
  match sanitizeBlock lib origin candidate with
  | some (.toolResult block) => some block
  | _ => none

def objectToolResults (place : ℕ) (role : VisibleRole) (content : Json) : List ToolResultBlock :=
  if role = .tool then
    match textOf (content.get? "tool_call_id".toList), textOf (content.get? "content".toList) with
    | some id, some text => [⟨id, text, isTrue (content.get? "is_error".toList), (place, 0)⟩]
    | _, _ => []
  else []

/-- The results that a row holds. -/
def rowToolResults (place : ℕ) (role : VisibleRole) (row : PersistedSessionMessage) :
    List ToolResultBlock :=
  match row.content with
  | .array candidates =>
    candidates.zipIdx.filterMap fun candidate => resultBlock lib (place, candidate.2) candidate.1
  | content => objectToolResults place role content

def collectToolResults (rows : List PersistedSessionMessage) : ToolResults :=
  rows.zipIdx.foldl (fun results (row, place) =>
    match visibleRole lib row with
    | none => results
    | some .user => results
    | some role =>
      (rowToolResults lib place role row).foldl (fun results block =>
        let key := toolKey row.runId block.toolUseId
        Function.update results key (results key ++ [⟨block, row.seq⟩])) results) fun _ => []

/-! Restoring. -/

def restoreUserMessage (row : PersistedSessionMessage) : Option Message :=
  let text : Text :=
    match row.content with
    | .string text => text
    | .array candidates =>
      candidates.flatMap fun candidate =>
        match sanitizeBlock lib (0, 0) candidate with
        | some (.text text) => text
        | _ => []
    | content => (textOf (content.get? "content".toList)).getD []
  if text.isEmpty then none
  else some ⟨.user, .text text, none, row.seq, row.runId, none⟩

/-- One block of the content of an assistant. -/
def Restoring.candidate (s : Restoring) (runId : Option Text) (candidate : Json) : Restoring :=
  match sanitizeBlock lib (0, 0) candidate with
  | none => s
  | some (.toolResult _) => s
  | some (.text text) => s.push (.text (lib.sanitize text))
  | some (.toolUse id name input) => s.call runId id name input
  | some (.thinking thinking) => s.push (.thinking thinking)

/-- A text that is shown when there is one. -/
def Restoring.pushText (s : Restoring) (block : Text → ContentBlock) (text : Option Text) :
    Restoring :=
  match text with
  | some text => if text.isEmpty then s else s.push (block (lib.sanitize text))
  | none => s

/-- One text block is shown as a text. -/
def assistantMessage (row : PersistedSessionMessage) (blocks : List ContentBlock)
    (usage : Option Usage) (seq : Option ℤ) : Option Message :=
  match blocks with
  | [] => none
  | [.text text] => some ⟨.assistant, .text text, usage, seq, row.runId, none⟩
  | blocks => some ⟨.assistant, .blocks blocks, usage, seq, row.runId, none⟩

def restoreAssistantMessage (row : PersistedSessionMessage) (toolResults : ToolResults) :
    Option Message × ToolResults :=
  let start : Restoring := ⟨[], row.seq, toolResults⟩
  match row.content with
  | .string text =>
    let s := start.pushText lib .text (some text)
    (assistantMessage row s.blocks none s.seq, s.toolResults)
  | .array candidates =>
    let s := candidates.foldl (fun s candidate => s.candidate lib row.runId candidate) start
    (assistantMessage row s.blocks none s.seq, s.toolResults)
  | content =>
    let s := start.pushText lib .thinking (textOf (content.get? "reasoning_content".toList))
    let s := s.pushText lib .text (textOf (content.get? "content".toList))
    let calls := appendObjectToolCalls lib { s with seq := none }
      (content.get? "tool_calls".toList) row.runId
    (assistantMessage row calls.blocks (sanitizeUsage lib (content.get? "usage".toList))
      (laterSeq s.seq calls.seq), calls.toolResults)

/-- The loop over the rows. -/
def restoreRows (toolResults : ToolResults) : List PersistedSessionMessage → List Message
  | [] => []
  | row :: rest =>
    match visibleRole lib row with
    | some .user => (restoreUserMessage lib row).toList ++ restoreRows toolResults rest
    | some .assistant =>
      let restored := restoreAssistantMessage lib row toolResults
      restored.1.toList ++ restoreRows restored.2 rest
    | _ => restoreRows toolResults rest

def restoreVisibleMessages (rows : List PersistedSessionMessage) : List Message :=
  restoreRows lib (collectToolResults lib rows) rows

end

/-! The footers of runs. -/

/-- The message lies in the range of the run, and is not one of another run. -/
def footerFits (run : SessionRun) (endSeq : ℤ) (m : Message) : Bool :=
  match m.sourceSeq with
  | none => false
  | some seq =>
    decide (run.startSeq.getD 0 ≤ seq) && decide (seq ≤ endSeq) &&
      m.sourceRunId.all fun id => id.isEmpty || id == run.runId

/-- The last place that fits. -/
def lastFit (fits : Message → Bool) : ℕ → List Message → Option ℕ
  | _, [] => none
  | place, m :: rest => (lastFit fits (place + 1) rest).or (if fits m then some place else none)

def attachRun (restored : List Message) (run : SessionRun) : List Message :=
  match run.endSeq with
  | none => restored
  | some endSeq =>
    match lastFit (footerFits run endSeq) 0 restored with
    | some target => restored.modify target fun m => { m with run := some run }
    | none => restored

def attachSessionRuns (messages : List Message) (runs : List SessionRun) : List Message :=
  (runs.insertionSort fun a b => a.ordinal ≤ b.ordinal).foldl attachRun messages

end DeepseekScience.Frontend
