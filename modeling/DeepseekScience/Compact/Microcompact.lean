import DeepseekScience.Compact.Rolling
import DeepseekScience.Llm.Stream
import DeepseekScience.Json

/-! The free pass over the view: large tool results are truncated or, for results of remote agents,
projected, and the arguments of successful file mutations are replaced by notices. -/
namespace DeepseekScience.Compact

/-- `MICROCOMPACT_TOOLRESULT_THRESHOLD`. -/
def toolresultThreshold : ℕ := 8000

/-- `MICROCOMPACT_TOOLRESULT_KEEP`. -/
def toolresultKeep : ℕ := 4000

def a2aResultSchema : Text := "dss.a2a.tool-result.v1".toList
def a2aLlmViewSchema : Text := "dss.a2a.llm-view.v1".toList
def a2aMaxSemanticItems : ℕ := 128
def a2aMaxVisitedNodes : ℕ := 4096
def a2aMaxTraversalDepth : ℕ := 16
def a2aMaxTextChars : ℕ := 2400
def a2aMaxDataChars : ℕ := 1600

def truncatedText (value : Text) (maxChars : ℕ) : Text :=
  if value.length ≤ maxChars then value
  else value.take maxChars ++ "\n[projection truncated: ".toList ++ natText value.length ++
    " chars total]".toList

def jsonPointerEscape (value : Text) : Text :=
  (value.flatMap fun c => if c = '~' then ['~', '0'] else [c]).flatMap fun c =>
    if c = '/' then ['~', '1'] else [c]

/-- One item of the remote content. -/
structure SemanticItem where
  kind : Text
  path : Text
  value : Text
  responseSequences : List ℕ
  deriving DecidableEq

/-- What the traversal has collected, and the number of nodes that it has visited. -/
structure Collected where
  visitedNodes : ℕ := 0
  output : List SemanticItem := []
  deriving DecidableEq

/-- An item of a kind and value that is known only adds its response. -/
def pushA2aSemantic (kind path value : Text) (sequence : ℕ) (output : List SemanticItem) :
    List SemanticItem :=
  if output.any fun item => item.kind == kind && item.value == value then
    output.map fun item =>
      if item.kind = kind ∧ item.value = value ∧ sequence ∉ item.responseSequences then
        { item with responseSequences := item.responseSequences ++ [sequence] }
      else item
  else if a2aMaxSemanticItems ≤ output.length then output
  else output ++ [⟨kind, path, value, [sequence]⟩]

/-- The items that a member of an object gives by itself, when it is not traversed. -/
def memberSemantic (serde : SerdeJson) (normalized : Text) (child : Json) : Option (Text × Text) :=
  let asText (maxChars : ℕ) : Option (Text × Text) :=
    child.asStr.map fun text => (normalized, truncatedText text maxChars)
  if normalized ∈ ["text".toList, "url".toList, "uri".toList, "raw".toList, "bytes".toList] then
    asText a2aMaxTextChars
  else if normalized = "data".toList then
    some ("data".toList, truncatedText (serde.toText child) a2aMaxDataChars)
  else if normalized ∈ ["state".toList, "error".toList, "description".toList] then asText 600
  else none

/-- The traversal of a payload, with the number of levels that are still allowed. -/
def collectA2aSemanticValues (serde : SerdeJson) : ℕ → Json → Text → ℕ → Collected → Collected
  | 0, _, _, _, acc => acc
  | levels + 1, value, path, sequence, acc =>
    if a2aMaxVisitedNodes ≤ acc.visitedNodes ∨ a2aMaxSemanticItems ≤ acc.output.length then acc
    else
      let acc := { acc with visitedNodes := acc.visitedNodes + 1 }
      match value with
      | .object members =>
        members.foldl (fun acc (key, child) =>
          let childPath := path ++ '/' :: jsonPointerEscape key
          match memberSemantic serde (toAsciiLowercase key) child with
          | some (kind, value) =>
            { acc with output := pushA2aSemantic kind childPath value sequence acc.output }
          | none => collectA2aSemanticValues serde levels child childPath sequence acc) acc
      | .array values =>
        values.zipIdx.foldl (fun acc (child, position) =>
          collectA2aSemanticValues serde levels child (path ++ '/' :: natText position) sequence acc)
          acc
      | _ => acc

/-- Later responses are traversed first. -/
def collectFrames (serde : SerdeJson) (frames : List Json) : Collected :=
  frames.reverse.foldl (fun acc frame =>
    if a2aMaxSemanticItems ≤ acc.output.length ∨ a2aMaxVisitedNodes ≤ acc.visitedNodes then acc
    else
      match frame.get? "payload".toList with
      | some payload =>
        collectA2aSemanticValues serde (a2aMaxTraversalDepth + 1) payload []
          (((frame.get? "sequence".toList).bind Json.asU64).getD 0) acc
      | none => acc) {}

/-- A copied field: a missing one becomes null. -/
def copied (source : Json) (key : Text) : Json := (source.get? key).getD .null

def responseColumns : List Text :=
  ["sequence".toList, "operation".toList, "http_status".toList, "protocol_version".toList,
    "binding".toList, "wire_bytes".toList]

def responseRow (frame : Json) : Json := .array (responseColumns.map (copied frame))

def projectedCard (source : Json) : Json :=
  match source.get? "card".toList with
  | none | some .null => .null
  | some card =>
    .object (["card_url".toList, "fetched_at".toList, "refresh_kind".toList,
      "selected_interface".toList, "sha256".toList, "summary".toList].map fun key =>
        (key, copied card key))

def SemanticItem.toJson (item : SemanticItem) : Json :=
  .object [("kind".toList, .string item.kind), ("path".toList, .string item.path),
    ("response_sequences".toList, .array (item.responseSequences.map fun n => .number (natText n))),
    ("value".toList, .string item.value)]

def fullNote : Text :=
  "LLM-only compact view; the canonical session record retains the complete Agent Card and every accepted wire response.".toList

def omittedNote : Text :=
  "LLM-only compact view; canonical session data retains all responses. Some remote content was omitted from this bounded projection.".toList

/-- The projection of an envelope, with a note and the remote content that is left. -/
def projectedEnvelope (source : Json) (frames : List Json) (note : Text)
    (semantic : List SemanticItem) : Json :=
  .object [("agent".toList, copied source "agent".toList),
    ("card".toList, projectedCard source),
    ("projection_note".toList, .string note),
    ("registry".toList, copied source "registry".toList),
    ("remote_content".toList, .array (semantic.map SemanticItem.toJson)),
    ("request".toList, copied source "request".toList),
    ("response_columns".toList, .array (responseColumns.map Json.string)),
    ("responses".toList, .array (frames.map responseRow)),
    ("schema".toList, .string a2aLlmViewSchema),
    ("source_schema".toList, .string a2aResultSchema),
    ("terminal".toList, copied source "terminal".toList),
    ("warnings".toList, copied source "warnings".toList)]

def projectionTarget : ℕ := toolresultThreshold - 256

/-- Items are dropped from the end until the projection fits, or none is left; the number of items
bounds the rounds. -/
def fitProjection (render : Text → List SemanticItem → Text) :
    ℕ → Text → List SemanticItem → Text
  | 0, note, semantic => render note semantic
  | rounds + 1, note, semantic =>
    if (render note semantic).length ≤ projectionTarget then render note semantic
    else fitProjection render rounds omittedNote semantic.dropLast

/-- The envelope of a result of a remote agent, with its responses. -/
def a2aSource (serde : SerdeJson) (content : Text) : Option (Json × List Json) := do
  let source ← serde.fromStr content
  if (source.get? "schema".toList).bind Json.asStr ≠ some a2aResultSchema then none
  else
    let frames ← (source.get? "responses".toList).bind Json.asArray
    some (source, frames)

def compactA2aToolResult (serde : SerdeJson) (content : Text) : Option Text :=
  (a2aSource serde content).map fun (source, frames) =>
    let semantic := (collectFrames serde frames).output
    fitProjection (fun note items => serde.toText (projectedEnvelope source frames note items))
      semantic.length fullNote semantic

def truncationNotice (chars : ℕ) : Text :=
  "\n\n[microcompact: tool result truncated from ".toList ++ natText chars ++ " to ".toList ++
    natText toolresultKeep ++ " chars]".toList

def isFileMutation (name : Text) : Bool := name == "write_file".toList || name == "edit_file".toList

def omittedNotice (field name path : Text) (chars : ℕ) : Text :=
  "[microcompact: ".toList ++ field ++ " omitted after successful ".toList ++ name ++ "; ".toList ++
    natText chars ++ " chars; use read_file on ".toList ++ path ++ " for current content]".toList

/-- The fields that are replaced by a notice when they are long. -/
def mutationFields : List Text :=
  ["content".toList, "old_string".toList, "new_string".toList]

/-- The value of a member behind the pass: a long text of a mutation field becomes a notice. -/
def compactField (name path : Text) (member : Text × Json) : Text × Json :=
  match member.2 with
  | .string text =>
    if member.1 ∈ mutationFields ∧ toolresultKeep < text.length then
      (member.1, .string (omittedNotice member.1 name path text.length))
    else member
  | _ => member

/-- Whether the pass replaces a member. -/
def isCompacted (member : Text × Json) : Bool :=
  mutationFields.contains member.1 && member.2.asStr.any fun text => decide (toolresultKeep < text.length)

def mutationPath (members : List (Text × Json)) : Text :=
  ((members.lookup "path".toList).bind Json.asStr).getD "the written file".toList

/-- The arguments of a successful call behind the pass. -/
def rewriteCall (serde : SerdeJson) (call : ToolCall) : ToolCall :=
  if !isFileMutation call.function.name ∨ call.function.arguments.length ≤ toolresultThreshold then
    call
  else
    match serde.fromStr call.function.arguments with
    | some (.object members) =>
      if members.any isCompacted then
        { call with function := { call.function with
            arguments := serde.toText
              (.object (members.map (compactField call.function.name (mutationPath members)))) } }
      else call
    | _ => call

/-- A call with one of the successful ids loses its long arguments. -/
def compactCall (serde : SerdeJson) (successfulCalls : List Text) (call : ToolCall) : ToolCall :=
  if call.id ∈ successfulCalls then rewriteCall serde call else call

def compactSuccessfulFileMutations (serde : SerdeJson) (successfulCalls : List Text)
    (m : ChatMessage) : ChatMessage :=
  { m with toolCalls := m.toolCalls.map fun calls => calls.map (compactCall serde successfulCalls) }

def compactOne (serde : SerdeJson) (successfulCalls : List Text) (m : ChatMessage) : ChatMessage :=
  match m.role with
  | .assistant => compactSuccessfulFileMutations serde successfulCalls m
  | .tool =>
    match m.content with
    | none => m
    | some content =>
      if content.length ≤ toolresultThreshold then m
      else
        match compactA2aToolResult serde content with
        | some compacted => { m with content := some compacted }
        | none => { m with
            content := some (content.take toolresultKeep ++ truncationNotice content.length) }
  | _ => m

/-- The ids of the results that report no error. -/
def successfulCallIds (view : List ChatMessage) : List Text :=
  (view.filter fun m => m.role = .tool ∧ m.isError.getD false = false).filterMap
    ChatMessage.toolCallId

def microcompact (serde : SerdeJson) (view : List ChatMessage) : List ChatMessage :=
  view.map (compactOne serde (successfulCallIds view))

end DeepseekScience.Compact
