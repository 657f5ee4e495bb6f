import DeepseekScience.Core.Encode

/-! The body of a request: what of the history the provider gets to read, and when it is asked to
think. A provider of the V4 family refuses a history whose tool calls come without their
reasoning, so such a history turns thinking off. -/
namespace DeepseekScience.Llm

open DeepseekScience.Core

/-- The fields of a request that its callers leave to the client or override. -/
structure RequestOptions where
  maxTokens : Option ℕ := none
  /-- The literal of the number. -/
  temperature : Option Text := none
  thinkingEnabled : Option Bool := none
  reasoningEffort : Option ThinkingEffort := none

structure OpenAICompatClient where
  baseUrl : Text
  thinking : ThinkingSettings := {}

def isDeepseekV4Model (model : Text) : Bool := "deepseek-v4-".toList.isPrefixOf model

def knownReasoningModels : List Text :=
  ["gpt-5.6".toList, "gpt-5.6-sol".toList, "gpt-5.6-terra".toList, "gpt-5.6-luna".toList]

/-- `urlHost` is the host of a URL that parses; the URL library is not part of the sources. -/
def isKnownOpenaiReasoningTarget (urlHost : Text → Option Text) (baseUrl model : Text) : Bool :=
  (urlHost baseUrl).any (fun host =>
    decide (toAsciiLowercase host = toAsciiLowercase "api.openai.com".toList)) &&
    decide (model ∈ knownReasoningModels)

def FunctionCall.toJson (f : FunctionCall) : Json :=
  .object [("arguments".toList, .string f.arguments), ("name".toList, .string f.name)]

def ToolCall.toJson (call : ToolCall) : Json :=
  .object [("function".toList, FunctionCall.toJson call.function), ("id".toList, .string call.id),
    ("type".toList, .string call.kind)]

/-- `!tool_calls.is_empty()` of an assistant message. -/
def isAssistantToolCall (m : ChatMessage) : Bool :=
  decide (m.role = .assistant) && m.toolCalls.any fun calls => !calls.isEmpty

/-- A tool call that is stored without its reasoning. -/
def lacksReasoning (m : ChatMessage) : Bool :=
  isAssistantToolCall m && m.reasoningContent.all List.isEmpty

def v4ThinkingEnabled (client : OpenAICompatClient) (req : ChatRequest) (options : RequestOptions) :
    Bool :=
  isDeepseekV4Model req.model &&
    options.thinkingEnabled.getD (client.thinking.enabled && !req.messages.any lacksReasoning)

/-- `value[key] = json!(..)`, for a field that may be absent. -/
def insertSome (key : Text) (value : Option Json) (members : List (Text × Json)) :
    List (Text × Json) :=
  value.elim members fun value => insertEntry key value members

def messageContent (v4 : Bool) (m : ChatMessage) : Option Json :=
  match m.content with
  | some content => some (.string content)
  | none =>
    if m.role = .assistant then some (if v4 && isAssistantToolCall m then .string [] else .null)
    else none

def wireMessage (v4 v4Thinking : Bool) (m : ChatMessage) : Json :=
  let members := [("role".toList, Json.string m.role.toText)]
  let members := insertSome "content".toList (messageContent v4 m) members
  let members := insertSome "tool_calls".toList
    (m.toolCalls.map fun calls => .array (calls.map ToolCall.toJson)) members
  let members := insertSome "reasoning_content".toList
    (if v4Thinking && decide (m.role = .assistant) then m.reasoningContent.map .string else none)
    members
  let members := insertSome "tool_call_id".toList (m.toolCallId.map .string) members
  .object (insertSome "name".toList (m.name.map .string) members)

def thinkingMode (enabled : Bool) : Json :=
  .object [("type".toList, .string (if enabled then "enabled".toList else "disabled".toList))]

def streamOptions : Json := .object [("include_usage".toList, .bool true)]

def buildBody (urlHost : Text → Option Text) (client : OpenAICompatClient) (req : ChatRequest)
    (options : RequestOptions) (stream : Bool) : Json :=
  let v4 := isDeepseekV4Model req.model
  let requestedThinking := options.thinkingEnabled.getD client.thinking.enabled
  let effort := (options.reasoningEffort.getD client.thinking.effort).asStr
  let v4Thinking := v4ThinkingEnabled client req options
  let known := !v4 && isKnownOpenaiReasoningTarget urlHost client.baseUrl req.model
  let members := [("messages".toList, Json.array (req.messages.map (wireMessage v4 v4Thinking))),
    ("model".toList, .string req.model)]
  let members := insertSome "thinking".toList (if v4 then some (thinkingMode v4Thinking) else none)
    members
  let members := insertSome "reasoning_effort".toList
    (if v4Thinking then some (.string effort)
      else if known then some (.string (if requestedThinking then effort else "none".toList))
      else none) members
  let members := insertSome "max_tokens".toList (options.maxTokens.map numberJson) members
  let members := insertSome "temperature".toList (options.temperature.map .number) members
  let members := insertSome "tools".toList
    (req.tools.map fun tools => .array (tools.map ToolDef.toJson)) members
  let members := insertSome "tool_choice".toList
    (if v4 then none else req.tools.map fun _ => .string (req.toolChoice.getD "auto".toList)) members
  let members := insertSome "stream".toList (if stream then some (.bool true) else none) members
  .object (insertSome "stream_options".toList (if stream then some streamOptions else none) members)

/-! What the provider reads. -/

structure WireMessage where
  role : Text
  content : Option Text
  toolCalls : Option (List ToolCall)
  toolCallId : Option Text
  name : Option Text
  reasoning : Option Text
  deriving DecidableEq

def readToolCall (v : Json) : Option ToolCall := do
  let id ← (v.get "id".toList).asStr
  let kind ← (v.get "type".toList).asStr
  let name ← ((v.get "function".toList).get "name".toList).asStr
  let arguments ← ((v.get "function".toList).get "arguments".toList).asStr
  return ⟨id, kind, ⟨name, arguments⟩⟩

def readToolCalls (v : Json) : Option (List ToolCall) := v.asArray.bind (List.mapM readToolCall)

def readMessage (v : Json) : Option WireMessage := do
  let role ← (v.get "role".toList).asStr
  return {
    role := role
    content := (v.get "content".toList).asStr
    toolCalls := readToolCalls (v.get "tool_calls".toList)
    toolCallId := (v.get "tool_call_id".toList).asStr
    name := (v.get "name".toList).asStr
    reasoning := (v.get "reasoning_content".toList).asStr }

/-- What a message of the history is for the provider. -/
def onWire (v4 v4Thinking : Bool) (m : ChatMessage) : WireMessage where
  role := m.role.toText
  content := m.content.or (if v4 && isAssistantToolCall m then some [] else none)
  toolCalls := m.toolCalls
  toolCallId := m.toolCallId
  name := m.name
  reasoning := if v4Thinking && decide (m.role = .assistant) then m.reasoningContent else none

/-- The fields of a message that are sent. -/
def wireFields : List Text :=
  ["role".toList, "content".toList, "tool_calls".toList, "reasoning_content".toList,
    "tool_call_id".toList, "name".toList]

theorem lookup_insertSome (key : Text) (value : Option Json) (members : List (Text × Json))
    (k : Text) : (insertSome key value members).lookup k =
      if k = key then value.or (members.lookup k) else members.lookup k := by
  cases value with
  | none => simp [insertSome]
  | some value => simp [insertSome]

theorem lookup_single (key : Text) (value : Json) (k : Text) :
    [(key, value)].lookup k = if k = key then some value else none := by
  by_cases h : k = key
  · simp [h]
  · simp [List.lookup_cons, beq_eq_false_iff_ne.mpr h, h]

theorem wireMessage_get? (v4 v4Thinking : Bool) (m : ChatMessage) (k : Text) :
    (wireMessage v4 v4Thinking m).get? k =
      if k = "name".toList then m.name.map .string
      else if k = "tool_call_id".toList then m.toolCallId.map .string
      else if k = "reasoning_content".toList then
        if v4Thinking && decide (m.role = .assistant) then m.reasoningContent.map .string else none
      else if k = "tool_calls".toList then
        m.toolCalls.map fun calls => .array (calls.map ToolCall.toJson)
      else if k = "content".toList then messageContent v4 m
      else if k = "role".toList then some (.string m.role.toText)
      else none := by
  simp only [wireMessage, Json.get?, lookup_insertSome, lookup_single]
  split_ifs <;> simp_all

theorem get_eq (v : Json) (key : Text) : v.get key = (v.get? key).getD .null := by
  cases v <;> rfl

/-- Nothing but the fields of the protocol is sent: no usage, no error marks, no notices. -/
theorem wireMessage_fields (v4 v4Thinking : Bool) (m : ChatMessage) {k : Text}
    (hk : (wireMessage v4 v4Thinking m).get? k ≠ none) : k ∈ wireFields := by
  rw [wireMessage_get?] at hk
  unfold wireFields
  split_ifs at hk <;> simp_all

theorem asStr_string (t : Text) : (Json.string t).asStr = some t := rfl

theorem asStr_map (t : Option Text) : ((t.map Json.string).getD .null).asStr = t := by
  cases t <;> rfl

theorem readToolCall_toJson (call : ToolCall) : readToolCall (ToolCall.toJson call) = some call := by
  simp [readToolCall, ToolCall.toJson, FunctionCall.toJson, Json.get, Json.asStr, List.lookup_cons]

theorem readToolCalls_map (calls : Option (List ToolCall)) :
    readToolCalls ((calls.map fun calls => Json.array (calls.map ToolCall.toJson)).getD .null) =
      calls := by
  cases calls with
  | none => rfl
  | some calls =>
    show (calls.map ToolCall.toJson).mapM readToolCall = some calls
    induction calls with
    | nil => rfl
    | cons call calls ih => simp [readToolCall_toJson, ih]

theorem messageContent_asStr (v4 : Bool) (m : ChatMessage) :
    ((messageContent v4 m).getD .null).asStr =
      m.content.or (if v4 && isAssistantToolCall m then some [] else none) := by
  unfold messageContent
  cases m.content with
  | some content => rfl
  | none =>
    by_cases hrole : m.role = .assistant
    · cases v4 && isAssistantToolCall m <;> simp [hrole, Json.asStr]
    · simp [hrole, isAssistantToolCall, Json.asStr]

/-- The provider reads every message of the history as it is, up to what is not sent at all. -/
theorem readMessage_wireMessage (v4 v4Thinking : Bool) (m : ChatMessage) :
    readMessage (wireMessage v4 v4Thinking m) = some (onWire v4 v4Thinking m) := by
  have hreasoning : (((if v4Thinking && decide (m.role = .assistant) then
      m.reasoningContent.map Json.string else none).getD .null).asStr) =
        if v4Thinking && decide (m.role = .assistant) then m.reasoningContent else none := by
    split
    · exact asStr_map _
    · rfl
  simp only [readMessage, get_eq, wireMessage_get?]
  simp [onWire, asStr_map, asStr_string, readToolCalls_map, messageContent_asStr]
  simpa using hreasoning

section
/-! The body as a whole. -/

variable {urlHost : Text → Option Text} {client : OpenAICompatClient} {req : ChatRequest}
  {options : RequestOptions} {stream : Bool}

/-- The history that the provider reads. -/
def readHistory (body : Json) : Option (List WireMessage) :=
  (body.get "messages".toList).asArray.bind (List.mapM readMessage)

/-- The provider is asked to think. -/
def thinks (body : Json) : Bool :=
  decide (((body.get "thinking".toList).get "type".toList).asStr = some "enabled".toList)

theorem buildBody_messages : (buildBody urlHost client req options stream).get "messages".toList =
    .array (req.messages.map (wireMessage (isDeepseekV4Model req.model)
      (v4ThinkingEnabled client req options))) := by
  simp [buildBody, Json.get, lookup_insertSome]

theorem buildBody_thinking : (buildBody urlHost client req options stream).get "thinking".toList =
    if isDeepseekV4Model req.model then thinkingMode (v4ThinkingEnabled client req options)
    else .null := by
  simp only [buildBody, Json.get, lookup_insertSome]
  cases isDeepseekV4Model req.model <;> simp [List.lookup_cons]

theorem thinks_buildBody : thinks (buildBody urlHost client req options stream) =
    v4ThinkingEnabled client req options := by
  rw [thinks, buildBody_thinking]
  cases hv4 : isDeepseekV4Model req.model with
  | false => simp [v4ThinkingEnabled, hv4, Json.get, Json.asStr]
  | true => cases v4ThinkingEnabled client req options <;> decide

theorem buildBody_toolChoice (hv4 : isDeepseekV4Model req.model = true) :
    (buildBody urlHost client req options stream).get? "tool_choice".toList = none := by
  simp [buildBody, Json.get?, lookup_insertSome, List.lookup_cons, hv4]

theorem readHistory_buildBody : readHistory (buildBody urlHost client req options stream) =
    some (req.messages.map (onWire (isDeepseekV4Model req.model)
      (v4ThinkingEnabled client req options))) := by
  rw [readHistory, buildBody_messages]
  simp only [Json.asArray, Option.bind_some]
  induction req.messages with
  | nil => rfl
  | cons m messages ih => simp [readMessage_wireMessage, ih]

theorem reasoning_of_not_lacks {m : ChatMessage} (hcall : isAssistantToolCall m = true)
    (hlacks : lacksReasoning m = false) : ∃ r, m.reasoningContent = some r ∧ r ≠ [] := by
  cases hreasoning : m.reasoningContent with
  | none => simp [lacksReasoning, hcall, hreasoning] at hlacks
  | some r =>
    refine ⟨r, rfl, ?_⟩
    simpa [lacksReasoning, hcall, hreasoning] using hlacks

theorem replay_of_default {m : ChatMessage} (hm : m ∈ req.messages)
    (hcall : isAssistantToolCall m = true) (hdefault : options.thinkingEnabled = none)
    (hthinks : v4ThinkingEnabled client req options = true) :
    (∃ r, (onWire (isDeepseekV4Model req.model) true m).reasoning = some r ∧ r ≠ []) ∧
      (onWire (isDeepseekV4Model req.model) true m).content ≠ none := by
  simp only [v4ThinkingEnabled, hdefault, Option.getD_none, Bool.and_eq_true, Bool.not_eq_true',
    List.any_eq_false] at hthinks
  obtain ⟨hv4, -, hall⟩ := hthinks
  obtain ⟨r, hr, hne⟩ := reasoning_of_not_lacks hcall (by simpa using hall m hm)
  have hrole : m.role = .assistant := by
    simp only [isAssistantToolCall, Bool.and_eq_true, decide_eq_true_eq] at hcall
    exact hcall.1
  constructor
  · exact ⟨r, by simp [onWire, hrole, hr], hne⟩
  · simp only [onWire, hv4, hcall]
    cases m.content <;> simp

/-- The provider reads the whole history, message by message, and none of the fields that are for
the user interface. It is asked to think only as a V4 model, then gets no choice of tools, and,
unless thinking was demanded, every tool call of the history comes with its reasoning. Reasoning is
sent to nobody else. -/
theorem buildBody_replays (urlHost : Text → Option Text) (client : OpenAICompatClient)
    (req : ChatRequest) (options : RequestOptions) (stream : Bool) :
    (∃ thinking, thinks (buildBody urlHost client req options stream) = thinking ∧
      readHistory (buildBody urlHost client req options stream) =
        some (req.messages.map (onWire (isDeepseekV4Model req.model) thinking))) ∧
    (∀ v ∈ ((buildBody urlHost client req options stream).get "messages".toList).asArray.getD [],
      ∀ k, v.get? k ≠ none → k ∈ wireFields) ∧
    (thinks (buildBody urlHost client req options stream) = true →
      isDeepseekV4Model req.model = true ∧
      (buildBody urlHost client req options stream).get? "tool_choice".toList = none ∧
      (options.thinkingEnabled = none → ∀ m ∈ req.messages, isAssistantToolCall m = true →
        (∃ r, (onWire (isDeepseekV4Model req.model) true m).reasoning = some r ∧ r ≠ []) ∧
          (onWire (isDeepseekV4Model req.model) true m).content ≠ none)) ∧
    (thinks (buildBody urlHost client req options stream) = false →
      ∀ m ∈ req.messages, (onWire (isDeepseekV4Model req.model) false m).reasoning = none) := by
  refine ⟨⟨_, thinks_buildBody, readHistory_buildBody⟩, ?_, ?_, ?_⟩
  · intro v hv k hk
    rw [buildBody_messages] at hv
    obtain ⟨m, -, rfl⟩ := List.mem_map.mp hv
    exact wireMessage_fields _ _ _ hk
  · intro hthinks
    rw [thinks_buildBody] at hthinks
    have hv4 : isDeepseekV4Model req.model = true := by
      simp only [v4ThinkingEnabled, Bool.and_eq_true] at hthinks
      exact hthinks.1
    exact ⟨hv4, buildBody_toolChoice hv4,
      fun hdefault m hm hcall => replay_of_default hm hcall hdefault hthinks⟩
  · intro _ m _
    simp [onWire]

end

end DeepseekScience.Llm
