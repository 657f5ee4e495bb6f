import DeepseekScience.Text

/-! Chat messages in the shape of the provider protocol, and the tool protocol that a
message history has to follow. -/
namespace DeepseekScience

/-- The roles that the sources name; any other text is kept as it is. -/
inductive Role where
  | system | user | assistant | tool
  | other (name : Text)
  deriving DecidableEq, Repr

def Role.toText : Role → Text
  | .system => "system".toList
  | .user => "user".toList
  | .assistant => "assistant".toList
  | .tool => "tool".toList
  | .other name => name

structure FunctionCall where
  name : Text
  arguments : Text
  deriving DecidableEq, Repr

structure ToolCall where
  id : Text
  kind : Text
  function : FunctionCall
  deriving DecidableEq, Repr

def ToolCall.ofFunction (id name arguments : Text) : ToolCall :=
  ⟨id, "function".toList, ⟨name, arguments⟩⟩

structure Usage where
  inputTokens : ℕ := 0
  outputTokens : ℕ := 0
  cacheHitTokens : ℕ := 0
  cacheMissTokens : ℕ := 0
  deriving DecidableEq, Repr

structure ChatMessage where
  role : Role
  content : Option Text := none
  toolCalls : Option (List ToolCall) := none
  toolCallId : Option Text := none
  name : Option Text := none
  reasoningContent : Option Text := none
  usage : Option Usage := none
  isError : Option Bool := none
  harnessNotice : Bool := false
  deriving DecidableEq, Repr

namespace ChatMessage

def ofSystem (content : Text) : ChatMessage := { role := .system, content := some content }

def ofUser (content : Text) : ChatMessage := { role := .user, content := some content }

def ofAssistant (content : Text) : ChatMessage := { role := .assistant, content := some content }

def ofAssistantToolCalls (toolCalls : List ToolCall) : ChatMessage :=
  { role := .assistant, toolCalls := some toolCalls }

def ofTool (toolCallId content : Text) (name : Option Text) : ChatMessage :=
  { role := .tool, content := some content, toolCallId := some toolCallId, name := name }

end ChatMessage

/-- The call ids that a message leaves open. -/
def openedCalls (m : ChatMessage) : List Text :=
  if m.role = .assistant then (m.toolCalls.getD []).map ToolCall.id else []

/-- One message of the tool protocol: with calls pending only the result of the first of them
may follow, and without a pending call no result may follow. -/
def protocolStep : List Text → ChatMessage → Option (List Text)
  | [], m => if m.role = .tool then none else some (openedCalls m)
  | id :: pending, m => if m.role = .tool ∧ m.toolCallId = some id then some pending else none

/-- Every assistant message with tool calls is followed by exactly one tool message for each
of its call ids, in order, and there are no other tool messages. -/
def ToolProtocolValid (messages : List ChatMessage) : Prop :=
  messages.foldlM protocolStep [] = some []

instance (messages : List ChatMessage) : Decidable (ToolProtocolValid messages) :=
  inferInstanceAs (Decidable (_ = _))

theorem ToolProtocolValid.append {xs ys : List ChatMessage} (hx : ToolProtocolValid xs)
    (hy : ToolProtocolValid ys) : ToolProtocolValid (xs ++ ys) := by
  rw [ToolProtocolValid, List.foldlM_append, hx]
  exact hy

/-- A user message is only accepted when no call is pending. -/
theorem pending_eq_nil_of_user {pending next : List Text} {m : ChatMessage} (hm : m.role = .user)
    (h : protocolStep pending m = some next) : pending = [] ∧ next = [] := by
  cases pending with
  | nil => simpa [protocolStep, hm, openedCalls, eq_comm] using h
  | cons id pending => simp [protocolStep, hm] at h

end DeepseekScience
