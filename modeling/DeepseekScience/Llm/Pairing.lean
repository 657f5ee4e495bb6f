import DeepseekScience.Llm.Message

/-! The pairing of tool results with tool calls: a tool message answers a call of the nearest
assistant message with tool calls in front of it. Ids are unique in one such message only. -/
namespace DeepseekScience

/-- The assistant message with tool calls that is nearest, by its index, with its calls. -/
structure Turn where
  index : ℕ := 0
  calls : List ToolCall := []
  deriving DecidableEq

/-- The nearest turn behind a message. -/
def Turn.next (turn : Turn) (index : ℕ) (m : ChatMessage) : Turn :=
  if m.toolCalls.getD [] = [] then turn else ⟨index, m.toolCalls.getD []⟩

/-- The call of the turn that a tool message answers. -/
def Turn.answered (turn : Turn) (m : ChatMessage) : Option ToolCall :=
  turn.calls.find? fun call => m.toolCallId == some call.id

/-- Only assistant messages have tool calls, with ids that differ, and every tool message answers
a call of the nearest of them. -/
def PairedFrom : ℕ → Turn → List ChatMessage → Prop
  | _, _, [] => True
  | index, turn, m :: rest =>
    (m.role = .tool → (turn.answered m).isSome = true) ∧
      (m.role ≠ .assistant → m.toolCalls.getD [] = []) ∧
      ((m.toolCalls.getD []).map ToolCall.id).Nodup ∧ PairedFrom (index + 1) (turn.next index m) rest

def Paired (messages : List ChatMessage) : Prop := PairedFrom 0 {} messages

instance decidablePairedFrom : (index : ℕ) → (turn : Turn) → (messages : List ChatMessage) →
    Decidable (PairedFrom index turn messages)
  | _, _, [] => inferInstanceAs (Decidable True)
  | index, turn, m :: rest =>
    have := decidablePairedFrom (index + 1) (turn.next index m) rest
    inferInstanceAs (Decidable (_ ∧ _ ∧ _ ∧ _))

instance (messages : List ChatMessage) : Decidable (Paired messages) :=
  decidablePairedFrom 0 {} messages

/-- A tool message with the call that it answers, and the index of the turn of that call. -/
structure PairedResult where
  message : ChatMessage
  call : ToolCall
  turn : ℕ
  deriving DecidableEq

def pairedResultsFrom : ℕ → Turn → List ChatMessage → List PairedResult
  | _, _, [] => []
  | index, turn, m :: rest =>
    (if m.role = .tool then
      ((turn.answered m).map fun call => (⟨m, call, turn.index⟩ : PairedResult)).toList
      else []) ++ pairedResultsFrom (index + 1) (turn.next index m) rest

def pairedResults (messages : List ChatMessage) : List PairedResult :=
  pairedResultsFrom 0 {} messages

end DeepseekScience
