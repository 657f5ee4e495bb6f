import DeepseekScience.Json
import DeepseekScience.Llm.Message

/-! Requests to the provider, and the events of its answer stream. -/
namespace DeepseekScience

/-- The decimal form that `format!` gives an unsigned integer. -/
def natText (n : ℕ) : Text := Nat.toDigits 10 n

/-- `[T]::join` of texts. -/
def joinText (separator : Text) (parts : List Text) : Text := separator.intercalate parts

structure ToolDef where
  name : Text
  description : Text
  parameters : Json

/-- The serialized form, with the fixed type `function`. -/
def ToolDef.toJson (d : ToolDef) : Json :=
  .object [("type".toList, .string "function".toList),
    ("function".toList, .object [("name".toList, .string d.name),
      ("description".toList, .string d.description), ("parameters".toList, d.parameters)])]

/-- The fields of a request that the Runner sets. -/
structure ChatRequest where
  model : Text
  messages : List ChatMessage
  tools : Option (List ToolDef) := none
  toolChoice : Option Text := none

structure ToolCallDelta where
  index : ℕ
  id : Option Text := none
  name : Option Text := none
  arguments : Option Text := none
  deriving DecidableEq

inductive StreamEvent where
  | thinking (text : Text)
  | text (text : Text)
  /-- Reasoning and answer of one provider delta. -/
  | assistantDelta (thinking text : Text)
  | toolCallDelta (delta : ToolCallDelta)
  | usage (usage : Usage)
  | finish (reason : Option Text)
  deriving DecidableEq

end DeepseekScience
