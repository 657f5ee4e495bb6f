import DeepseekScience.Json
import Mathlib.Data.Rat.Defs
import Mathlib.Tactic

/-! What a JSON schema accepts. Keywords that apply schemas to the value or to its parts are clauses
of one relation; the others are predicates on the value. -/
namespace DeepseekScience.Mcp

/-- What schemas leave to other standards: the numbers that literals spell, equality of JSON
values, regular expressions, formats, and all keywords that are not spelled out here. -/
structure Dialect where
  number : Text → ℚ
  equal : Json → Json → Prop
  occursIn : Text → Text → Prop
  format : Text → Json → Prop
  other : List (Text × Json) → Text → Json → Json → Prop

namespace Dialect
variable (D : Dialect)

/-- The types of schemas. -/
inductive HasType : Text → Json → Prop
  | null : HasType "null".toList .null
  | boolean (b : Bool) : HasType "boolean".toList (.bool b)
  | number (literal : Text) : HasType "number".toList (.number literal)
  | integer (literal : Text) (whole : (D.number literal).den = 1) :
      HasType "integer".toList (.number literal)
  | string (t : Text) : HasType "string".toList (.string t)
  | array (items : List Json) : HasType "array".toList (.array items)
  | object (members : List (Text × Json)) : HasType "object".toList (.object members)

/-- One type, or one of several. -/
def Typed (expected value : Json) : Prop :=
  match expected with
  | .string kind => D.HasType kind value
  | .array kinds => ∃ kind, Json.string kind ∈ kinds ∧ D.HasType kind value
  | _ => True

def OneOf (expected value : Json) : Prop :=
  match expected with
  | .array options => ∃ option ∈ options, D.equal option value
  | _ => True

/-- A bound on a number; other values pass. -/
def Bounded (within : ℚ → ℚ → Prop) (expected value : Json) : Prop :=
  match expected, value with
  | .number bound, .number literal => within (D.number bound) (D.number literal)
  | _, _ => True

/-- A bound on a size; values without that size pass. -/
def Sized (size : Json → Option ℕ) (within : ℕ → ℕ → Prop) (expected value : Json) : Prop :=
  match expected.asU64, size value with
  | some bound, some n => within bound n
  | _, _ => True

def textSize : Json → Option ℕ
  | .string t => some t.length
  | _ => none

def arraySize : Json → Option ℕ
  | .array items => some items.length
  | _ => none

def objectSize : Json → Option ℕ
  | .object members => some members.length
  | _ => none

def Matches (expected value : Json) : Prop :=
  match expected, value with
  | .string pattern, .string t => D.occursIn pattern t
  | _, _ => True

def Formatted (expected value : Json) : Prop :=
  match expected with
  | .string format => D.format format value
  | _ => True

def Unique (expected value : Json) : Prop :=
  match expected, value with
  | .bool true, .array items => items.Pairwise fun a b => ¬ D.equal a b
  | _, _ => True

/-- Every required name is a member. -/
def Requires (expected value : Json) : Prop :=
  match expected, value with
  | .array names, .object members =>
    ∀ name, Json.string name ∈ names → (members.lookup name).isSome = true
  | _, _ => True

/-- Annotations, and the keywords that apply schemas. -/
def Free (_ _ : Json) : Prop := True

/-- The keywords and what they ask of a value. -/
def assertions : List (Text × (Json → Json → Prop)) :=
  [("type".toList, D.Typed), ("title".toList, Free), ("description".toList, Free),
    ("default".toList, Free), ("examples".toList, Free), ("enum".toList, D.OneOf),
    ("const".toList, D.equal), ("properties".toList, Free), ("required".toList, Requires),
    ("additionalProperties".toList, Free), ("items".toList, Free),
    ("minimum".toList, D.Bounded fun bound n => bound ≤ n),
    ("maximum".toList, D.Bounded fun bound n => n ≤ bound),
    ("exclusiveMinimum".toList, D.Bounded fun bound n => bound < n),
    ("exclusiveMaximum".toList, D.Bounded fun bound n => n < bound),
    ("multipleOf".toList, D.Bounded fun factor n => ∃ k : ℤ, n = k * factor),
    ("minLength".toList, Sized textSize fun bound n => bound ≤ n),
    ("maxLength".toList, Sized textSize fun bound n => n ≤ bound),
    ("pattern".toList, D.Matches), ("format".toList, D.Formatted),
    ("minItems".toList, Sized arraySize fun bound n => bound ≤ n),
    ("maxItems".toList, Sized arraySize fun bound n => n ≤ bound),
    ("uniqueItems".toList, D.Unique),
    ("minProperties".toList, Sized objectSize fun bound n => bound ≤ n),
    ("maxProperties".toList, Sized objectSize fun bound n => n ≤ bound),
    ("anyOf".toList, Free)]

/-- What a keyword of a schema asks of a value. -/
def Asserts (schema : List (Text × Json)) (keyword : Text) (expected value : Json) : Prop :=
  match D.assertions.lookup keyword with
  | some assertion => assertion expected value
  | none => D.other schema keyword expected value

/-- The name is not among the properties of the schema, and none of its patterns matches. -/
def IsAdditional (schema : List (Text × Json)) (name : Text) : Prop :=
  (((schema.lookup "properties".toList).getD .null).get? name).isNone = true ∧
    ∀ patterns, schema.lookup "patternProperties".toList = some (.object patterns) →
      ∀ p ∈ patterns, ¬ D.occursIn p.1 name

end Dialect

/-- Schemas are objects or booleans. -/
def isSchema : Json → Bool
  | .object _ => true
  | .bool _ => true
  | _ => false

/-- How many of the first items have schemas of their own. -/
def tupleLength (schema : List (Text × Json)) : ℕ :=
  (((schema.lookup "prefixItems".toList).bind Json.asArray).getD []).length

mutual

/-- The schema accepts the value. -/
inductive Validates (D : Dialect) : Json → Json → Prop
  | always (value : Json) : Validates D (.bool true) value
  | object {schema : List (Text × Json)} {value : Json}
      (asserted : ∀ keyword expected, schema.lookup keyword = some expected →
        D.Asserts schema keyword expected value)
      (properties : ∀ properties name property part,
        schema.lookup "properties".toList = some (.object properties) →
        properties.lookup name = some property → value.get? name = some part →
        Validates D property part)
      (additional : ∀ rest name part,
        schema.lookup "additionalProperties".toList = some rest → isSchema rest = true →
        D.IsAdditional schema name → value.get? name = some part → Validates D rest part)
      (items : ∀ each parts part, schema.lookup "items".toList = some each →
        isSchema each = true → value = .array parts → part ∈ parts.drop (tupleLength schema) →
        Validates D each part)
      (anyOf : ∀ branches, schema.lookup "anyOf".toList = some (.array branches) →
        ValidatesAny D branches value) :
      Validates D (.object schema) value

/-- One of the schemas accepts the value. -/
inductive ValidatesAny (D : Dialect) : List Json → Json → Prop
  | first {branch : Json} {rest : List Json} {value : Json} (accepts : Validates D branch value) :
      ValidatesAny D (branch :: rest) value
  | later {branch : Json} {rest : List Json} {value : Json} (accepts : ValidatesAny D rest value) :
      ValidatesAny D (branch :: rest) value

end

theorem ValidatesAny.of_mem {D : Dialect} {branch value : Json} {branches : List Json}
    (hmem : branch ∈ branches) (h : Validates D branch value) : ValidatesAny D branches value := by
  induction branches with
  | nil => exact absurd hmem List.not_mem_nil
  | cons b rest ih =>
    rcases List.mem_cons.mp hmem with rfl | hmem
    · exact ValidatesAny.first h
    · exact ValidatesAny.later (ih hmem)

end DeepseekScience.Mcp
