import DeepseekScience.Json

/-! What the derived deserializers accept: one reader for each shape of a field. -/
namespace DeepseekScience.Decode

variable {α : Type}

def text : Json → Option Text := Json.asStr

def bool : Json → Option Bool
  | .bool value => some value
  | _ => none

/-- An unsigned integer with a largest value. -/
def unsigned (largest : ℕ) (value : Json) : Option ℕ := value.asU64.filter (· ≤ largest)

def u16 : Json → Option ℕ := unsigned (2 ^ 16 - 1)

def u32 : Json → Option ℕ := unsigned (2 ^ 32 - 1)

def u64 : Json → Option ℕ := unsigned (2 ^ 64 - 1)

/-- A float, kept as the literal that spells it. -/
def f64 : Json → Option Text
  | .number literal => some literal
  | _ => none

/-- `Option<T>`: an explicit null is an absent value. -/
def option (item : Json → Option α) : Json → Option (Option α)
  | .null => some none
  | value => (item value).map some

/-- `deserialize_present`: an explicit null is a value like any other. -/
def present (item : Json → Option α) (value : Json) : Option (Option α) := (item value).map some

def items (item : Json → Option α) : List Json → Option (List α)
  | [] => some []
  | value :: rest => (item value).bind fun a => (items item rest).map (a :: ·)

/-- `Vec<T>`. -/
def list (item : Json → Option α) : Json → Option (List α)
  | .array values => items item values
  | _ => none

def textMembers : List (Text × Json) → Option (List (Text × Text))
  | [] => some []
  | (key, value) :: rest =>
    (text value).bind fun t => (textMembers rest).map ((key, t) :: ·)

/-- `HashMap<String, String>`, with its entries in the order of the keys. -/
def textMap : Json → Option (List (Text × Text))
  | .object members => textMembers members
  | _ => none

/-- What a struct is read from: the members of an object, or an array by position. -/
def structMembers (names : List Text) : Json → Option (List (Text × Json))
  | .object members => some members
  | .array values => if values.length ≤ names.length then some (names.zip values) else none
  | _ => none

/-- `deny_unknown_fields`. -/
def knownMembers (names : List Text) (members : List (Text × Json)) : Option (List (Text × Json)) :=
  if members.all fun m => names.contains m.1 then some members else none

def required (key : Text) (item : Json → Option α) (members : List (Text × Json)) : Option α :=
  (members.lookup key).bind item

/-- `#[serde(default)]`. -/
def defaulted (key : Text) (default : α) (item : Json → Option α)
    (members : List (Text × Json)) : Option α :=
  match members.lookup key with
  | some value => item value
  | none => some default

end DeepseekScience.Decode
