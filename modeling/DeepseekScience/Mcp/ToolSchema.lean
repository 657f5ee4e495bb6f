import DeepseekScience.Lib.Transaction
import DeepseekScience.Mcp.Response

/-! The definition of a tool that a server lists (dss-mcp, `client.rs`): unions of one value and
many are narrowed to the one value, and only then is the schema checked. -/
namespace DeepseekScience.Mcp

open Transactions

def maxStringBytes : ℕ := 16 * 1024

/-! Narrowing the unions. -/

/-- Every key is one of these. -/
def onlyKeys (keys : List Text) (members : List (Text × Json)) : Bool :=
  members.all fun m => keys.contains m.1

def scalarKinds : List Text :=
  ["string".toList, "number".toList, "integer".toList, "boolean".toList]

/-- The kind of a branch that names a scalar type and nothing else. -/
def scalarKind (branch : Json) : Option (Text × List (Text × Json)) :=
  match branch with
  | .object members =>
    ((members.lookup "type".toList).bind Json.asStr).bind fun kind =>
      if scalarKinds.contains kind && onlyKeys ["type".toList] members then some (kind, members)
      else none
  | _ => none

/-- The branch names arrays of a kind and nothing else. -/
def isArrayOf (kind : Text) (branch : Json) : Bool :=
  match branch with
  | .object members =>
    (members.lookup "type".toList).bind Json.asStr == some "array".toList &&
      onlyKeys ["type".toList, "items".toList] members &&
      (match members.lookup "items".toList with
        | some (.object items) =>
          (items.lookup "type".toList).bind Json.asStr == some kind &&
            onlyKeys ["type".toList] items
        | _ => false)
  | _ => false

def simpleScalarOrArrayScalarBranch (branches : List Json) : Option (List (Text × Json)) :=
  if branches.length ≠ 2 then none
  else
    (branches.findSome? scalarKind).bind fun scalar =>
      if branches.any (isArrayOf scalar.1) then some scalar.2 else none

def displayKeys : List Text :=
  ["title".toList, "description".toList, "default".toList, "examples".toList]

/-- The scalar branch of the union of an object. -/
def unionBranch (object : List (Text × Json)) : Option (List (Text × Json)) :=
  ((object.lookup "anyOf".toList).bind Json.asArray).bind simpleScalarOrArrayScalarBranch

/-- The branch with the annotations of the object around it. -/
def annotate (object replacement : List (Text × Json)) : List (Text × Json) :=
  displayKeys.foldl (fun replacement key =>
    match object.lookup key with
    | some value => insertEntry key value replacement
    | none => replacement) replacement

mutual

/-- A replacement has neither properties nor items, so that the walk goes on only where nothing is
replaced. -/
def normalizeScalarOrArrayUnions : Json → Json
  | .object members =>
    match unionBranch members with
    | some branch => .object (annotate members branch)
    | none => .object (normalizeMembers members)
  | schema => schema

def normalizeMembers : List (Text × Json) → List (Text × Json)
  | [] => []
  | (key, value) :: rest =>
    (key, if key = "properties".toList then normalizeProperties value
      else if key = "items".toList then normalizeScalarOrArrayUnions value
      else value) :: normalizeMembers rest

def normalizeProperties : Json → Json
  | .object properties => .object (normalizeEach properties)
  | value => value

def normalizeEach : List (Text × Json) → List (Text × Json)
  | [] => []
  | (name, property) :: rest =>
    (name, normalizeScalarOrArrayUnions property) :: normalizeEach rest

end

/-! Checking the schema. -/

def allowedKeywords : List Text :=
  ["type".toList, "title".toList, "description".toList, "default".toList, "examples".toList,
    "enum".toList, "const".toList, "properties".toList, "required".toList,
    "additionalProperties".toList, "items".toList, "minimum".toList, "maximum".toList,
    "exclusiveMinimum".toList, "exclusiveMaximum".toList, "multipleOf".toList, "minLength".toList,
    "maxLength".toList, "pattern".toList, "format".toList, "minItems".toList, "maxItems".toList,
    "uniqueItems".toList, "minProperties".toList, "maxProperties".toList]

def schemaTypes : List Text :=
  ["object".toList, "array".toList, "string".toList, "number".toList, "integer".toList,
    "boolean".toList, "null".toList]

def checkKeywords : List (Text × Json) → Except Text Unit
  | [] => .ok ()
  | (key, _) :: rest =>
    if allowedKeywords.contains key then checkKeywords rest
    else .error ("unsupported JSON Schema keyword ".toList ++ key)

def checkType (object : List (Text × Json)) (topLevel : Bool) : Except Text Unit :=
  match object.lookup "type".toList with
  | none => .ok ()
  | some (.string kind) =>
    if !schemaTypes.contains kind then .error ("unsupported JSON Schema type ".toList ++ kind)
    else if topLevel && kind != "object".toList then
      .error "top-level type must be object".toList
    else .ok ()
  | some _ => .error "type must be a string".toList

/-- The loop over the required names. -/
def checkRequiredNames (properties : List (Text × Json)) (seen : List Text) :
    List Json → Except Text Unit
  | [] => .ok ()
  | .string name :: rest =>
    if seen.contains name then
      .error ("required contains duplicate property ".toList ++ name)
    else if (properties.lookup name).isNone then
      .error ("required property ".toList ++ name ++ " is not in properties".toList)
    else checkRequiredNames properties (name :: seen) rest
  | _ :: _ => .error "required entries must be strings".toList

def checkRequired (object : List (Text × Json)) : Except Text Unit :=
  match object.lookup "required".toList with
  | none => .ok ()
  | some (.array names) =>
    match object.lookup "properties".toList with
    | some (.object properties) => checkRequiredNames properties [] names
    | _ => .error "required needs properties".toList
  | some _ => .error "required must be an array".toList

def isBool : Json → Bool
  | .bool _ => true
  | _ => false

def isString : Json → Bool
  | .string _ => true
  | _ => false

def isNumber : Json → Bool
  | .number _ => true
  | _ => false

def checkAdditional (object : List (Text × Json)) : Except Text Unit :=
  ensure (((object.lookup "additionalProperties".toList).all isBool) = true)
    "additionalProperties must be boolean".toList

/-- One kind of value for each of some keywords. -/
def checkKinds (object : List (Text × Json)) (kind : Json → Bool) (message : Text) :
    List Text → Except Text Unit
  | [] => .ok ()
  | key :: rest =>
    if (object.lookup key).all kind then checkKinds object kind message rest
    else .error (key ++ message)

def validateSchemaKeywordTypes (object : List (Text × Json)) : Except Text Unit := do
  checkKinds object isString " must be a string".toList
    ["title".toList, "description".toList, "pattern".toList, "format".toList]
  checkKinds object isNumber " must be a number".toList
    ["minimum".toList, "maximum".toList, "exclusiveMinimum".toList, "exclusiveMaximum".toList,
      "multipleOf".toList]
  checkKinds object (fun v => v.asU64.isSome) " must be an unsigned integer".toList
    ["minLength".toList, "maxLength".toList, "minItems".toList, "maxItems".toList,
      "minProperties".toList, "maxProperties".toList]
  checkKinds object isBool " must be boolean".toList ["uniqueItems".toList]
  checkKinds object (fun v => v.asArray.isSome) " must be an array".toList
    ["enum".toList, "examples".toList]

mutual

/-- The schemas of the properties are checked in the middle, those of the items near the end. -/
def validateSchemaObject (topLevel : Bool) : Json → Except Text Unit
  | .object object => do
    checkKeywords object
    checkType object topLevel
    validateProperties object
    checkRequired object
    checkAdditional object
    validateItems object
    validateSchemaKeywordTypes object
  | _ => .error "must be an object".toList

/-- What stands under `properties`. -/
def validateProperties : List (Text × Json) → Except Text Unit
  | [] => .ok ()
  | (key, value) :: rest =>
    if key = "properties".toList then validatePropertySchemas value else validateProperties rest

def validatePropertySchemas : Json → Except Text Unit
  | .object properties => validateEach properties
  | _ => .error "properties must be an object".toList

def validateEach : List (Text × Json) → Except Text Unit
  | [] => .ok ()
  | (name, property) :: rest => do
    if property.isObject then validateSchemaObject false property
    else .error ("property ".toList ++ name ++ " schema must be an object".toList)
    validateEach rest

/-- What stands under `items`. -/
def validateItems : List (Text × Json) → Except Text Unit
  | [] => .ok ()
  | (key, value) :: rest =>
    if key = "items".toList then
      if value.isObject then validateSchemaObject false value
      else .error "items must be a schema object".toList
    else validateItems rest

end

def validateToolInputSchema (schema : Json) : Except Text Unit :=
  match schema with
  | .object object =>
    match object.lookup "type".toList with
    | none => validateSchemaObject true schema
    | some (.string kind) =>
      if kind = "object".toList then validateSchemaObject true schema
      else .error "top-level type must be object".toList
    | some _ => .error "top-level type must be a string".toList
  | _ => .error "must be an object".toList

/-! Reading the definition. -/

def requiredString (value : Json) (key : Text) (max : ℕ) : Except McpError Text :=
  match (value.get? key).bind Json.asStr with
  | none => .error (.invalid (key ++ " must be a string".toList))
  | some text => ((validateIdentifier text key max).mapError .invalid).map fun _ => text

/-- The whitespace of Markdown may stand in a text that is shown. -/
def optionalDisplayString (value : Json) (key : Text) (max : ℕ) :
    Except McpError (Option Text) :=
  match value.get? key with
  | none => .ok none
  | some .null => .ok none
  | some (.string text) =>
    if byteLen text ≤ max ∧ (text.any fun c => isControl c && !"\n\r\t".toList.contains c) = false
    then .ok (some text)
    else .error (.invalid (key ++ " must be a bounded display string".toList))
  | some _ => .error (.invalid (key ++ " must be a bounded display string".toList))

def optionalAnnotationBool (object : List (Text × Json)) (key : Text) :
    Except McpError (Option Bool) :=
  match object.lookup key with
  | none => .ok none
  | some (.bool b) => .ok (some b)
  | some _ =>
    .error (.invalid ("tool annotation ".toList ++ key ++ " must be boolean".toList))

def parseToolAnnotations (value : Option Json) : Except McpError McpToolAnnotations :=
  match value with
  | none => .ok {}
  | some (.object object) => do
    let readOnlyHint ← optionalAnnotationBool object "readOnlyHint".toList
    let destructiveHint ← optionalAnnotationBool object "destructiveHint".toList
    let idempotentHint ← optionalAnnotationBool object "idempotentHint".toList
    return ⟨readOnlyHint, destructiveHint, idempotentHint⟩
  | some _ => .error (.invalid "tool annotations must be an object".toList)

/-- The schema as the server gives it. -/
def inputSchemaOf (value : Json) : Json := (value.get? "inputSchema".toList).getD (.object [])

def parseTool (value : Json) : Except McpError McpTool := do
  let name ← requiredString value "name".toList 256
  let description ← optionalDisplayString value "description".toList maxStringBytes
  let inputSchema := normalizeScalarOrArrayUnions (inputSchemaOf value)
  (validateToolInputSchema inputSchema).mapError fun message =>
    .invalid ("tool ".toList ++ name ++ " inputSchema: ".toList ++ message)
  let annotations ← parseToolAnnotations (value.get? "annotations".toList)
  return ⟨name, description.getD [], inputSchema, annotations⟩

end DeepseekScience.Mcp
