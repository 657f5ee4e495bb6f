import DeepseekScience.A2a.Rest

/-! Agent cards (dss-a2a, `card.rs`): what the client reads of a card, in the current and in the
older shape. -/
namespace DeepseekScience.A2a

open DeepseekScience.Core Net

def maxSummarySkills : ℕ := 32
def maxCardListItems : ℕ := 256
def maxModeBytes : ℕ := 128

def clientAcceptedOutputModes : List Text :=
  ["text/plain".toList, "text/markdown".toList, "application/json".toList]

structure ParsedAgentCard where
  summary : CardSummary
  selectedInterface : SelectedInterface
  raw : Json

/-! Members of a card. -/

def truncate (value : Text) (maxChars : ℕ) : Text :=
  if value.length ≤ maxChars then value else value.take (maxChars - 1) ++ ['…']

def sanitizeUntrusted (value : Text) (maxChars : ℕ) : Text :=
  truncate (trim (value.map fun c => if isControl c then ' ' else c)) maxChars

/-- A member that is a text with something in it. -/
def nonEmptyString (key : Text) (raw : Json) : Option Text :=
  ((raw.get? key).bind Json.asStr).filter fun value => !(trim value).isEmpty

def requiredString (raw : Json) (key : Text) (maxChars : ℕ) : Except A2aError Text :=
  match nonEmptyString key raw with
  | some value => .ok (sanitizeUntrusted value maxChars)
  | none => .error (.invalidCard (key ++ " must be a non-empty string".toList))

def optionalString (raw : Json) (key : Text) (maxChars : ℕ) : Text :=
  (((raw.get? key).bind Json.asStr).map fun value => sanitizeUntrusted value maxChars).getD []

/-- The entries of a list of texts, behind those that are parsed already. -/
def requiredEntries (key : Text) (maxBytes : ℕ) : List Text → List Json → Except A2aError (List Text)
  | parsed, [] => .ok parsed
  | parsed, value :: rest =>
    match (value.asStr.map trim).filter fun value =>
      !value.isEmpty && decide (byteLen value ≤ maxBytes) && !value.any isControl with
    | none => .error (.invalidCard (key ++ " entries must be non-empty strings of at most ".toList ++
        natText maxBytes ++ " bytes without control characters".toList))
    | some value =>
      requiredEntries key maxBytes
        (if parsed.any fun existing => eqIgnoreAsciiCase existing value then parsed
          else parsed ++ [value]) rest

def requiredStringArray (raw : Json) (key : Text) (maxItems maxBytes : ℕ) :
    Except A2aError (List Text) :=
  match (raw.get? key).bind Json.asArray with
  | none => .error (.invalidCard (key ++ " must be an array".toList))
  | some values =>
    if values.isEmpty then .error (.invalidCard (key ++ " must not be empty".toList))
    else if maxItems < values.length then
      .error (.invalidCard (key ++ " exceeds ".toList ++ natText maxItems ++ " entries".toList))
    else requiredEntries key maxBytes [] values

/-- The modes of the client that the card has too, in the order of the client. -/
def negotiateOutputModes (raw : Json) : Except A2aError (List Text) := do
  let remote ← requiredStringArray raw "defaultOutputModes".toList maxCardListItems maxModeBytes
  let negotiated := clientAcceptedOutputModes.filter fun mode =>
    remote.any fun remote => eqIgnoreAsciiCase remote mode
  if negotiated.isEmpty then
    .error (.unsupportedCard "defaultOutputModes has no mode supported by this client".toList)
  else .ok negotiated

def isBoolean : Json → Bool
  | .bool _ => true
  | _ => false

def asObject : Json → Option (List (Text × Json))
  | .object members => some members
  | _ => none

/-! The capabilities and the skills of a card. -/

def capabilityFlags : List Text :=
  ["streaming".toList, "pushNotifications".toList, "extendedAgentCard".toList]

def validateFlags (capabilities : Json) : List Text → Except A2aError Unit
  | [] => .ok ()
  | key :: rest =>
    if (capabilities.get? key).any fun value => !isBoolean value then
      .error (.invalidCard ("v1 capabilities.".toList ++ key ++ " must be a boolean".toList))
    else validateFlags capabilities rest

def extensionLabel (index : ℕ) : Text :=
  "v1 capabilities.extensions[".toList ++ natText index ++ "]".toList

/-- The extensions that have to be supported, in front of those of the rest. -/
def requiredExtensions : ℕ → List Json → Except A2aError (List Text)
  | _, [] => .ok []
  | index, extension :: rest => do
    if (asObject extension).isNone then
      .error (.invalidCard (extensionLabel index ++ " must be an object".toList))
    else
      match nonEmptyString "uri".toList extension with
      | none =>
        .error (.invalidCard (extensionLabel index ++ ".uri must be a non-empty string".toList))
      | some uri =>
        match extension.get? "required".toList with
        | none =>
          if (extension.get? "params".toList).any fun value => !value.isObject then
            .error (.invalidCard (extensionLabel index ++ ".params must be an object".toList))
          else requiredExtensions (index + 1) rest
        | some (.bool required) =>
          if (extension.get? "params".toList).any fun value => !value.isObject then
            .error (.invalidCard (extensionLabel index ++ ".params must be an object".toList))
          else do
            let others ← requiredExtensions (index + 1) rest
            return if required then sanitizeUntrusted uri 256 :: others else others
        | some _ =>
          .error (.invalidCard (extensionLabel index ++ ".required must be a boolean".toList))

def validateV1Capabilities (raw : Json) : Except A2aError Unit :=
  match (raw.get? "capabilities".toList).filter Json.isObject with
  | none => .error (.invalidCard "v1 capabilities must be an object".toList)
  | some capabilities => do
    validateFlags capabilities capabilityFlags
    match capabilities.get? "extensions".toList with
    | none => .ok ()
    | some (.array extensions) =>
      if maxCardListItems < extensions.length then
        .error (.invalidCard ("v1 capabilities.extensions exceeds ".toList ++
          natText maxCardListItems ++ " entries".toList))
      else do
        let required ← requiredExtensions 0 extensions
        if required.isEmpty then .ok ()
        else
          .error (.unsupportedCard ("required protocol extensions are not supported: ".toList ++
            joinText ", ".toList required))
    | some _ => .error (.invalidCard "v1 capabilities.extensions must be an array".toList)

def skillLabel (index : ℕ) : Text := "v1 skills[".toList ++ natText index ++ "]".toList

/-- The texts of a skill, with their bounds. -/
def skillStrings : List (Text × ℕ) :=
  [("id".toList, 128), ("name".toList, 256), ("description".toList, 2048)]

def validateSkillStrings (index : ℕ) (skill : Json) : List (Text × ℕ) → Except A2aError Unit
  | [] => .ok ()
  | (key, maxChars) :: rest =>
    match requiredString skill key maxChars with
    | .ok _ => validateSkillStrings index skill rest
    | .error _ =>
      .error (.invalidCard (skillLabel index ++ '.' :: key ++ " must be a non-empty string".toList))

/-- A list of a skill, whose errors name the skill. -/
def validateSkillList (index : ℕ) (skill : Json) (key : Text) (maxBytes : ℕ) :
    Except A2aError Unit :=
  match requiredStringArray skill key maxCardListItems maxBytes with
  | .ok _ => .ok ()
  | .error error =>
    .error (.invalidCard (skillLabel index ++ '.' :: key ++ ": ".toList ++ error.text))

def validateSkill (index : ℕ) (skill : Json) : Except A2aError Unit :=
  if !skill.isObject then
    .error (.invalidCard (skillLabel index ++ " must be an object".toList))
  else do
    validateSkillStrings index skill skillStrings
    validateSkillList index skill "tags".toList 128
    if (skill.get? "inputModes".toList).isSome then
      validateSkillList index skill "inputModes".toList maxModeBytes
    if (skill.get? "outputModes".toList).isSome then
      validateSkillList index skill "outputModes".toList maxModeBytes

def validateSkills : ℕ → List Json → Except A2aError Unit
  | _, [] => .ok ()
  | index, skill :: rest => do
    validateSkill index skill
    validateSkills (index + 1) rest

def validateV1Skills (raw : Json) : Except A2aError Unit :=
  match (raw.get? "skills".toList).bind Json.asArray with
  | none => .error (.invalidCard "v1 skills must be an array".toList)
  | some skills =>
    if skills.isEmpty then .error (.invalidCard "v1 skills must not be empty".toList)
    else if maxCardListItems < skills.length then
      .error (.invalidCard ("v1 skills exceeds ".toList ++ natText maxCardListItems ++
        " entries".toList))
    else validateSkills 0 skills

def stringArray (value : Option Json) (maxItems maxChars : ℕ) : List Text :=
  let texts := (((value.bind Json.asArray).getD []).filterMap Json.asStr).map fun value =>
    sanitizeUntrusted value maxChars
  texts.eraseDups.take maxItems

def parseSkill (value : Json) : Option CardSkillSummary := do
  let id ← (value.get? "id".toList).bind Json.asStr
  let name ← (value.get? "name".toList).bind Json.asStr
  return {
    id := sanitizeUntrusted id 128
    name := sanitizeUntrusted name 256
    description := optionalString value "description".toList 512
    tags := stringArray (value.get? "tags".toList) 16 64
    inputModes := stringArray (value.get? "inputModes".toList) 16 128
    outputModes := stringArray (value.get? "outputModes".toList) 16 128 }

def parseSkills (raw : Json) : List CardSkillSummary :=
  ((((raw.get? "skills".toList).bind Json.asArray).getD []).take maxSummarySkills).filterMap
    parseSkill

def streams (raw : Json) : Bool :=
  match (raw.get? "capabilities".toList).bind (Json.get? "streaming".toList) with
  | some (.bool streaming) => streaming
  | _ => false

/-! What a card asks of its callers. -/

def requirementIsEmpty (value : Json) : Bool :=
  (asObject value).any fun members => members.isEmpty ||
    (((members.lookup "schemes".toList).bind asObject).any List.isEmpty)

/-- The schemes that a requirement names. -/
def requirementNames (value : Json) : Option (List Text) :=
  (asObject value).map fun members =>
    (((members.lookup "schemes".toList).bind asObject).getD members).map Prod.fst

def isBearerScheme (value : Json) : Bool :=
  let isBearer := fun scheme => eqIgnoreAsciiCase scheme "bearer".toList
  (((value.get? "scheme".toList).bind Json.asStr).any isBearer) ||
    ((((value.get? "httpAuthSecurityScheme".toList).bind (Json.get? "scheme".toList)).bind
      Json.asStr).any isBearer)

def validateSecurity (raw : Json) (requirementsKey : Text) (bearerConfigured : Bool) :
    Except A2aError Unit :=
  match raw.get? requirementsKey with
  | none => .ok ()
  | some (.array requirements) =>
    if requirements.isEmpty || requirements.any requirementIsEmpty then .ok ()
    else if !bearerConfigured then
      .error (.unsupportedCard
        "Agent requires authentication but no Bearer token is configured".toList)
    else
      let schemes := (raw.get? "securitySchemes".toList).filter Json.isObject
      if requirements.any fun requirement => (requirementNames requirement).any fun names =>
          !names.isEmpty && names.all fun name =>
            ((schemes.bind (Json.get? name)).any isBearerScheme) then
        .ok ()
      else
        .error (.unsupportedCard
          "Agent authentication requirements are not satisfiable with Bearer auth".toList)
  | some _ => .error (.invalidCard (requirementsKey ++ " must be an array".toList))

/-! The interfaces of a card. -/

def sameOrigin (left right : Url) : Bool :=
  left.scheme == right.scheme &&
    left.host.map toAsciiLowercase == right.host.map toAsciiLowercase &&
    left.portOrKnownDefault == right.portOrKnownDefault

/-- `protocolVersion` and `protocolBinding` of an interface, where the client supports both. -/
def supportedBinding (interface : Json) : Option ProtocolBinding :=
  if (interface.get? "protocolVersion".toList).bind Json.asStr ≠ some "1.0".toList then none
  else
    match (interface.get? "protocolBinding".toList).bind Json.asStr with
    | some binding =>
      if binding = "JSONRPC".toList then some .jsonRpc
      else if binding = "HTTP+JSON".toList then some .httpJson
      else none
    | none => none

def interfaceLabel (index : ℕ) : Text :=
  "v1 supportedInterfaces[".toList ++ natText index ++ "]".toList

def interfaceStrings : List Text :=
  ["url".toList, "protocolBinding".toList, "protocolVersion".toList]

def validateInterfaceStrings (index : ℕ) (value : Json) : List Text → Except A2aError Unit
  | [] => .ok ()
  | key :: rest =>
    if (nonEmptyString key value).isNone then
      .error (.invalidCard (interfaceLabel index ++ '.' :: key ++
        " must be a non-empty string".toList))
    else validateInterfaceStrings index value rest

def validateV1InterfaceFields (value : Json) (index : ℕ) : Except A2aError Unit :=
  if !value.isObject then
    .error (.invalidCard (interfaceLabel index ++ " must be an object".toList))
  else do
    validateInterfaceStrings index value interfaceStrings
    match value.get? "tenant".toList with
    | none | some .null => .ok ()
    | some (.string tenant) =>
      if byteLen tenant ≤ maxTenantBytes ∧ tenant.any isControl = false then .ok ()
      else
        .error (.invalidCard (interfaceLabel index ++ ".tenant exceeds ".toList ++
          natText maxTenantBytes ++ " bytes or contains control characters".toList))
    | some _ =>
      .error (.invalidCard (interfaceLabel index ++ ".tenant must be a string".toList))

def validateInterfaces : ℕ → List Json → Except A2aError Unit
  | _, [] => .ok ()
  | index, interface :: rest => do
    validateV1InterfaceFields interface index
    validateInterfaces (index + 1) rest

/-- The first interface that a reader takes, unless it fails on one in front of it. -/
def firstInterface {α : Type} (read : Json → Except A2aError (Option α)) :
    List Json → Except A2aError (Option α)
  | [] => .ok none
  | interface :: rest =>
    match read interface with
    | .ok none => firstInterface read rest
    | result => result

def noSupportedInterface : A2aError :=
  .unsupportedCard "expected JSONRPC or HTTP+JSON with protocolVersion 1.0".toList

section
variable (lib : A2aLib) (serialize : Url → Text)

def parseCardInterfaceUrl (cardUrl : Url) (value : Option Json) : Except A2aError Url :=
  match value.bind Json.asStr with
  | none => .error (.invalidCard "interface URL must be a string".toList)
  | some raw => do
    let url ← validateEndpoint lib raw
    if sameOrigin cardUrl url then .ok url else .error .crossOrigin

def parseV1Interface (cardUrl : Url) (value : Json) :
    Except A2aError (Option SelectedInterface) :=
  match asObject value with
  | none => .error (.invalidCard "v1 supportedInterfaces entries must be objects".toList)
  | some members =>
    match supportedBinding value with
    | none => .ok none
    | some binding => do
      let url ← parseCardInterfaceUrl lib cardUrl (value.get? "url".toList)
      let tenant ← parseInterfaceTenant members
      return some ⟨serialize url, binding, .v1, tenant⟩

/-- The members of a v1 card that are read before its security and its interfaces. -/
def parseV1Head (raw : Json) : Except A2aError (Text × Text × Text) := do
  let name ← requiredString raw "name".toList 256
  let description ← requiredString raw "description".toList 2048
  let agentVersion ← requiredString raw "version".toList 128
  validateV1Capabilities raw
  let _ ← requiredStringArray raw "defaultInputModes".toList maxCardListItems maxModeBytes
  let _ ← negotiateOutputModes raw
  validateV1Skills raw
  return (name, description, agentVersion)

/-- The interfaces of a v1 card, with their fields checked. -/
def parseV1Interfaces (raw : Json) : Except A2aError (List Json) :=
  match (raw.get? "supportedInterfaces".toList).bind Json.asArray with
  | none => .error (.invalidCard "v1 supportedInterfaces must be an array".toList)
  | some interfaces =>
    if interfaces.isEmpty then
      .error (.invalidCard "v1 supportedInterfaces must not be empty".toList)
    else do
      validateInterfaces 0 interfaces
      return interfaces

def v1Summary (raw : Json) (name description agentVersion : Text) : CardSummary where
  name := name
  description := description
  agentVersion := agentVersion
  protocolVersion := .v1
  streaming := streams raw
  skills := parseSkills raw

def parseV1Card (cardUrl : Url) (raw : Json) (bearerConfigured : Bool) :
    Except A2aError ParsedAgentCard := do
  let (name, description, agentVersion) ← parseV1Head raw
  validateSecurity raw "securityRequirements".toList bearerConfigured
  let interfaces ← parseV1Interfaces raw
  match ← firstInterface (parseV1Interface lib serialize cardUrl) interfaces with
  | none => .error noSupportedInterface
  | some selected => return ⟨v1Summary raw name description agentVersion, selected, raw⟩

/-- The URL and the transport of the additional interfaces of a v0.3 card. -/
def additionalCandidates : List Json → Except A2aError (List (Json × Json))
  | [] => .ok []
  | interface :: rest =>
    match asObject interface with
    | none => .error (.invalidCard "v0.3 additionalInterfaces entries must be objects".toList)
    | some members => do
      let others ← additionalCandidates rest
      return ((members.lookup "url".toList).getD .null,
        (members.lookup "transport".toList).getD .null) :: others

/-- The interfaces of a v0.3 card: the preferred one and the additional ones. -/
def v03Candidates (raw : Json) : Except A2aError (List (Json × Json)) := do
  let preferred := match raw.get? "url".toList with
    | some url =>
      [(url, (raw.get? "preferredTransport".toList).getD (.string "JSONRPC".toList))]
    | none => []
  match (raw.get? "additionalInterfaces".toList).bind Json.asArray with
  | some additional => do
    let others ← additionalCandidates additional
    return preferred ++ others
  | none => return preferred

def v03Binding (transport : Json) : Option ProtocolBinding :=
  match transport.asStr with
  | some binding =>
    if binding = "JSONRPC".toList then some .jsonRpc
    else if binding = "HTTP+JSON".toList then some .httpJson
    else none
  | none => none

/-- The first candidate with a transport that the client supports. -/
def selectV03 (cardUrl : Url) : List (Json × Json) → Except A2aError SelectedInterface
  | [] => .error (.unsupportedCard
      "expected JSONRPC or HTTP+JSON in v0.3 card interfaces".toList)
  | (url, transport) :: rest =>
    match v03Binding transport with
    | none => selectV03 cardUrl rest
    | some binding => do
      let url ← parseCardInterfaceUrl lib cardUrl (some url)
      return ⟨serialize url, binding, .v03, none⟩

def parseV03Card (cardUrl : Url) (raw : Json) (bearerConfigured : Bool) :
    Except A2aError ParsedAgentCard :=
  match (raw.get? "protocolVersion".toList).bind Json.asStr with
  | none =>
    .error (.invalidCard "card is neither v1 nor v0.3 (protocolVersion missing)".toList)
  | some version =>
    if !"0.3".toList.isPrefixOf version then
      .error (.unsupportedCard ("unsupported protocolVersion ".toList ++ version))
    else do
      let name ← requiredString raw "name".toList 256
      let description := optionalString raw "description".toList 2048
      let agentVersion ← requiredString raw "version".toList 128
      validateSecurity raw "security".toList bearerConfigured
      let candidates ← v03Candidates raw
      let selected ← selectV03 lib serialize cardUrl candidates
      let _ ← negotiateOutputModes raw
      return ⟨⟨name, description, agentVersion, .v03, streams raw, parseSkills raw⟩, selected, raw⟩

/-- The shape of a card is told by its interfaces. -/
def isV1 (raw : Json) : Bool := (raw.get? "supportedInterfaces".toList).isSome

def parseAgentCard (cardUrl : Url) (raw : Json) (bearerConfigured : Bool) :
    Except A2aError ParsedAgentCard :=
  if !raw.isObject then .error (.invalidCard "top level must be an object".toList)
  else if isV1 raw then parseV1Card lib serialize cardUrl raw bearerConfigured
  else parseV03Card lib serialize cardUrl raw bearerConfigured

end

/-! Cards of agents that a registry describes. -/

def registryEndpointOverrideWarning : Text :=
  "registry_endpoint_override_for_wildcard_card_interface".toList

def registryApiKeyWarning : Text :=
  "registry_anonymous_override_for_x_api_key_card_requirement".toList

def isLiteralWildcardInterface (url : Url) : Bool :=
  url.host == some "0.0.0.0".toList || url.host == some "::".toList ||
    url.host == some "[::]".toList

def isExactRegistryApiKeyScheme (value : Json) : Bool :=
  let scheme := value.get? "apiKeySecurityScheme".toList
  (scheme.bind (Json.get? "in".toList)).bind Json.asStr == some "header".toList &&
    (scheme.bind (Json.get? "name".toList)).bind Json.asStr == some "X-API-Key".toList

/-- Every requirement is the one key that the registry tolerates. -/
def exactApiKeyOnly (raw : Json) (requirements : List Json) : Bool :=
  let schemes := (raw.get? "securitySchemes".toList).filter Json.isObject
  requirements.all fun requirement => (requirementNames requirement).any fun names =>
    match names with
    | [name] => (schemes.bind (Json.get? name)).any isExactRegistryApiKeyScheme
    | _ => false

def validateRegistryAnonymousSecurity (raw : Json) : Except A2aError Bool :=
  match raw.get? "securityRequirements".toList with
  | none => .ok false
  | some (.array requirements) =>
    if requirements.isEmpty || requirements.any requirementIsEmpty then .ok false
    else if exactApiKeyOnly raw requirements then .ok true
    else
      .error (.unsupportedCard ("Registry-anonymous compatibility only tolerates ".toList ++
        "the confirmed X-API-Key card requirement".toList))
  | some _ => .error (.invalidCard "securityRequirements must be an array".toList)

def differsFromDescriptor : A2aError :=
  .unsupportedCard "Registry card interface differs from the exact descriptor endpoint".toList

section
variable (lib : A2aLib) (serialize : Url → Text)

/-- The endpoint that an advertised one stands for, and whether it was repaired. -/
def registryEndpoint (cardUrl advertised descriptor : Url) : Except A2aError (Url × Bool) :=
  if advertised = descriptor then .ok (advertised, false)
  else if isLiteralWildcardInterface advertised ∧ advertised.path = descriptor.path ∧
      advertised.query = descriptor.query then
    .ok (descriptor, true)
  else if sameOrigin cardUrl advertised then .error differsFromDescriptor
  else .error .crossOrigin

def parseRegistryV1Interface (cardUrl descriptor : Url) (value : Json) :
    Except A2aError (Option (SelectedInterface × Bool)) :=
  match asObject value with
  | none => .error (.invalidCard "v1 supportedInterfaces entries must be objects".toList)
  | some members =>
    match supportedBinding value with
    | none => .ok none
    | some binding =>
      match (value.get? "url".toList).bind Json.asStr with
      | none => .error (.invalidCard "interface URL must be a string".toList)
      | some advertised => do
        let advertised ← validateEndpoint lib advertised
        let (effective, repaired) ← registryEndpoint cardUrl advertised descriptor
        let tenant ← parseInterfaceTenant members
        return some (⟨serialize effective, binding, .v1, tenant⟩, repaired)

def parseRegistryV1Card (cardUrl : Url) (raw : Json) (descriptor : Url) :
    Except A2aError (ParsedAgentCard × List Text) := do
  let (name, description, agentVersion) ← parseV1Head raw
  let apiKeyMismatch ← validateRegistryAnonymousSecurity raw
  let interfaces ← parseV1Interfaces raw
  match ← firstInterface (parseRegistryV1Interface lib serialize cardUrl descriptor) interfaces with
  | none => .error noSupportedInterface
  | some (selected, endpointRepaired) =>
    return (⟨v1Summary raw name description agentVersion, selected, raw⟩,
      (if endpointRepaired then [registryEndpointOverrideWarning] else []) ++
        if apiKeyMismatch then [registryApiKeyWarning] else [])

def trimBrackets (host : Text) : Text :=
  ((host.dropWhile (· == '[')).reverse.dropWhile (· == ']')).reverse

/-- A loopback endpoint of a test. -/
def allowedTestEndpoint (descriptor : Url) (allowLoopbackHttp : Bool) : Bool :=
  allowLoopbackHttp && descriptor.scheme == "http".toList &&
    (descriptor.host.bind fun host => parseIpAddr (trimBrackets host)).any fun address =>
      match address with
      | .v4 ip => ip.isLoopback
      | .v6 ip => ip.isLoopback

def parseRegistryAgentCard (cardUrl : Url) (raw : Json) (descriptor : Url)
    (allowLoopbackHttp : Bool) : Except A2aError (ParsedAgentCard × List Text) :=
  if descriptor.scheme ≠ "https".toList ∧ allowedTestEndpoint descriptor allowLoopbackHttp = false
  then
    .error (.invalidEndpoint "Registry-derived A2A endpoints must use HTTPS".toList)
  else if !sameOrigin cardUrl descriptor then .error .crossOrigin
  else
    match parseAgentCard lib serialize cardUrl raw false with
    | .ok parsed => do
      let selected ← validateEndpoint lib parsed.selectedInterface.url
      if selected = descriptor then .ok (parsed, []) else .error differsFromDescriptor
    | .error error =>
      if !isV1 raw then .error error
      else parseRegistryV1Card lib serialize cardUrl raw descriptor

end
end DeepseekScience.A2a
