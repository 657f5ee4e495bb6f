import DeepseekScience.Core.Settings
import DeepseekScience.Llm.Stream

/-! Remote agents: their configuration, their errors, and what is known of their cards. -/
namespace DeepseekScience.A2a

open DeepseekScience.Core Net

def maxAgentCount : ℕ := 16
def maxCardBytes : ℕ := 256 * 1024
def maxResponseBytes : ℕ := 1024 * 1024
def maxTotalResponseBytes : ℕ := 4 * 1024 * 1024
def maxEndpointBytes : ℕ := 2048
def maxTaskBytes : ℕ := 256 * 1024
def minTimeoutSeconds : ℕ := 5
def maxTimeoutSeconds : ℕ := 300

inductive ProtocolVersion where
  | v1
  | v03
  deriving DecidableEq

def ProtocolVersion.wire : ProtocolVersion → Text
  | .v1 => "1.0".toList
  | .v03 => "0.3".toList

inductive ProtocolBinding where
  | jsonRpc
  | httpJson
  deriving DecidableEq

inductive A2aError where
  | invalidConfig (message : Text)
  | invalidEndpoint (message : Text)
  | cardRefresh (message : Text)
  | cardTooLarge (limit : ℕ)
  | invalidCard (message : Text)
  | unsupportedCard (message : Text)
  | crossOrigin
  | responseTooLarge (operation : Text) (limit : ℕ)
  | totalResponseTooLarge (limit : ℕ)
  | protocol (message : Text)
  | timeout
  | transport (message : Text)

/-- How an error is displayed. -/
def A2aError.text : A2aError → Text
  | .invalidConfig message => "invalid A2A configuration: ".toList ++ message
  | .invalidEndpoint message => "invalid A2A endpoint: ".toList ++ message
  | .cardRefresh message => "Agent Card refresh failed: ".toList ++ message
  | .cardTooLarge limit =>
    "Agent Card is larger than the ".toList ++ natText limit ++ "-byte limit".toList
  | .invalidCard message => "invalid Agent Card: ".toList ++ message
  | .unsupportedCard message => "Agent Card has no supported A2A interface: ".toList ++ message
  | .crossOrigin => "Agent Card interface origin differs from the configured origin".toList
  | .responseTooLarge operation limit =>
    "A2A response for ".toList ++ operation ++ " is larger than the ".toList ++
      natText limit ++ "-byte limit".toList
  | .totalResponseTooLarge limit =>
    "accepted A2A responses would exceed the ".toList ++ natText limit ++
      "-byte invocation limit".toList
  | .protocol message => "A2A protocol error: ".toList ++ message
  | .timeout => "A2A request timed out".toList
  | .transport message => "A2A transport failed: ".toList ++ message

structure CardSkillSummary where
  id : Text
  name : Text
  description : Text
  tags : List Text
  inputModes : List Text
  outputModes : List Text

structure CardSummary where
  name : Text
  description : Text
  agentVersion : Text
  protocolVersion : ProtocolVersion
  streaming : Bool
  skills : List CardSkillSummary

structure SelectedInterface where
  url : Text
  binding : ProtocolBinding
  protocolVersion : ProtocolVersion
  tenant : Option Text

inductive CardRefreshKind where
  | modified
  | notModified
  deriving DecidableEq

structure CardSnapshot where
  cardUrl : Text
  fetchedAt : Text
  sha256 : Text
  refreshKind : CardRefreshKind
  etag : Option Text
  lastModified : Option Text
  summary : CardSummary
  selectedInterface : SelectedInterface
  raw : Json

section
/-! What a configuration must look like. -/

/-- The packages that the agents' configurations are checked with. -/
structure A2aLib where
  parseUrl : Text → Option Url
  toLowercase : Text → Text
  /-- The first six bytes of the SHA-256 digest of a text, in hex. -/
  digestPrefix : Text → Text

variable (lib : A2aLib)

def validateTimeout (timeout : ℕ) : Except A2aError Unit :=
  if minTimeoutSeconds ≤ timeout ∧ timeout ≤ maxTimeoutSeconds then .ok ()
  else .error (.invalidConfig ("timeout_seconds must be between ".toList ++
    natText minTimeoutSeconds ++ " and ".toList ++ natText maxTimeoutSeconds))

def validateEndpoint (endpoint : Text) : Except A2aError Url :=
  if endpoint.isEmpty || decide (maxEndpointBytes < byteLen endpoint) then
    .error (.invalidEndpoint ("endpoint must contain 1 to ".toList ++
      natText maxEndpointBytes ++ " bytes".toList))
  else
    match lib.parseUrl endpoint with
    | none => .error (.invalidEndpoint "endpoint is not a valid URL".toList)
    | some url =>
      if !url.isHttp then
        .error (.invalidEndpoint "only http and https endpoints are supported".toList)
      else if url.host.isNone then .error (.invalidEndpoint "endpoint has no host".toList)
      else if !url.username.isEmpty || url.password.isSome then
        .error (.invalidEndpoint "credentials in endpoint URLs are forbidden".toList)
      else if url.fragment.isSome then
        .error (.invalidEndpoint "endpoint fragments are forbidden".toList)
      else .ok url

/-- What a configured token must not be: empty, very long, or with a line break in it. -/
def tokenIsUnsafe (token : Text) : Bool :=
  token.isEmpty || decide (16 * 1024 < byteLen token) || token.contains '\r' ||
    token.contains '\n'

def validateConfig (config : A2aAgentConfig) : Except A2aError Unit :=
  if (trim config.id).isEmpty || decide (128 < byteLen config.id) then
    .error (.invalidConfig "id must contain 1 to 128 bytes".toList)
  else if config.id.any isControl then
    .error (.invalidConfig "id must not contain control characters".toList)
  else if (trim config.name).isEmpty || decide (256 < byteLen config.name) then
    .error (.invalidConfig "name must contain 1 to 256 bytes".toList)
  else if config.name.any isControl then
    .error (.invalidConfig "name must not contain control characters".toList)
  else do
    validateTimeout config.timeoutSeconds
    let _ ← validateEndpoint lib config.endpoint
    if config.bearerToken.any tokenIsUnsafe then
      .error (.invalidConfig "Bearer token is empty, too long, or contains a newline".toList)

/-- The readable part of a tool name: runs of other characters become one underscore. -/
def readableToolName (previousUnderscore : Bool) (room : ℕ) : Text → Text
  | [] => []
  | c :: rest =>
    if room = 0 then []
    else if isAsciiAlphanumeric c then
      c.toLower :: readableToolName false (room - 1) rest
    else if previousUnderscore then readableToolName true room rest
    else '_' :: readableToolName true (room - 1) rest

def trimUnderscores (t : Text) : Text :=
  ((t.dropWhile (· == '_')).reverse.dropWhile (· == '_')).reverse

def stableToolName (configId : Text) : Text :=
  let readable := trimUnderscores (readableToolName false 28 configId)
  if readable.isEmpty then "a2a_agent_".toList ++ lib.digestPrefix configId
  else "a2a_agent_".toList ++ readable ++ '_' :: lib.digestPrefix configId

/-- The configurations that follow those with the given ids, names and tool names. -/
def validateConfigsFrom (ids names tools : List Text) : List A2aAgentConfig → Except A2aError Unit
  | [] => .ok ()
  | config :: rest => do
    validateConfig lib config
    let name := lib.toLowercase (trim config.name)
    let tool := stableToolName lib config.id
    if ids.contains config.id then
      .error (.invalidConfig ("duplicate A2A Agent id: ".toList ++ config.id))
    else if names.contains name then
      .error (.invalidConfig ("duplicate A2A Agent name: ".toList ++ config.name))
    else if tools.contains tool then
      .error (.invalidConfig ("A2A Agent ids produce the same tool name: ".toList ++ tool))
    else validateConfigsFrom (config.id :: ids) (name :: names) (tool :: tools) rest

def validateConfigs (configs : List A2aAgentConfig) : Except A2aError Unit :=
  if maxAgentCount < configs.length then
    .error (.invalidConfig ("at most ".toList ++ natText maxAgentCount ++
      " A2A Agents may be configured".toList))
  else validateConfigsFrom lib [] [] [] configs

end

section
/-! The agents of one settings revision. -/

inductive AgentRuntimeStatus where
  | unchecked
  | ready
  | offline
  | invalid
  | unsupported
  | disabled
  deriving DecidableEq

structure AgentRuntime where
  config : A2aAgentConfig
  status : AgentRuntimeStatus
  card : Option CardSnapshot := none
  lastError : Option Text := none
  lastRefreshedAt : Option Text := none

structure A2aRuntimeSnapshot where
  revision : ℕ
  agents : List AgentRuntime

def A2aRuntimeSnapshot.configs (snapshot : A2aRuntimeSnapshot) : List A2aAgentConfig :=
  snapshot.agents.map AgentRuntime.config

def AgentRuntime.unrefreshed (config : A2aAgentConfig) : AgentRuntime where
  config := config
  status := if config.enabled then .unchecked else .disabled

def A2aRuntimeSnapshot.unrefreshed (lib : A2aLib) (revision : ℕ) (configs : List A2aAgentConfig) :
    Except A2aError A2aRuntimeSnapshot := do
  validateConfigs lib configs
  return { revision := revision, agents := configs.map AgentRuntime.unrefreshed }

def statusForRefreshError : A2aError → AgentRuntimeStatus
  | .unsupportedCard _ => .unsupported
  | .invalidConfig _ | .invalidEndpoint _ | .cardTooLarge _ | .invalidCard _ | .crossOrigin =>
    .invalid
  | _ => .offline

/-- One agent after its card was asked for: `refreshCard` is the client's answer. -/
def AgentRuntime.refresh
    (refreshCard : A2aAgentConfig → Option CardSnapshot → Except A2aError CardSnapshot)
    (agent : AgentRuntime) : AgentRuntime :=
  if !agent.config.enabled then { agent with status := .disabled, lastError := none }
  else
    match refreshCard agent.config agent.card with
    | .ok card =>
      { agent with
        lastRefreshedAt := some card.fetchedAt
        card := some card
        status := .ready
        lastError := none }
    | .error error =>
      { agent with status := statusForRefreshError error, lastError := some error.text }

def A2aRuntimeSnapshot.refreshAll
    (refreshCard : A2aAgentConfig → Option CardSnapshot → Except A2aError CardSnapshot)
    (snapshot : A2aRuntimeSnapshot) : A2aRuntimeSnapshot :=
  { snapshot with agents := snapshot.agents.map (AgentRuntime.refresh refreshCard) }

@[simp] theorem refresh_config
    (refreshCard : A2aAgentConfig → Option CardSnapshot → Except A2aError CardSnapshot)
    (agent : AgentRuntime) : (agent.refresh refreshCard).config = agent.config := by
  rw [AgentRuntime.refresh]
  split_ifs
  · rfl
  · cases refreshCard agent.config agent.card <;> rfl

/-- A refresh learns cards and keeps the configurations. -/
@[simp] theorem refreshAll_configs
    (refreshCard : A2aAgentConfig → Option CardSnapshot → Except A2aError CardSnapshot)
    (snapshot : A2aRuntimeSnapshot) :
    (snapshot.refreshAll refreshCard).configs = snapshot.configs := by
  simp [A2aRuntimeSnapshot.refreshAll, A2aRuntimeSnapshot.configs]

@[simp] theorem refreshAll_revision
    (refreshCard : A2aAgentConfig → Option CardSnapshot → Except A2aError CardSnapshot)
    (snapshot : A2aRuntimeSnapshot) :
    (snapshot.refreshAll refreshCard).revision = snapshot.revision := rfl

theorem unrefreshed_ok {lib : A2aLib} {revision : ℕ} {configs : List A2aAgentConfig}
    {snapshot : A2aRuntimeSnapshot}
    (h : A2aRuntimeSnapshot.unrefreshed lib revision configs = .ok snapshot) :
    snapshot.revision = revision ∧ snapshot.configs = configs := by
  rw [A2aRuntimeSnapshot.unrefreshed] at h
  cases hv : validateConfigs lib configs with
  | error e =>
    rw [hv] at h
    cases h
  | ok _ =>
    rw [hv] at h
    cases h
    exact ⟨rfl, by simp [A2aRuntimeSnapshot.configs, AgentRuntime.unrefreshed, Function.comp_def]⟩

end
end DeepseekScience.A2a
