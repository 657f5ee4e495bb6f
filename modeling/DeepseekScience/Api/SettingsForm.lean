import DeepseekScience.A2a.Types
import DeepseekScience.Core.Encode

/-! The form of the settings, and the checks of what is submitted with it: providers, remote
agents and servers, each with the credential that is submitted, kept or removed. -/
namespace DeepseekScience.Api.SettingsEndpoints

open DeepseekScience.Core DeepseekScience.A2a Net

structure ProviderSettings where
  id : Text := []
  name : Text
  baseUrl : Text
  model : Option Text := none
  apiKeyMasked : Text := []
  apiKey : Option Text := none
  enabled : Bool

structure A2aInterfaceSettings where
  url : Text
  protocolBinding : Text
  protocolVersion : Text

structure A2aCardSettings where
  name : Text
  description : Text
  version : Text
  protocolVersion : Text
  skills : List Text := []
  supportedInterfaces : List A2aInterfaceSettings := []

structure A2aAgentSettings where
  id : Text
  name : Text
  endpoint : Text
  enabled : Bool
  timeoutSeconds : ℕ
  bearerTokenMasked : Text := []
  bearerToken : Option Text := none
  clearBearerToken : Bool := false
  status : Text := []
  lastError : Option Text := none
  lastRefreshedAt : Option Text := none
  toolName : Text := []
  cardSummary : Option A2aCardSettings := none

structure McpServerSettings where
  name : Text
  url : Text
  enabled : Bool := false
  connected : Bool := false
  toolCount : Option ℕ := none

structure AppSettingsPayload where
  providers : List ProviderSettings
  model : Text
  defaultWorkspace : Text
  maxIterations : Option ℕ := none
  thinking : Option ThinkingSettings := none
  restartRequired : Bool := false
  revision : ℕ := 0
  overriddenFields : List Text := []
  a2aAgents : List A2aAgentSettings := []
  skills : SkillSettings := {}
  mcpServers : Option (List McpServerSettings) := none
  apiKeysMasked : List (Text × Text) := []
  apiKeys : Option (List (Text × Text)) := none
  logRetentionDays : UInt32 := 0
  logMaxRows : UInt32 := 0

/-- Why a save is refused, with what the refusal names. -/
inductive SettingsError where
  | maxIterations (message : Text)
  | enabledCount (count : ℕ)
  | noProvider
  | unnamedProvider
  | duplicateProviderName (name : Text)
  | providerScheme (name : Text)
  | providerCredentials (name : Text)
  | providerPlaintext (name : Text)
  | providerModel (name : Text)
  | stale
  | io (message : Text)
  | invalidFile (message : Text)
  | tokenAndRemoval
  | agents (error : A2aError)
  | unnamedServer
  | serverScheme (name : Text)
  | duplicateServerName (name : Text)
  | duplicateProviderId (id : Text)
  | retentionDays
  | maxRows
  | revisionOverflow
  | core (error : CoreError)

def providerLabel (name : Text) : Text := "provider \"".toList ++ name ++ "\" ".toList

def serverLabel (name : Text) : Text := "MCP server \"".toList ++ name ++ "\" ".toList

/-- `Error::to_string`, with the data directory in front of the file's name. -/
def coreErrorText (directory : Text) : CoreError → Text
  | .noHome => "home directory not found (HOME env var unset)".toList
  | .configParse .configToml message =>
    "failed to parse config file ".toList ++ directory ++ "/config.toml: ".toList ++ message
  | .configParse .settingsJson message =>
    "failed to parse config file ".toList ++ directory ++ "/settings.json: ".toList ++ message
  | .io message => "io error: ".toList ++ message

/-- The text of the answer to a save that is refused. -/
def SettingsError.text (directory : Text) : SettingsError → Text
  | .maxIterations message => message
  | .enabledCount count =>
    "exactly one provider must be enabled (found ".toList ++ natText count ++ ")".toList
  | .noProvider => "at least one provider must be configured".toList
  | .unnamedProvider => "each provider needs a name".toList
  | .duplicateProviderName name => "duplicate provider name: ".toList ++ name
  | .providerScheme name => providerLabel name ++ "base_url must use http:// or https://".toList
  | .providerCredentials name =>
    providerLabel name ++ "base_url must not contain credentials or fragments".toList
  | .providerPlaintext name =>
    providerLabel name ++ "must use HTTPS unless it targets a literal loopback address".toList
  | .providerModel name => providerLabel name ++ "model must not be empty".toList
  | .stale => "settings changed since this form was loaded; reload before saving".toList
  | .io message => message
  | .invalidFile message => "existing settings.json is invalid: ".toList ++ message
  | .tokenAndRemoval =>
    "bearer_token and clear_bearer_token cannot be submitted together".toList
  | .agents error => error.text
  | .unnamedServer => "each MCP server needs a name".toList
  | .serverScheme name => serverLabel name ++ "url must use http:// or https://".toList
  | .duplicateServerName name => "duplicate MCP server name: ".toList ++ name
  | .duplicateProviderId id => "duplicate provider id: ".toList ++ id
  | .retentionDays => "log_retention_days must be >= 1".toList
  | .maxRows => "log_max_rows must be >= 1000".toList
  | .revisionOverflow => "runtime settings revision overflow".toList
  | .core error => coreErrorText directory error

/-- The status of that answer. -/
def SettingsError.status : SettingsError → ℕ
  | .stale => 409
  | .io _ | .revisionOverflow => 500
  | _ => 400

/-- What stands for a credential in an answer. -/
def mask : Text := "••••••••".toList

section
/-! Addresses of providers. -/

variable (lib : SettingsLib)

def normalizedProviderUrl (url : Text) : Option Url :=
  (lib.parseUrl (trim url)).filter fun parsed =>
    parsed.isHttp && parsed.username.isEmpty && parsed.fragment.isNone

def trimSlashes (path : Text) : Text := (path.reverse.dropWhile (· == '/')).reverse

def sameProviderAuthority (left right : Text) : Bool :=
  match normalizedProviderUrl lib left, normalizedProviderUrl lib right with
  | some left, some right =>
    eqIgnoreAsciiCase left.scheme right.scheme &&
      left.host.map toAsciiLowercase == right.host.map toAsciiLowercase &&
      left.portOrKnownDefault == right.portOrKnownDefault &&
      trimSlashes left.path == trimSlashes right.path && left.query == right.query
  | _, _ => false

def isLiteralLoopbackUrl (url : Url) : Bool :=
  (url.host.bind parseIpAddr).any fun address =>
    match address with
    | .v4 ip => ip.isLoopback
    | .v6 ip => ip.isLoopback

def hasHttpScheme (url : Text) : Bool :=
  "http://".toList.isPrefixOf url || "https://".toList.isPrefixOf url

end

section
/-! The submitted providers. -/

variable (lib : SettingsLib) (model : Text)

/-- The providers that follow those with the given lower-case names. -/
def checkProvidersFrom (seen : List Text) : List ProviderSettings → Except SettingsError Unit
  | [] => .ok ()
  | provider :: rest =>
    let name := trim provider.name
    let baseUrl := trim provider.baseUrl
    if name.isEmpty then .error .unnamedProvider
    else if seen.contains (lib.toLowercase name) then .error (.duplicateProviderName name)
    else if !hasHttpScheme baseUrl then .error (.providerScheme name)
    else
      match normalizedProviderUrl lib baseUrl with
      | none => .error (.providerCredentials name)
      | some parsed =>
        if parsed.scheme == "http".toList && !isLiteralLoopbackUrl parsed then
          .error (.providerPlaintext name)
        else if (trim (provider.model.getD model)).isEmpty then .error (.providerModel name)
        else checkProvidersFrom (lib.toLowercase name :: seen) rest

def checkMaxIterations : Option ℕ → Except SettingsError Unit
  | none => .ok ()
  | some maxIterations =>
    match validateMaxIterations maxIterations with
    | .error message => .error (.maxIterations message)
    | .ok () => .ok ()

/-- What is checked of a form before anything is read. -/
def checkForm (form : AppSettingsPayload) : Except SettingsError Unit := do
  checkMaxIterations form.maxIterations
  let enabledCount := form.providers.countP (·.enabled)
  if enabledCount ≠ 1 then .error (.enabledCount enabledCount)
  else if form.providers.isEmpty then .error .noProvider
  else checkProvidersFrom lib form.model [] form.providers

/-- A credential that is submitted: blank ones are not. -/
def givenText (value : Option Text) : Option Text := (value.map trim).filter fun t => !t.isEmpty

/-- The stored provider whose key a submitted one keeps. -/
def storedProvider (stored : List LlmProvider) (submitted : ProviderSettings) :
    Option LlmProvider :=
  stored.find? fun existing =>
    existing.id == submitted.id && sameProviderAuthority lib existing.baseUrl submitted.baseUrl

/-- The key of a submitted provider: its own, or the one that is kept for it. -/
def providerKey (stored : List LlmProvider) (submitted : ProviderSettings) : Option Text :=
  (givenText submitted.apiKey).or ((storedProvider lib stored submitted).bind (·.apiKey))

def providerConfig (stored : List LlmProvider) (freshId : Text) (submitted : ProviderSettings) :
    LlmProvider where
  id := if (trim submitted.id).isEmpty then freshId else trim submitted.id
  name := trim submitted.name
  baseUrl := trim submitted.baseUrl
  model := trim (submitted.model.getD model)
  apiKey := providerKey lib stored submitted
  enabled := submitted.enabled

/-- The providers that follow those with the given ids. -/
def checkProviderIds (seen : List Text) : List LlmProvider → Except SettingsError Unit
  | [] => .ok ()
  | provider :: rest =>
    if seen.contains provider.id then .error (.duplicateProviderId provider.id)
    else checkProviderIds (provider.id :: seen) rest

def providerConfigs (stored : List LlmProvider) (freshId : ℕ → Text)
    (submitted : List ProviderSettings) : Except SettingsError (List LlmProvider) := do
  let configs := submitted.mapIdx fun i provider => providerConfig lib model stored (freshId i) provider
  checkProviderIds [] configs
  return configs

end

section
/-! The submitted agents and servers. -/

/-- The stored agent whose token a submitted one keeps: the same name for the same address. -/
def storedAgent (stored : List A2aAgentConfig) (submitted : A2aAgentSettings) :
    Option A2aAgentConfig :=
  stored.find? fun existing =>
    existing.id == submitted.id && trim existing.endpoint == trim submitted.endpoint

def agentToken (stored : List A2aAgentConfig) (submitted : A2aAgentSettings) : Option Text :=
  if submitted.clearBearerToken then none
  else (givenText submitted.bearerToken).or ((storedAgent stored submitted).bind (·.bearerToken))

def agentConfig (stored : List A2aAgentConfig) (submitted : A2aAgentSettings) : A2aAgentConfig where
  id := trim submitted.id
  name := trim submitted.name
  endpoint := trim submitted.endpoint
  enabled := submitted.enabled
  bearerToken := agentToken stored submitted
  timeoutSeconds := submitted.timeoutSeconds

def agentConfigs (lib : A2aLib) (stored : List A2aAgentConfig) (submitted : List A2aAgentSettings) :
    Except SettingsError (List A2aAgentConfig) :=
  if submitted.any fun agent => agent.clearBearerToken && (givenText agent.bearerToken).isSome then
    .error .tokenAndRemoval
  else
    let configs := submitted.map (agentConfig stored)
    match validateConfigs lib configs with
    | .error error => .error (.agents error)
    | .ok () => .ok configs

def serverConfig (submitted : McpServerSettings) : McpServerConfig where
  name := trim submitted.name
  url := trim submitted.url
  enabled := submitted.enabled

/-- The servers that follow those with the given lower-case names. -/
def checkServersFrom (lib : SettingsLib) (seen : List Text) :
    List McpServerConfig → Except SettingsError Unit
  | [] => .ok ()
  | server :: rest =>
    if server.name.isEmpty then .error .unnamedServer
    else if !hasHttpScheme server.url then .error (.serverScheme server.name)
    else if seen.contains (lib.toLowercase server.name) then
      .error (.duplicateServerName server.name)
    else checkServersFrom lib (lib.toLowercase server.name :: seen) rest

/-- A form without a server list keeps the list that there is. -/
def serverConfigs (lib : SettingsLib) :
    Option (List McpServerSettings) → Except SettingsError (Option (List McpServerConfig))
  | none => .ok none
  | some submitted => do
    let configs := submitted.map serverConfig
    checkServersFrom lib [] configs
    return some configs

/-- The data-source keys: the mask keeps a key, a blank removes it. -/
def mergeApiKeys (current : List (Text × Text)) (submitted : Option (List (Text × Text))) :
    List (Text × Text) :=
  (submitted.getD []).foldl (fun merged entry =>
    if entry.2 = mask then merged
    else if entry.2.isEmpty then merged.filter fun e => !(e.1 == entry.1)
    else insertEntry entry.1 entry.2 merged) current

/-- Trimmed, without blanks, each once. -/
def cleanTexts (values : List Text) : List Text :=
  ((values.map trim).filter fun t => !t.isEmpty).eraseDups

/-- `SkillSettingsPayload::to_config`. -/
def skillConfig (submitted : SkillSettings) : SkillSettings :=
  { submitted with
    disabled := cleanTexts submitted.disabled
    customDirs := cleanTexts submitted.customDirs }

end
end DeepseekScience.Api.SettingsEndpoints
