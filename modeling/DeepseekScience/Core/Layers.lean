import DeepseekScience.Core.Settings

/-! The layers of the settings: defaults, `config.toml`, `settings.json`, the environment.
The loader stacks them at start-up, and the resolvers stack them again around a candidate. -/
namespace DeepseekScience.Core

open Net

inductive ConfigPath where
  | configToml
  | settingsJson
  deriving DecidableEq

inductive CoreError where
  | noHome
  | configParse (path : ConfigPath) (message : Text)
  | io (message : Text)
  deriving DecidableEq

/-- What reading a file of the data directory meets. -/
inductive FileState where
  | absent
  | unreadable (message : Text)
  | content (text : Text)

/-- `settings.json`, as the value that its text spells. -/
inductive SettingsFile where
  | absent
  | unreadable (message : Text)
  | malformed (message : Text)
  | json (value : Json)

structure DataDir where
  path : Text
  isDefault : Bool
  configToml : FileState
  settingsJson : SettingsFile

/-- A variable of the process environment, which need not be Unicode. -/
inductive EnvValue where
  | unicode (value : Text)
  | other (lossy : Text)

abbrev Environment := Text → Option EnvValue

/-- `std::env::var`. -/
def envVar (env : Environment) (name : Text) : Option Text :=
  match env name with
  | some (.unicode value) => some value
  | _ => none

/-- `std::env::var_os`, read lossily. -/
def envVarLossy (env : Environment) (name : Text) : Option Text :=
  (env name).map fun
    | .unicode value => value
    | .other lossy => lossy

/-- The packages that the settings are read with. The readers of TOML fail with a message. -/
structure SettingsLib where
  /-- What `serde_json` says of a value that does not have the expected type. -/
  typeMessage : Json → Text
  parseToml : Text → Except Text FileSettings
  parseTomlSkills : Text → Except Text (Option SkillSettings)
  parseUrl : Text → Option Url
  toLowercase : Text → Text

/-- `str::parse::<u16>`. -/
def parseU16 (t : Text) : Option ℕ :=
  let digits := (stripPrefixChar '+' t).getD t
  let value := digits.foldl (fun n c => n * 10 + (c.toNat - '0'.toNat)) 0
  if !digits.isEmpty && digits.all isAsciiDigit && decide (value < 2 ^ 16) then some value else none

section
variable (env : Environment)

/-- A variable that overrides a field of the LLM settings: an empty one does not. -/
def envOverride (name : Text) : Option Text := (envVar env name).filter fun value => !value.isEmpty

def applyEnvServer (server : ServerSettings) : ServerSettings :=
  let host := (envVarLossy env "DSS_HOST".toList).getD server.host
  let port := ((envVar env "DSS_PORT".toList).bind parseU16).getD server.port
  { host := host, port := port }

def applyEnvLlm (llm : LlmSettings) : LlmSettings where
  baseUrl := (envOverride env "DSS_LLM_BASE_URL".toList).getD llm.baseUrl
  model := (envOverride env "DSS_LLM_MODEL".toList).getD llm.model
  apiKey := (envOverride env "DEEPSEEK_API_KEY".toList).or llm.apiKey

def llmEnvOverrides : LlmEnvOverrides where
  baseUrl := (envOverride env "DSS_LLM_BASE_URL".toList).isSome
  model := (envOverride env "DSS_LLM_MODEL".toList).isSome
  apiKey := (envOverride env "DEEPSEEK_API_KEY".toList).isSome

def applyEnvLogLevel (logLevel : Option Text) : Option Text :=
  ((envVar env "DSS_LOG".toList).or (envVar env "RUST_LOG".toList)).or logLevel

def applyProcessEnvironment (server : ServerSettings) (llm : LlmSettings)
    (logLevel : Option Text) :
    ServerSettings × LlmSettings × Option Text × LlmEnvOverrides :=
  (applyEnvServer env server, applyEnvLlm env llm, applyEnvLogLevel env logLevel,
    llmEnvOverrides env)

end

/-- What `FileSettings::apply_to` writes to. -/
structure Layers where
  server : ServerSettings := {}
  llm : LlmSettings := {}
  logLevel : Option Text := none
  mcpServers : List McpServerConfig := defaultMcpServers
  a2aAgents : List A2aAgentConfig := []
  providers : List LlmProvider := []

/-- `str::replace(' ', "_")`. -/
def spacesToUnderscores (t : Text) : Text := t.map fun c => if c = ' ' then '_' else c

def FileLlmProvider.intoProvider (lib : SettingsLib) (file : FileLlmProvider) : LlmProvider :=
  let name := file.name.getD "DeepSeek".toList
  let id := (file.id.filter fun id => !id.isEmpty).getD
    (spacesToUnderscores (lib.toLowercase name))
  { id := if id.isEmpty then "provider".toList else id
    name := name
    baseUrl := file.baseUrl.getD defaultLlmBaseUrl
    model := file.model.getD defaultLlmModel
    apiKey := file.apiKey.filter fun key => !key.isEmpty
    enabled := file.enabled.getD true }

namespace FileSettings

def applyThinking (file : FileSettings) (thinking : ThinkingSettings) : ThinkingSettings where
  enabled := file.thinking.enabled.getD thinking.enabled
  effort := file.thinking.effort.getD thinking.effort

def applyMaxIterations (file : FileSettings) (path : ConfigPath) (maxIterations : ℕ) :
    Except CoreError ℕ :=
  match file.maxIterations with
  | none => .ok maxIterations
  | some value =>
    match validateMaxIterations value with
    | .error message => .error (.configParse path message)
    | .ok () => .ok value

def applyTo (lib : SettingsLib) (file : FileSettings) (layers : Layers) : Layers where
  server :=
    { host := file.server.host.getD layers.server.host
      port := file.server.port.getD layers.server.port }
  llm :=
    { baseUrl := file.llm.baseUrl.getD layers.llm.baseUrl
      model := file.llm.model.getD layers.llm.model
      apiKey := (file.llm.apiKey.filter fun key => !key.isEmpty).or layers.llm.apiKey }
  logLevel := file.logLevel.or layers.logLevel
  mcpServers := file.mcpServers.getD layers.mcpServers
  a2aAgents := file.a2aAgents.getD layers.a2aAgents
  providers :=
    (file.providers.map fun configured => configured.map (·.intoProvider lib)).getD
      layers.providers

end FileSettings

/-- The provider list that the legacy `llm` object stands for. -/
def providersFromLegacyLlm (legacyLlm : LlmSettings) : List LlmProvider :=
  [{ id := "deepseek".toList, name := "DeepSeek".toList, baseUrl := legacyLlm.baseUrl,
     model := legacyLlm.model, apiKey := legacyLlm.apiKey, enabled := true }]

def LlmProvider.llm (provider : LlmProvider) : LlmSettings where
  baseUrl := provider.baseUrl
  model := provider.model
  apiKey := provider.apiKey

def resolveEffectiveLlm (providers : List LlmProvider) (legacyLlm : LlmSettings) : LlmSettings :=
  ((providers.find? (·.enabled)).map LlmProvider.llm).getD legacyLlm

section
variable (lib : SettingsLib) (dir : DataDir)

/-- `config.toml`, where there is one. -/
def readConfigToml : Except CoreError (Option FileSettings) :=
  match dir.configToml with
  | .absent => .ok none
  | .unreadable message => .error (.io message)
  | .content text =>
    match lib.parseToml text with
    | .error message => .error (.configParse .configToml message)
    | .ok file => .ok (some file)

/-- `serde_json::from_value` into the file settings. -/
def decodeCandidate (candidate : Json) : Except CoreError FileSettings :=
  match decodeFileSettings candidate with
  | none => .error (.configParse .settingsJson (lib.typeMessage candidate))
  | some file => .ok file

/-- The layers under a candidate, and the candidate on top of them. -/
def candidateLayers (candidate : Json) : Except CoreError Layers := do
  let config ← readConfigToml lib dir
  let layers : Layers :=
    match config with
    | none => {}
    | some file => file.applyTo lib {}
  let file ← decodeCandidate lib candidate
  return file.applyTo lib layers

def resolvePersistedCandidateProviders (candidate : Json) : Except CoreError (List LlmProvider) :=
  do
  let layers ← candidateLayers lib dir candidate
  return if layers.providers.isEmpty then providersFromLegacyLlm layers.llm else layers.providers

def resolvePersistedCandidateLlm (candidate : Json) : Except CoreError LlmSettings := do
  let providers ← resolvePersistedCandidateProviders lib dir candidate
  return ((providers.find? (·.enabled)).map LlmProvider.llm).getD {}

def resolvePersistedCandidateA2aAgents (candidate : Json) :
    Except CoreError (List A2aAgentConfig) := do
  let layers ← candidateLayers lib dir candidate
  return layers.a2aAgents

/-- The check that both the loader and the resolver make of the server list. -/
def checkMcpServers (servers : List McpServerConfig) : Except CoreError Unit :=
  match validateMcpServers lib.parseUrl servers with
  | .error message => .error (.configParse .settingsJson message)
  | .ok () => .ok ()

def resolvePersistedCandidateMcpServers (candidate : Json) :
    Except CoreError (List McpServerConfig) := do
  let layers ← candidateLayers lib dir candidate
  checkMcpServers lib layers.mcpServers
  return layers.mcpServers

def resolvePersistedCandidateSkills (candidate : Json) : Except CoreError SkillSettings := do
  let skills : SkillSettings ←
    match dir.configToml with
    | .absent => .ok {}
    | .unreadable message => .error (.io message)
    | .content text =>
      match lib.parseTomlSkills text with
      | .error message => .error (.configParse .configToml message)
      | .ok configured => .ok (configured.getD {})
  match candidate with
  | .object members =>
    match members.lookup "skills".toList with
    | none => return skills
    | some configured =>
      match decodeSkillSettings configured with
      | none => .error (.configParse .settingsJson (lib.typeMessage configured))
      | some skills => return skills
  | _ => return skills

def resolveCandidateLlm (env : Environment) (candidate : Json) :
    Except CoreError ResolvedLlmSettings := do
  let llm ← resolvePersistedCandidateLlm lib dir candidate
  let (_, llm, _, envOverrides) := applyProcessEnvironment env {} llm none
  return { llm := llm, envOverrides := envOverrides }

def resolveCandidateProviders (candidate : Json) : Except CoreError (List LlmProvider) :=
  resolvePersistedCandidateProviders lib dir candidate

def resolveCandidateMaxIterations (candidate : Json) : Except CoreError ℕ := do
  let config ← readConfigToml lib dir
  let maxIterations ←
    match config with
    | none => pure defaultMaxIterations
    | some file => file.applyMaxIterations .configToml defaultMaxIterations
  let file ← decodeCandidate lib candidate
  file.applyMaxIterations .settingsJson maxIterations

def resolveCandidateThinking (candidate : Json) : Except CoreError ThinkingSettings := do
  let config ← readConfigToml lib dir
  let thinking : ThinkingSettings :=
    match config with
    | none => {}
    | some file => file.applyThinking {}
  let file ← decodeCandidate lib candidate
  return file.applyThinking thinking

/-- `settings.json` as JSON, an empty object where there is no file. -/
def readSettingsJson (dir : DataDir) : Except CoreError Json :=
  match dir.settingsJson with
  | .absent => .ok (.object [])
  | .unreadable message => .error (.io message)
  | .malformed message => .error (.configParse .settingsJson message)
  | .json candidate => .ok candidate

def reloadPersistedProviders : Except CoreError (List LlmProvider) := do
  resolvePersistedCandidateProviders lib dir (← readSettingsJson dir)

def reloadPersistedLlm : Except CoreError LlmSettings := do
  resolvePersistedCandidateLlm lib dir (← readSettingsJson dir)

def reloadPersistedA2aAgents : Except CoreError (List A2aAgentConfig) := do
  resolvePersistedCandidateA2aAgents lib dir (← readSettingsJson dir)

def reloadPersistedMcpServers : Except CoreError (List McpServerConfig) := do
  resolvePersistedCandidateMcpServers lib dir (← readSettingsJson dir)

def reloadPersistedSkills : Except CoreError SkillSettings := do
  resolvePersistedCandidateSkills lib dir (← readSettingsJson dir)

/-- The variables of the loader that the environment does not touch afterwards. -/
structure LoadState where
  maxIterations : ℕ := defaultMaxIterations
  thinking : ThinkingSettings := {}
  layers : Layers := {}
  memory : MemorySettings := {}
  log : LogSettings := {}
  apiKeys : List (Text × Text) := []

/-- One file of the loader, on top of what is loaded. -/
def FileSettings.load (file : FileSettings) (path : ConfigPath) (state : LoadState) :
    Except CoreError LoadState := do
  let maxIterations ← file.applyMaxIterations path state.maxIterations
  return {
    maxIterations := maxIterations
    thinking := file.applyThinking state.thinking
    layers := file.applyTo lib state.layers
    memory := file.memory.getD state.memory
    log := file.log.getD state.log
    apiKeys := file.apiKeys.getD state.apiKeys }

/-- `settings.json` as the loader reads it, straight into the file settings. -/
def readSettingsFile : Except CoreError (Option FileSettings) :=
  match dir.settingsJson with
  | .absent => .ok none
  | .unreadable message => .error (.io message)
  | .malformed message => .error (.configParse .settingsJson message)
  | .json value => (decodeCandidate lib value).map some

/-- The loader behind its two files: the provider list, the environment, the last check. -/
def settleLoad (env : Environment) (state : LoadState) : Except CoreError Settings := do
  let layers := state.layers
  let providers :=
    if layers.providers.isEmpty then providersFromLegacyLlm layers.llm else layers.providers
  let llm := resolveEffectiveLlm providers layers.llm
  let (server, llm, logLevel, overrides) :=
    applyProcessEnvironment env layers.server llm layers.logLevel
  checkMcpServers lib layers.mcpServers
  return {
    dataDir := dir.path
    dataDirIsDefault := dir.isDefault
    maxIterations := state.maxIterations
    thinking := state.thinking
    server := server
    llm := llm
    providers := providers
    llmEnvOverrides := overrides
    logLevel := logLevel
    mcpServers := layers.mcpServers
    a2aAgents := layers.a2aAgents
    memory := state.memory
    log := state.log
    apiKeys := state.apiKeys }

/-- A file that is not there loads nothing. -/
def loadFile (path : ConfigPath) (file : Option FileSettings) (state : LoadState) :
    Except CoreError LoadState :=
  match file with
  | none => .ok state
  | some file => file.load lib path state

/-- `Settings::load_from_data_dir`. -/
def loadFromDataDir (env : Environment) : Except CoreError Settings := do
  let config ← readConfigToml lib dir
  let state ← loadFile lib .configToml config {}
  let settings ← readSettingsFile lib dir
  let state ← loadFile lib .settingsJson settings state
  settleLoad lib dir env state

end
end DeepseekScience.Core
