import DeepseekScience.Api.SettingsForm
import DeepseekScience.Core.HotApply

/-! `save_settings` and `get_settings`: the root object of `settings.json` is patched in place, the
runtime that follows is resolved from it, and both are put in force together. -/
namespace DeepseekScience.Api.SettingsEndpoints

open DeepseekScience.Core DeepseekScience.A2a

structure LlmRuntimeSnapshot where
  settings : LlmSettings
  thinking : ThinkingSettings
  revision : ℕ
  envOverrides : LlmEnvOverrides

def LlmRuntimeSnapshot.overriddenFields (llm : LlmRuntimeSnapshot) : List Text :=
  (if llm.envOverrides.baseUrl then ["base_url".toList] else []) ++
    (if llm.envOverrides.model then ["model".toList] else []) ++
      if llm.envOverrides.apiKey then ["api_key".toList] else []

structure AppRuntimeSnapshot where
  revision : ℕ
  llm : LlmRuntimeSnapshot
  a2a : A2aRuntimeSnapshot
  apiKeys : List (Text × Text)
  maxIterations : ℕ

/-- The data directory, the limits of the log at start-up, and the runtime in force. -/
structure AppState where
  dir : DataDir
  log : LogSettings
  runtime : AppRuntimeSnapshot

/-- The packages behind the endpoints. -/
structure ServerLib extends SettingsLib where
  digestPrefix : Text → Text

def ServerLib.agents (lib : ServerLib) : A2aLib where
  parseUrl := lib.parseUrl
  toLowercase := lib.toLowercase
  digestPrefix := lib.digestPrefix

/-- What one request meets: fresh ids, the file system, the cards and servers of others. -/
structure Surroundings where
  freshId : ℕ → Text
  ensureDirectory : Except Text Unit
  writeFile : Except Text Unit
  refreshCard : A2aAgentConfig → Option CardSnapshot → Except A2aError CardSnapshot
  serverInfo : Text → Option (Bool × ℕ)

section
/-! What is shown of the settings. -/

def maskCredential (value : Option Text) : Text :=
  if value.any fun t => !t.isEmpty then mask else []

def publicProvider (provider : LlmProvider) : ProviderSettings where
  id := provider.id
  name := provider.name
  baseUrl := provider.baseUrl
  model := some provider.model
  apiKeyMasked := maskCredential provider.apiKey
  enabled := provider.enabled

def bindingLabel : ProtocolBinding → Text
  | .jsonRpc => "JSONRPC".toList
  | .httpJson => "HTTP+JSON".toList

def statusLabel : AgentRuntimeStatus → Text
  | .unchecked => "unchecked".toList
  | .ready => "ready".toList
  | .offline => "unreachable".toList
  | .invalid => "invalid".toList
  | .unsupported => "unsupported".toList
  | .disabled => "disabled".toList

def publicCard (card : CardSnapshot) : A2aCardSettings where
  name := card.summary.name
  description := card.summary.description
  version := card.summary.agentVersion
  protocolVersion := card.summary.protocolVersion.wire
  skills := card.summary.skills.map fun skill =>
    if skill.description.isEmpty then skill.name
    else skill.name ++ " — ".toList ++ skill.description
  supportedInterfaces :=
    [{ url := card.selectedInterface.url
       protocolBinding := bindingLabel card.selectedInterface.binding
       protocolVersion := card.selectedInterface.protocolVersion.wire }]

def publicAgent (lib : A2aLib) (agent : AgentRuntime) : A2aAgentSettings where
  id := agent.config.id
  name := agent.config.name
  endpoint := agent.config.endpoint
  enabled := agent.config.enabled
  timeoutSeconds := agent.config.timeoutSeconds
  bearerTokenMasked := maskCredential agent.config.bearerToken
  status := statusLabel agent.status
  lastError := agent.lastError
  lastRefreshedAt := agent.lastRefreshedAt
  toolName := stableToolName lib agent.config.id
  cardSummary := agent.card.map publicCard

def publicServer (server : McpServerConfig) : McpServerSettings where
  name := server.name
  url := server.url
  enabled := server.enabled

/-- `Path::join`, for a name below a directory. -/
def joinPath (directory name : Text) : Text :=
  if directory.isEmpty then name
  else if directory.getLast? = some '/' then directory ++ name
  else directory ++ '/' :: name

variable (lib : ServerLib)

def publicSettings (state : AppState) (providers : List LlmProvider) (llm : LlmSettings)
    (skills : SkillSettings) (servers : List McpServerConfig) : AppSettingsPayload where
  providers := providers.map publicProvider
  model := ((providers.find? (·.enabled)).map (·.model)).getD llm.model
  defaultWorkspace := joinPath state.dir.path "workspaces".toList
  maxIterations := some state.runtime.maxIterations
  thinking := some state.runtime.llm.thinking
  restartRequired := false
  revision := state.runtime.revision
  overriddenFields := state.runtime.llm.overriddenFields
  a2aAgents := state.runtime.a2a.agents.map (publicAgent lib.agents)
  skills := skills
  mcpServers := some (servers.map publicServer)
  apiKeysMasked := state.runtime.apiKeys.map fun e => (e.1, maskCredential (some e.2))
  apiKeys := none
  logRetentionDays := .ofNat state.log.retentionDays
  logMaxRows := .ofNat state.log.maxRows

/-- The live connections, over the list of the file. -/
def enrichServers (surroundings : Surroundings) (payload : AppSettingsPayload) :
    AppSettingsPayload :=
  { payload with
    mcpServers := payload.mcpServers.map fun servers => servers.map fun server =>
      match surroundings.serverInfo server.name with
      | some (connected, tools) => { server with connected := connected, toolCount := some tools }
      | none => { server with connected := false, toolCount := none } }

/-- What is asked for is read from the file again; a file that does not read is answered with
status 500. -/
def getSettings (surroundings : Surroundings) (state : AppState) :
    Except CoreError AppSettingsPayload := do
  let providers ← reloadPersistedProviders lib.toSettingsLib state.dir
  let llm ← reloadPersistedLlm lib.toSettingsLib state.dir
  let skills ← reloadPersistedSkills lib.toSettingsLib state.dir
  let servers ← reloadPersistedMcpServers lib.toSettingsLib state.dir
  return enrichServers surroundings (publicSettings lib state providers llm skills servers)

end

section
/-! The new root object. -/

/-- `settings.json` as an object: whatever else it is counts as an empty one. -/
def readRoot (dir : DataDir) : Except SettingsError (List (Text × Json)) :=
  match dir.settingsJson with
  | .absent => .ok []
  | .unreadable message => .error (.io message)
  | .malformed message => .error (.invalidFile message)
  | .json (.object members) => .ok members
  | .json _ => .ok []

/-- A field that is given replaces the one of the file. -/
def insertGiven (key : Text) (value : Option Json) (members : List (Text × Json)) :
    List (Text × Json) :=
  match value with
  | none => members
  | some value => insertEntry key value members

/-- `Map::remove`. -/
def removeEntry {α : Type} (key : Text) (members : List (Text × α)) : List (Text × α) :=
  members.filter fun m => !(m.1 == key)

/-- The legacy object keeps its members, the key included, where the provider has none. -/
def patchLlm (old : Option Json) (selected : LlmProvider) : List (Text × Json) :=
  let members :=
    match old with
    | some (.object members) => members
    | _ => []
  insertGiven "api_key".toList (selected.apiKey.map .string)
    (insertEntry "model".toList (.string selected.model)
      (insertEntry "base_url".toList (.string selected.baseUrl) members))

/-- What a save writes, the parts of the form in the shape in which they are kept. -/
structure SavedParts where
  maxIterations : Option ℕ
  thinking : Option ThinkingSettings
  selected : LlmProvider
  providers : List LlmProvider
  a2aAgents : List A2aAgentConfig
  skills : SkillSettings
  mcpServers : Option (List McpServerConfig)
  apiKeys : List (Text × Text)
  log : LogSettings

def patchRoot (members : List (Text × Json)) (parts : SavedParts) : List (Text × Json) :=
  let members := insertGiven "max_iterations".toList (parts.maxIterations.map numberJson) members
  let members := insertGiven "thinking".toList (parts.thinking.map encodeThinking) members
  let llm := patchLlm (members.lookup "llm".toList) parts.selected
  let members := insertEntry "llm".toList (.object llm) (removeEntry "llm".toList members)
  let members :=
    insertEntry "providers".toList (.array (parts.providers.map encodeProvider)) members
  let members :=
    insertEntry "a2a_agents".toList (.array (parts.a2aAgents.map encodeA2aAgent)) members
  let members := insertEntry "skills".toList (encodeSkills parts.skills) members
  let members := insertGiven "mcp_servers".toList
    (parts.mcpServers.map fun servers => .array (servers.map encodeMcpServer)) members
  let members := insertEntry "api_keys".toList (encodeTextMap parts.apiKeys) members
  insertEntry "log".toList (encodeLog parts.log) members

end

section
/-! A save. -/

variable (lib : ServerLib) (env : Environment)

/-- A result of `dss_core`, with its errors as refusals. -/
def ofCore {α : Type} : Except CoreError α → Except SettingsError α
  | .ok a => .ok a
  | .error error => .error (.core error)

/-- The parts of a form that passes, next to what the file already has. -/
def formParts (surroundings : Surroundings) (state : AppState) (form : AppSettingsPayload)
    (members : List (Text × Json)) : Except SettingsError SavedParts := do
  let storedAgents ← ofCore
    (resolvePersistedCandidateA2aAgents lib.toSettingsLib state.dir (.object members))
  let a2aAgents ← agentConfigs lib.agents storedAgents form.a2aAgents
  let mcpServers ← serverConfigs lib.toSettingsLib form.mcpServers
  let stored ← ofCore
    (resolvePersistedCandidateProviders lib.toSettingsLib state.dir (.object members))
  let providers ←
    providerConfigs lib.toSettingsLib form.model stored surroundings.freshId form.providers
  match providers.find? (·.enabled) with
  | none => .error (.enabledCount 0)
  | some selected =>
    if form.logRetentionDays = 0 then .error .retentionDays
    else if form.logMaxRows < 1000 then .error .maxRows
    else
      return {
        maxIterations := form.maxIterations
        thinking := form.thinking
        selected := selected
        providers := providers
        a2aAgents := a2aAgents
        skills := skillConfig form.skills
        mcpServers := mcpServers
        apiKeys := mergeApiKeys state.runtime.apiKeys form.apiKeys
        log :=
          { retentionDays := form.logRetentionDays.toNat
            maxRows := form.logMaxRows.toNat } }

/-- The runtime that a restart would load, and what else the answer shows of the new file. -/
structure Candidate where
  runtime : AppRuntimeSnapshot
  providers : List LlmProvider
  llm : LlmSettings
  skills : SkillSettings
  mcpServers : List McpServerConfig

def resolveCandidate (surroundings : Surroundings) (state : AppState) (root : Json)
    (apiKeys : List (Text × Text)) : Except SettingsError Candidate := do
  let revision := state.runtime.revision + 1
  if 2 ^ 64 ≤ revision then .error .revisionOverflow
  else
    let providers ← ofCore (resolveCandidateProviders lib.toSettingsLib state.dir root)
    let persisted ← ofCore (resolvePersistedCandidateLlm lib.toSettingsLib state.dir root)
    let resolved ← ofCore (resolveCandidateLlm lib.toSettingsLib state.dir env root)
    let agents ← ofCore (resolvePersistedCandidateA2aAgents lib.toSettingsLib state.dir root)
    let skills ← ofCore (resolvePersistedCandidateSkills lib.toSettingsLib state.dir root)
    let thinking ← ofCore (resolveCandidateThinking lib.toSettingsLib state.dir root)
    let maxIterations ← ofCore (resolveCandidateMaxIterations lib.toSettingsLib state.dir root)
    let servers ← ofCore (resolvePersistedCandidateMcpServers lib.toSettingsLib state.dir root)
    match A2aRuntimeSnapshot.unrefreshed lib.agents revision agents with
    | .error error => .error (.agents error)
    | .ok unrefreshed =>
      return {
        runtime :=
          { revision := revision
            llm :=
              { settings := resolved.llm
                thinking := thinking
                revision := revision
                envOverrides := resolved.envOverrides }
            a2a := unrefreshed.refreshAll surroundings.refreshCard
            apiKeys := apiKeys
            maxIterations := maxIterations }
        providers := providers
        llm := persisted
        skills := skills
        mcpServers := servers }

/-- Everything of a save that can be refused: the new root, and the runtime that goes with it. -/
def prepareSave (surroundings : Surroundings) (state : AppState) (form : AppSettingsPayload) :
    Except SettingsError (Json × Candidate) := do
  checkForm lib.toSettingsLib form
  if form.revision ≠ state.runtime.revision then .error .stale
  else
    match surroundings.ensureDirectory with
    | .error message => .error (.io message)
    | .ok () =>
      let members ← readRoot state.dir
      let parts ← formParts lib surroundings state form members
      let root := Json.object (patchRoot members parts)
      let candidate ← resolveCandidate lib env surroundings state root parts.apiKeys
      return (root, candidate)

/-- The file and the runtime, replaced together. -/
def AppState.commit (state : AppState) (root : Json) (runtime : AppRuntimeSnapshot) : AppState :=
  { state with
    dir := { state.dir with settingsJson := .json root }
    runtime := runtime }

def saveSettings (surroundings : Surroundings) (state : AppState) (form : AppSettingsPayload) :
    Except SettingsError AppSettingsPayload × AppState :=
  match prepareSave lib env surroundings state form with
  | .error error => (.error error, state)
  | .ok (root, candidate) =>
    match surroundings.writeFile with
    | .error message => (.error (.io message), state)
    | .ok () =>
      let next := state.commit root candidate.runtime
      (.ok (enrichServers surroundings (publicSettings lib next candidate.providers candidate.llm
        candidate.skills candidate.mcpServers)), next)

/-- A run that is accepted asks for the cards first, and keeps the configurations. -/
def AppState.refreshAgents (state : AppState)
    (refreshCard : A2aAgentConfig → Option CardSnapshot → Except A2aError CardSnapshot) : AppState :=
  { state with
    runtime := { state.runtime with a2a := state.runtime.a2a.refreshAll refreshCard } }

/-- `initial_a2a_snapshot`. -/
def initialAgent (config : A2aAgentConfig) : AgentRuntime :=
  let invalid :=
    match validateConfig lib.agents config with
    | .error error => some error.text
    | .ok () => none
  { config := config
    status :=
      if !config.enabled then .disabled else if invalid.isSome then .invalid else .unchecked
    lastError := invalid }

/-- `build_state`. -/
def buildState (dir : DataDir) (settings : Settings) : AppState where
  dir := dir
  log := settings.log
  runtime :=
    { revision := 0
      llm :=
        { settings := settings.llm
          thinking := settings.thinking
          revision := 0
          envOverrides := settings.llmEnvOverrides }
      a2a := { revision := 0, agents := settings.a2aAgents.map (initialAgent lib) }
      apiKeys := settings.apiKeys
      maxIterations := settings.maxIterations }

end
end DeepseekScience.Api.SettingsEndpoints
