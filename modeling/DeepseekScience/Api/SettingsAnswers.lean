import DeepseekScience.Api.CredentialRuns

/-! What the answers of the settings endpoints are made of: settings with every credential
replaced by the mask, and refusals that name providers, agents and servers. -/
namespace DeepseekScience.Api.SettingsEndpoints

open DeepseekScience.Core DeepseekScience.A2a Net Transactions

section
/-! Settings. -/

/-- A credential that is there is replaced by the mask. -/
def hideCredential (value : Option Text) : Option Text :=
  value.map fun t => if t.isEmpty then t else mask

def hideProvider (provider : LlmProvider) : LlmProvider :=
  { provider with apiKey := hideCredential provider.apiKey }

def hideLlm (llm : LlmSettings) : LlmSettings := { llm with apiKey := hideCredential llm.apiKey }

def hideAgent (agent : AgentRuntime) : AgentRuntime :=
  { agent with
    config := { agent.config with bearerToken := hideCredential agent.config.bearerToken } }

def hideEntry (entry : Text × Text) : Text × Text :=
  (entry.1, if entry.2.isEmpty then entry.2 else mask)

/-- A state without a credential: the files are gone, and the runtime has masks. -/
def AppState.hidden (state : AppState) : AppState where
  dir :=
    { path := state.dir.path
      isDefault := state.dir.isDefault
      configToml := .absent
      settingsJson := .absent }
  log := state.log
  runtime :=
    { state.runtime with
      llm := { state.runtime.llm with settings := hideLlm state.runtime.llm.settings }
      a2a := { state.runtime.a2a with agents := state.runtime.a2a.agents.map hideAgent }
      apiKeys := state.runtime.apiKeys.map hideEntry }

theorem mask_ne_nil : mask ≠ [] := by decide

@[simp] theorem maskCredential_hide (value : Option Text) :
    maskCredential (hideCredential value) = maskCredential value := by
  cases value with
  | none => rfl
  | some t =>
    by_cases ht : t = []
    · simp [hideCredential, ht]
    · simp [hideCredential, maskCredential, ht, mask_ne_nil]

theorem maskCredential_cases (value : Option Text) :
    maskCredential value = [] ∨ maskCredential value = mask := by
  rw [maskCredential]
  split_ifs
  · exact .inr rfl
  · exact .inl rfl

@[simp] theorem publicProvider_hide (provider : LlmProvider) :
    publicProvider (hideProvider provider) = publicProvider provider := by
  simp [publicProvider, hideProvider]

@[simp] theorem publicAgent_hide (lib : A2aLib) (agent : AgentRuntime) :
    publicAgent lib (hideAgent agent) = publicAgent lib agent := by
  simp [publicAgent, hideAgent]

@[simp] theorem maskEntry_hide (entry : Text × Text) :
    maskCredential (some (hideEntry entry).2) = maskCredential (some entry.2) :=
  maskCredential_hide (some entry.2)

/-- What is shown of settings is what is shown of them with their credentials hidden. -/
theorem publicSettings_hidden (lib : ServerLib) (state : AppState) (providers : List LlmProvider)
    (llm : LlmSettings) (skills : SkillSettings) (servers : List McpServerConfig) :
    publicSettings lib state.hidden (providers.map hideProvider) (hideLlm llm) skills servers =
      publicSettings lib state providers llm skills servers := by
  have hfind : ((providers.map hideProvider).find? (·.enabled)).map (·.model) =
      (providers.find? (·.enabled)).map (·.model) := by
    rw [List.find?_map, Option.map_map]
    rfl
  have hproviders : (providers.map hideProvider).map publicProvider =
      providers.map publicProvider := by simp [Function.comp_def]
  have hagents : state.hidden.runtime.a2a.agents.map (publicAgent lib.agents) =
      state.runtime.a2a.agents.map (publicAgent lib.agents) := by
    simp [AppState.hidden, Function.comp_def]
  have hkeys : (state.hidden.runtime.apiKeys.map fun e => (e.1, maskCredential (some e.2))) =
      state.runtime.apiKeys.map fun e => (e.1, maskCredential (some e.2)) := by
    simp [AppState.hidden, Function.comp_def]
    exact fun _ _ _ => rfl
  rw [publicSettings, publicSettings, hfind, hproviders, hagents, hkeys]
  rfl

/-- The places of a form that may hold a credential are empty, and the masks tell no more than
that there is one. -/
structure Masked (payload : AppSettingsPayload) : Prop where
  providers : ∀ p ∈ payload.providers, p.apiKey = none ∧
    (p.apiKeyMasked = [] ∨ p.apiKeyMasked = mask)
  agents : ∀ agent ∈ payload.a2aAgents, agent.bearerToken = none ∧
    (agent.bearerTokenMasked = [] ∨ agent.bearerTokenMasked = mask)
  apiKeys : payload.apiKeys = none
  apiKeysMasked : ∀ e ∈ payload.apiKeysMasked, e.2 = [] ∨ e.2 = mask

theorem masked_publicSettings (lib : ServerLib) (surroundings : Surroundings) (state : AppState)
    (providers : List LlmProvider) (llm : LlmSettings) (skills : SkillSettings)
    (servers : List McpServerConfig) :
    Masked (enrichServers surroundings
      (publicSettings lib state providers llm skills servers)) := by
  constructor
  · intro p hp
    obtain ⟨provider, -, rfl⟩ := List.mem_map.mp hp
    exact ⟨rfl, maskCredential_cases _⟩
  · intro agent hagent
    obtain ⟨runtime, -, rfl⟩ := List.mem_map.mp hagent
    exact ⟨rfl, maskCredential_cases _⟩
  · rfl
  · intro e he
    obtain ⟨entry, -, rfl⟩ := List.mem_map.mp he
    exact maskCredential_cases _

/-- An answer with settings is made from settings without credentials. -/
def AppSettingsPayload.Discreet (lib : ServerLib) (surroundings : Surroundings) (state : AppState)
    (payload : AppSettingsPayload) : Prop :=
  Masked payload ∧ ∃ (providers : List LlmProvider) (llm : LlmSettings) (skills : SkillSettings)
      (servers : List McpServerConfig),
    payload = enrichServers surroundings (publicSettings lib state.hidden
      (providers.map hideProvider) (hideLlm llm) skills servers)

theorem discreet_publicSettings (lib : ServerLib) (surroundings : Surroundings) (state : AppState)
    (providers : List LlmProvider) (llm : LlmSettings) (skills : SkillSettings)
    (servers : List McpServerConfig) :
    (enrichServers surroundings (publicSettings lib state providers llm skills servers)).Discreet
      lib surroundings state :=
  ⟨masked_publicSettings lib surroundings state providers llm skills servers, providers, llm,
    skills, servers, by rw [publicSettings_hidden]⟩

end

section
/-! Refusals of agents, which do not name a token. -/

variable {lib : A2aLib} {config : A2aAgentConfig} {configs : List A2aAgentConfig} {error : A2aError}

def badTokenRefusal : A2aError :=
  .invalidConfig "Bearer token is empty, too long, or contains a newline".toList

def withoutToken (config : A2aAgentConfig) : A2aAgentConfig := { config with bearerToken := none }

/-- A refusal that does not depend on any token, or is the fixed one for bad tokens. -/
def TokenFree (lib : A2aLib) (error : A2aError) : Prop :=
  error = badTokenRefusal ∨ ∃ configs : List A2aAgentConfig,
    (∀ config ∈ configs, config.bearerToken = none) ∧ validateConfigs lib configs = .error error

/-- A configuration is checked without its token first. -/
theorem validateConfig_eq (lib : A2aLib) (config : A2aAgentConfig) :
    validateConfig lib config = (do
      validateConfig lib (withoutToken config)
      if config.bearerToken.any tokenIsUnsafe then .error badTokenRefusal else .ok ()) := by
  unfold validateConfig withoutToken
  dsimp only
  rw [if_neg (show ¬ (none : Option Text).any tokenIsUnsafe = true by simp)]
  split_ifs
  all_goals try rfl
  all_goals
    cases validateTimeout config.timeoutSeconds with
    | error error => rfl
    | ok _ => cases validateEndpoint lib config.endpoint <;> rfl

theorem validateConfig_withoutToken (h : validateConfig lib config = .ok ()) :
    validateConfig lib (withoutToken config) = .ok () := by
  rw [validateConfig_eq] at h
  obtain ⟨⟨⟩, hfirst, -⟩ := bind_eq_ok.mp h
  exact hfirst

theorem validateConfig_error (h : validateConfig lib config = .error error) :
    error = badTokenRefusal ∨ validateConfig lib (withoutToken config) = .error error := by
  rw [validateConfig_eq] at h
  obtain hfirst | ⟨⟨⟩, -, htoken⟩ := bind_eq_error.mp h
  · exact .inr hfirst
  · split_ifs at htoken
    exact .inl (Except.error.inj htoken).symm

theorem validateConfigsFrom_error {ids names tools : List Text}
    (h : validateConfigsFrom lib ids names tools configs = .error error) :
    error = badTokenRefusal ∨
      validateConfigsFrom lib ids names tools (configs.map withoutToken) = .error error := by
  induction configs generalizing ids names tools with
  | nil => cases h
  | cons config rest ih =>
    rw [validateConfigsFrom] at h
    rw [List.map_cons, validateConfigsFrom]
    obtain hfirst | ⟨⟨⟩, hfirst, h⟩ := bind_eq_error.mp h
    · obtain hbad | hother := validateConfig_error hfirst
      · exact .inl hbad
      · rw [hother]
        exact .inr rfl
    · rw [validateConfig_withoutToken hfirst]
      show _ ∨ (if ids.contains config.id then _ else
        if names.contains (lib.toLowercase (trim config.name)) then _ else
          if tools.contains (stableToolName lib config.id) then _ else _) = _
      dsimp only at h
      split_ifs at h ⊢
      · exact .inr h
      · exact .inr h
      · exact .inr h
      · exact ih h

theorem tokenFree_of_validateConfigs (h : validateConfigs lib configs = .error error) :
    TokenFree lib error := by
  rw [validateConfigs] at h
  have hnone : ∀ config ∈ configs.map withoutToken, config.bearerToken = none := by
    intro config hconfig
    obtain ⟨_, -, rfl⟩ := List.mem_map.mp hconfig
    rfl
  split_ifs at h with hcount
  · right
    exact ⟨configs.map withoutToken, hnone, by rw [validateConfigs, List.length_map, if_pos hcount, h]⟩
  · obtain hbad | hother := validateConfigsFrom_error h
    · exact .inl hbad
    · right
      exact ⟨configs.map withoutToken, hnone,
        by rw [validateConfigs, List.length_map, if_neg hcount, hother]⟩

end

section
/-! Refusals of saves. -/

/-- What an error of the settings names: servers, and sections of the files on skills. -/
def CoreDiscreet (lib : SettingsLib) (dir : DataDir) (error : CoreError) : Prop :=
  (∃ servers, checkMcpServers lib servers = .error error) ∨
    (∃ text message, dir.configToml = .content text ∧
      lib.parseTomlSkills text = .error message ∧ error = .configParse .configToml message) ∨
    ∃ root configured, dir.settingsJson = .json root ∧
      root.get? "skills".toList = some configured ∧
      error = .configParse .settingsJson (lib.typeMessage configured)

/-- A refusal names what the form names, and says what the surroundings say. -/
def SettingsError.Discreet (lib : ServerLib) (dir : DataDir) (surroundings : Surroundings)
    (form : AppSettingsPayload) : SettingsError → Prop
  | .maxIterations message => ∃ n, validateMaxIterations n = .error message
  | .duplicateProviderName name => ∃ p ∈ form.providers, name = trim p.name
  | .providerScheme name => ∃ p ∈ form.providers, name = trim p.name
  | .providerCredentials name => ∃ p ∈ form.providers, name = trim p.name
  | .providerPlaintext name => ∃ p ∈ form.providers, name = trim p.name
  | .providerModel name => ∃ p ∈ form.providers, name = trim p.name
  | .io message =>
    surroundings.ensureDirectory = .error message ∨ surroundings.writeFile = .error message
  | .invalidFile _ => False
  | .agents error => TokenFree lib.agents error
  | .serverScheme name => ∃ server ∈ form.mcpServers.getD [], name = trim server.name
  | .duplicateServerName name => ∃ server ∈ form.mcpServers.getD [], name = trim server.name
  | .duplicateProviderId id =>
    (∃ p ∈ form.providers, id = trim p.id) ∨ ∃ i, id = surroundings.freshId i
  | .core error => CoreDiscreet lib.toSettingsLib dir error
  | _ => True

variable {lib : ServerLib} {env : Environment} {surroundings : Surroundings} {state : AppState}
  {form : AppSettingsPayload} {members : List (Text × Json)} {error : SettingsError}

theorem discreet_of_checkProvidersFrom {model : Text} {seen : List Text}
    {providers : List ProviderSettings} (hsub : providers ⊆ form.providers)
    (h : checkProvidersFrom lib.toSettingsLib model seen providers = .error error) :
    error.Discreet lib state.dir surroundings form := by
  induction providers generalizing seen with
  | nil => cases h
  | cons provider rest ih =>
    have hnamed : ∃ p ∈ form.providers, trim provider.name = trim p.name :=
      ⟨provider, hsub List.mem_cons_self, rfl⟩
    rw [checkProvidersFrom] at h
    split at h
    · cases h
      trivial
    split at h
    · cases h
      exact hnamed
    split at h
    · cases h
      exact hnamed
    split at h
    · cases h
      exact hnamed
    split at h
    · cases h
      exact hnamed
    split at h
    · cases h
      exact hnamed
    · exact ih (fun p hp => hsub (List.mem_cons_of_mem _ hp)) h

theorem discreet_of_checkForm (h : checkForm lib.toSettingsLib form = .error error) :
    error.Discreet lib state.dir surroundings form := by
  obtain hmax | ⟨⟨⟩, -, h⟩ := bind_eq_error.mp h
  · cases hgiven : form.maxIterations with
    | none =>
      rw [hgiven] at hmax
      cases hmax
    | some n =>
      rw [hgiven, checkMaxIterations] at hmax
      cases hvalid : validateMaxIterations n with
      | ok _ =>
        rw [hvalid] at hmax
        cases hmax
      | error message =>
        rw [hvalid] at hmax
        cases hmax
        exact ⟨n, hvalid⟩
  · dsimp only at h
    split_ifs at h
    · cases h
      trivial
    · cases h
      trivial
    · exact discreet_of_checkProvidersFrom (List.Subset.refl _) h

theorem discreet_of_agentConfigs {stored : List A2aAgentConfig} {submitted : List A2aAgentSettings}
    (h : agentConfigs lib.agents stored submitted = .error error) :
    error.Discreet lib state.dir surroundings form := by
  rw [agentConfigs] at h
  split_ifs at h
  · cases h
    trivial
  · dsimp only at h
    cases hvalid : validateConfigs lib.agents (submitted.map (agentConfig stored)) with
    | ok _ =>
      rw [hvalid] at h
      cases h
    | error refusal =>
      rw [hvalid] at h
      cases h
      exact tokenFree_of_validateConfigs hvalid

theorem discreet_of_checkServersFrom {seen : List Text} {servers : List McpServerConfig}
    (hnamed : ∀ server ∈ servers, ∃ submitted ∈ form.mcpServers.getD [],
      server.name = trim submitted.name)
    (h : checkServersFrom lib.toSettingsLib seen servers = .error error) :
    error.Discreet lib state.dir surroundings form := by
  induction servers generalizing seen with
  | nil => cases h
  | cons server rest ih =>
    rw [checkServersFrom] at h
    split_ifs at h
    · cases h
      trivial
    · cases h
      exact hnamed server List.mem_cons_self
    · cases h
      exact hnamed server List.mem_cons_self
    · exact ih (fun other hother => hnamed other (List.mem_cons_of_mem _ hother)) h

theorem discreet_of_serverConfigs
    (h : serverConfigs lib.toSettingsLib form.mcpServers = .error error) :
    error.Discreet lib state.dir surroundings form := by
  cases hservers : form.mcpServers with
  | none =>
    rw [hservers] at h
    cases h
  | some submitted =>
    rw [hservers] at h
    obtain h | ⟨⟨⟩, -, h⟩ := bind_eq_error.mp h
    · refine discreet_of_checkServersFrom ?_ h
      intro server hserver
      obtain ⟨given, hgiven, rfl⟩ := List.mem_map.mp hserver
      exact ⟨given, by rwa [hservers], rfl⟩
    · cases h

theorem discreet_of_checkProviderIds {seen : List Text} {providers : List LlmProvider}
    (hnamed : ∀ p ∈ providers, (∃ given ∈ form.providers, p.id = trim given.id) ∨
      ∃ i, p.id = surroundings.freshId i)
    (h : checkProviderIds seen providers = .error error) :
    error.Discreet lib state.dir surroundings form := by
  induction providers generalizing seen with
  | nil => cases h
  | cons provider rest ih =>
    rw [checkProviderIds] at h
    split_ifs at h
    · cases h
      exact hnamed provider List.mem_cons_self
    · exact ih (fun p hp => hnamed p (List.mem_cons_of_mem _ hp)) h

theorem discreet_of_providerConfigs {stored : List LlmProvider}
    (h : providerConfigs lib.toSettingsLib form.model stored surroundings.freshId form.providers =
      .error error) : error.Discreet lib state.dir surroundings form := by
  obtain h | ⟨⟨⟩, -, h⟩ := bind_eq_error.mp h
  · refine discreet_of_checkProviderIds ?_ h
    intro p hp
    obtain ⟨i, hi, rfl⟩ := List.mem_mapIdx.mp hp
    simp only [providerConfig]
    split_ifs
    · exact .inr ⟨i, rfl⟩
    · exact .inl ⟨_, List.getElem_mem hi, rfl⟩
  · cases h

theorem ofCore_eq_error {α : Type} {x : Except CoreError α} :
    ofCore x = .error error ↔ ∃ refusal, x = .error refusal ∧ error = .core refusal := by
  cases x with
  | error refusal => simp [ofCore, eq_comm]
  | ok a => simp [ofCore]

theorem ofCore_ok_ne_error {α : Type} {x : Except CoreError α} {a : α} (hx : x = .ok a) :
    ofCore x ≠ .error error := by
  rw [hx]
  exact fun h => by cases h

theorem discreet_of_formParts {config : Option FileSettings} {base : FileSettings}
    (hconfig : readConfigToml lib.toSettingsLib state.dir = .ok config)
    (hbase : decodeFileSettings (.object members) = some base)
    (h : formParts lib surroundings state form members = .error error) :
    error.Discreet lib state.dir surroundings form := by
  rw [formParts] at h
  obtain h | ⟨storedAgents, -, h⟩ := bind_eq_error.mp h
  · exact absurd h (ofCore_ok_ne_error (resolvePersistedCandidateA2aAgents_ok hconfig hbase))
  obtain h | ⟨a2aAgents, -, h⟩ := bind_eq_error.mp h
  · exact discreet_of_agentConfigs h
  obtain h | ⟨servers, -, h⟩ := bind_eq_error.mp h
  · exact discreet_of_serverConfigs h
  obtain h | ⟨stored, -, h⟩ := bind_eq_error.mp h
  · exact absurd h (ofCore_ok_ne_error (resolveCandidateProviders_ok hconfig hbase))
  obtain h | ⟨providers, -, h⟩ := bind_eq_error.mp h
  · exact discreet_of_providerConfigs h
  cases hselected : providers.find? (·.enabled) with
  | none =>
    rw [hselected] at h
    cases h
    trivial
  | some selected =>
    rw [hselected] at h
    dsimp only at h
    split_ifs at h
    · cases h
      trivial
    · cases h
      trivial
    · cases h

/-- The skills of a candidate, over those of `config.toml`. -/
def skillsSection (lib : SettingsLib) (first : SkillSettings) (candidate : Json) :
    Except CoreError SkillSettings :=
  match candidate with
  | .object members =>
    match members.lookup "skills".toList with
    | none => .ok first
    | some configured =>
      match decodeSkillSettings configured with
      | none => .error (.configParse .settingsJson (lib.typeMessage configured))
      | some skills => .ok skills
  | _ => .ok first

theorem skillsSection_error {lib : SettingsLib} {first : SkillSettings} {candidate : Json}
    {refusal : CoreError} (h : skillsSection lib first candidate = .error refusal) :
    ∃ configured, candidate.get? "skills".toList = some configured ∧
      decodeSkillSettings configured = none ∧
      refusal = .configParse .settingsJson (lib.typeMessage configured) := by
  cases candidate with
  | object members =>
    rw [skillsSection] at h
    cases hget : members.lookup "skills".toList with
    | none =>
      rw [hget] at h
      cases h
    | some configured =>
      rw [hget] at h
      cases hdecode : decodeSkillSettings configured with
      | none =>
        simp only [hdecode] at h
        cases h
        exact ⟨configured, hget, hdecode, rfl⟩
      | some skills =>
        simp only [hdecode] at h
        cases h
  | _ => cases h

/-- What reading the skills may fail with, and the section that it fails over. -/
theorem skills_error {dir : DataDir} {config : Option FileSettings} {candidate : Json}
    {refusal : CoreError} (hconfig : readConfigToml lib.toSettingsLib dir = .ok config)
    (h : resolvePersistedCandidateSkills lib.toSettingsLib dir candidate = .error refusal) :
    (∃ text message, dir.configToml = .content text ∧
      lib.parseTomlSkills text = .error message ∧ refusal = .configParse .configToml message) ∨
    ∃ configured, candidate.get? "skills".toList = some configured ∧
      decodeSkillSettings configured = none ∧
      refusal = .configParse .settingsJson (lib.typeMessage configured) := by
  rw [resolvePersistedCandidateSkills] at h
  cases htoml : dir.configToml with
  | absent =>
    rw [htoml] at h
    exact .inr (skillsSection_error h)
  | unreadable message =>
    rw [readConfigToml, htoml] at hconfig
    cases hconfig
  | content text =>
    cases hskills : lib.parseTomlSkills text with
    | error message =>
      simp only [htoml, hskills] at h
      cases h
      exact .inl ⟨text, message, rfl, hskills, rfl⟩
    | ok configured =>
      simp only [htoml, hskills] at h
      exact .inr (skillsSection_error h)

theorem servers_error {dir : DataDir} {config : Option FileSettings} {candidate : Json}
    {file : FileSettings} {refusal : CoreError}
    (hconfig : readConfigToml lib.toSettingsLib dir = .ok config)
    (hfile : decodeFileSettings candidate = some file)
    (h : resolvePersistedCandidateMcpServers lib.toSettingsLib dir candidate = .error refusal) :
    ∃ servers, checkMcpServers lib.toSettingsLib servers = .error refusal := by
  rw [resolvePersistedCandidateMcpServers, candidateLayers_ok hconfig hfile] at h
  obtain h | ⟨layers, hlayers, h⟩ := bind_eq_error.mp h
  · cases h
  · obtain h | ⟨⟨⟩, -, h⟩ := bind_eq_error.mp h
    · exact ⟨_, h⟩
    · cases h

theorem resolvePersistedCandidateLlm_ok {dir : DataDir} {config : Option FileSettings}
    {candidate : Json} {file : FileSettings}
    (hconfig : readConfigToml lib.toSettingsLib dir = .ok config)
    (hfile : decodeFileSettings candidate = some file) :
    resolvePersistedCandidateLlm lib.toSettingsLib dir candidate =
      .ok (resolveEffectiveLlm (effectiveProviders (stackLayers lib.toSettingsLib config file))
        {}) := by
  rw [resolvePersistedCandidateLlm, resolvePersistedCandidateProviders,
    candidateLayers_ok hconfig hfile]
  rfl

theorem discreet_of_resolveCandidate {root : Json} {apiKeys : List (Text × Text)}
    {config : Option FileSettings} {next : FileSettings} {skills : SkillSettings}
    (hconfig : readConfigToml lib.toSettingsLib state.dir = .ok config)
    (hnext : decodeFileSettings root = some next) (hrange : BudgetsInRange config next)
    (hskills : root.get? "skills".toList = some (encodeSkills skills))
    (h : resolveCandidate lib env surroundings state root apiKeys = .error error) :
    error.Discreet lib state.dir surroundings form := by
  rw [resolveCandidate] at h
  split_ifs at h
  · cases h
    trivial
  obtain h | ⟨providers, -, h⟩ := bind_eq_error.mp h
  · exact absurd h (ofCore_ok_ne_error (resolveCandidateProviders_ok hconfig hnext))
  obtain h | ⟨persisted, -, h⟩ := bind_eq_error.mp h
  · exact absurd h (ofCore_ok_ne_error (resolvePersistedCandidateLlm_ok hconfig hnext))
  obtain h | ⟨resolved, -, h⟩ := bind_eq_error.mp h
  · exact absurd h (ofCore_ok_ne_error (resolveCandidateLlm_ok hconfig hnext))
  obtain h | ⟨agents, -, h⟩ := bind_eq_error.mp h
  · exact absurd h (ofCore_ok_ne_error (resolvePersistedCandidateA2aAgents_ok hconfig hnext))
  obtain h | ⟨skills, -, h⟩ := bind_eq_error.mp h
  · obtain ⟨refusal, hrefusal, rfl⟩ := ofCore_eq_error.mp h
    obtain htoml | ⟨configured, hget, hnone, -⟩ := skills_error hconfig hrefusal
    · exact .inr (.inl htoml)
    · rw [hskills] at hget
      obtain rfl := Option.some.inj hget
      rw [decode_encodeSkills] at hnone
      cases hnone
  obtain h | ⟨thinking, -, h⟩ := bind_eq_error.mp h
  · exact absurd h (ofCore_ok_ne_error (resolveCandidateThinking_ok hconfig hnext))
  obtain h | ⟨maxIterations, -, h⟩ := bind_eq_error.mp h
  · exact absurd h (ofCore_ok_ne_error (resolveCandidateMaxIterations_ok hconfig hnext hrange))
  obtain h | ⟨servers, -, h⟩ := bind_eq_error.mp h
  · obtain ⟨refusal, hrefusal, rfl⟩ := ofCore_eq_error.mp h
    exact .inl (servers_error hconfig hnext hrefusal)
  cases hunrefreshed : A2aRuntimeSnapshot.unrefreshed lib.agents (state.runtime.revision + 1)
      agents with
  | error refusal =>
    rw [hunrefreshed] at h
    cases h
    obtain hvalid | ⟨⟨⟩, -, hnone⟩ := bind_eq_error.mp hunrefreshed
    · exact tokenFree_of_validateConfigs hvalid
    · cases hnone
  | ok unrefreshed =>
    rw [hunrefreshed] at h
    cases h

end
end DeepseekScience.Api.SettingsEndpoints
