import DeepseekScience.Core.Layers
import DeepseekScience.Lib.Transaction

/-! Settings applied to the running process against settings loaded by the next one. The
resolvers of a candidate and the loader stack the same layers; they part where a provider
list has no enabled entry, which only the loader answers from the legacy `llm` object. -/
namespace DeepseekScience.Core

open Transactions Net

variable (lib : SettingsLib)

/-- The layers that a configuration file and a candidate make. -/
def stackLayers (config : Option FileSettings) (file : FileSettings) : Layers :=
  file.applyTo lib (match config with
    | none => {}
    | some lower => lower.applyTo lib {})

/-- The iteration budgets in the two files, where there are any, are in range. -/
def BudgetsInRange (config : Option FileSettings) (file : FileSettings) : Prop :=
  (∀ lower value, config = some lower → lower.maxIterations = some value →
    validateMaxIterations value = .ok ()) ∧
  (∀ value, file.maxIterations = some value → validateMaxIterations value = .ok ())

def stackMaxIterations (config : Option FileSettings) (file : FileSettings) : ℕ :=
  (file.maxIterations.or (config.bind (·.maxIterations))).getD defaultMaxIterations

def stackThinking (config : Option FileSettings) (file : FileSettings) : ThinkingSettings :=
  file.applyThinking (match config with
    | none => {}
    | some lower => lower.applyThinking {})

def effectiveProviders (layers : Layers) : List LlmProvider :=
  if layers.providers.isEmpty then providersFromLegacyLlm layers.llm else layers.providers

/-- Both ways agree, and both fail together. -/
structure HotEqualsRestart (dir : DataDir) (env : Environment) (candidate : Json) : Prop where
  hot_of_load : ∀ settings, loadFromDataDir lib dir env = .ok settings →
    resolveCandidateLlm lib dir env candidate =
        .ok { llm := settings.llm, envOverrides := settings.llmEnvOverrides } ∧
      resolveCandidateProviders lib dir candidate = .ok settings.providers ∧
      resolveCandidateMaxIterations lib dir candidate = .ok settings.maxIterations ∧
      resolveCandidateThinking lib dir candidate = .ok settings.thinking ∧
      resolvePersistedCandidateMcpServers lib dir candidate = .ok settings.mcpServers ∧
      resolvePersistedCandidateA2aAgents lib dir candidate = .ok settings.a2aAgents
  load_of_hot : ∀ llm providers maxIterations thinking mcpServers a2aAgents,
    resolveCandidateLlm lib dir env candidate = .ok llm →
    resolveCandidateProviders lib dir candidate = .ok providers →
    resolveCandidateMaxIterations lib dir candidate = .ok maxIterations →
    resolveCandidateThinking lib dir candidate = .ok thinking →
    resolvePersistedCandidateMcpServers lib dir candidate = .ok mcpServers →
    resolvePersistedCandidateA2aAgents lib dir candidate = .ok a2aAgents →
    ∃ settings, loadFromDataDir lib dir env = .ok settings

variable {lib}

section
variable {dir : DataDir} {candidate : Json} {config : Option FileSettings} {file : FileSettings}

theorem candidateLayers_ok (hconfig : readConfigToml lib dir = .ok config)
    (hfile : decodeFileSettings candidate = some file) :
    candidateLayers lib dir candidate = .ok (stackLayers lib config file) := by
  simp only [candidateLayers, decodeCandidate, hconfig, hfile]
  rfl

theorem candidateLayers_inv {layers : Layers} (h : candidateLayers lib dir candidate = .ok layers) :
    ∃ config file, readConfigToml lib dir = .ok config ∧
      decodeFileSettings candidate = some file := by
  cases hconfig : readConfigToml lib dir with
  | error e =>
    rw [candidateLayers, hconfig] at h
    cases h
  | ok config =>
    cases hfile : decodeFileSettings candidate with
    | none =>
      simp only [candidateLayers, decodeCandidate, hconfig, hfile] at h
      cases h
    | some file => exact ⟨config, file, rfl, rfl⟩

theorem applyMaxIterations_ok {path : ConfigPath} {n : ℕ}
    (h : ∀ value, file.maxIterations = some value → validateMaxIterations value = .ok ()) :
    file.applyMaxIterations path n = .ok (file.maxIterations.getD n) := by
  rw [FileSettings.applyMaxIterations]
  cases hvalue : file.maxIterations with
  | none => rfl
  | some value => simp only [h value hvalue, Option.getD_some]

theorem applyMaxIterations_inv {path : ConfigPath} {n m : ℕ}
    (h : file.applyMaxIterations path n = .ok m) :
    ∀ value, file.maxIterations = some value → validateMaxIterations value = .ok () := by
  intro value hvalue
  rw [FileSettings.applyMaxIterations, hvalue] at h
  cases hcheck : validateMaxIterations value with
  | error message =>
    simp only [hcheck] at h
    cases h
  | ok _ => rfl

theorem resolveCandidateMaxIterations_ok (hconfig : readConfigToml lib dir = .ok config)
    (hfile : decodeFileSettings candidate = some file) (hrange : BudgetsInRange config file) :
    resolveCandidateMaxIterations lib dir candidate = .ok (stackMaxIterations config file) := by
  obtain ⟨hlower, hupper⟩ := hrange
  cases config with
  | none =>
    simp only [resolveCandidateMaxIterations, decodeCandidate, hconfig, hfile]
    show file.applyMaxIterations .settingsJson defaultMaxIterations = _
    rw [applyMaxIterations_ok hupper]
    cases hm : file.maxIterations <;> simp [stackMaxIterations, hm]
  | some lower =>
    simp only [resolveCandidateMaxIterations, decodeCandidate, hconfig, hfile]
    show (lower.applyMaxIterations .configToml defaultMaxIterations).bind
      (fun n => file.applyMaxIterations .settingsJson n) = _
    rw [applyMaxIterations_ok (fun value => hlower lower value rfl)]
    show file.applyMaxIterations .settingsJson _ = _
    rw [applyMaxIterations_ok hupper]
    cases hm : file.maxIterations <;> simp [stackMaxIterations, hm]

/-- A budget that resolves was in range in both files. -/
theorem resolveCandidateMaxIterations_inv {n : ℕ} (hconfig : readConfigToml lib dir = .ok config)
    (hfile : decodeFileSettings candidate = some file)
    (h : resolveCandidateMaxIterations lib dir candidate = .ok n) :
    BudgetsInRange config file := by
  cases config with
  | none =>
    simp only [resolveCandidateMaxIterations, decodeCandidate, hconfig, hfile] at h
    change file.applyMaxIterations .settingsJson defaultMaxIterations = .ok n at h
    exact ⟨fun _ _ hnone => (nomatch hnone), applyMaxIterations_inv h⟩
  | some lower =>
    simp only [resolveCandidateMaxIterations, decodeCandidate, hconfig, hfile] at h
    change (lower.applyMaxIterations .configToml defaultMaxIterations).bind
      (fun n => file.applyMaxIterations .settingsJson n) = .ok n at h
    cases hm : lower.applyMaxIterations .configToml defaultMaxIterations with
    | error e =>
      rw [hm] at h
      cases h
    | ok m =>
      rw [hm] at h
      constructor
      · intro other value hother hvalue
        cases hother
        exact applyMaxIterations_inv hm value hvalue
      · change file.applyMaxIterations .settingsJson m = .ok n at h
        exact applyMaxIterations_inv h

theorem resolveCandidateThinking_ok (hconfig : readConfigToml lib dir = .ok config)
    (hfile : decodeFileSettings candidate = some file) :
    resolveCandidateThinking lib dir candidate = .ok (stackThinking config file) := by
  simp only [resolveCandidateThinking, decodeCandidate, hconfig, hfile]
  rfl

theorem resolveCandidateProviders_ok (hconfig : readConfigToml lib dir = .ok config)
    (hfile : decodeFileSettings candidate = some file) :
    resolveCandidateProviders lib dir candidate =
      .ok (effectiveProviders (stackLayers lib config file)) := by
  rw [resolveCandidateProviders, resolvePersistedCandidateProviders,
    candidateLayers_ok hconfig hfile]
  rfl

theorem resolveCandidateLlm_ok {env : Environment} (hconfig : readConfigToml lib dir = .ok config)
    (hfile : decodeFileSettings candidate = some file) :
    resolveCandidateLlm lib dir env candidate =
      .ok { llm := applyEnvLlm env
              (resolveEffectiveLlm (effectiveProviders (stackLayers lib config file)) {})
            envOverrides := llmEnvOverrides env } := by
  rw [resolveCandidateLlm, resolvePersistedCandidateLlm, resolvePersistedCandidateProviders,
    candidateLayers_ok hconfig hfile]
  rfl

theorem resolvePersistedCandidateMcpServers_ok (hconfig : readConfigToml lib dir = .ok config)
    (hfile : decodeFileSettings candidate = some file)
    (hmcp : checkMcpServers lib (stackLayers lib config file).mcpServers = .ok ()) :
    resolvePersistedCandidateMcpServers lib dir candidate =
      .ok (stackLayers lib config file).mcpServers := by
  rw [resolvePersistedCandidateMcpServers, candidateLayers_ok hconfig hfile]
  show (checkMcpServers lib (stackLayers lib config file).mcpServers).bind _ = _
  rw [hmcp]
  rfl

theorem resolvePersistedCandidateMcpServers_inv {servers : List McpServerConfig}
    (hconfig : readConfigToml lib dir = .ok config)
    (hfile : decodeFileSettings candidate = some file)
    (h : resolvePersistedCandidateMcpServers lib dir candidate = .ok servers) :
    checkMcpServers lib (stackLayers lib config file).mcpServers = .ok () := by
  rw [resolvePersistedCandidateMcpServers, candidateLayers_ok hconfig hfile] at h
  change (checkMcpServers lib (stackLayers lib config file).mcpServers).bind _ = _ at h
  cases hcheck : checkMcpServers lib (stackLayers lib config file).mcpServers with
  | error e =>
    rw [hcheck] at h
    cases h
  | ok _ => rfl

theorem resolvePersistedCandidateA2aAgents_ok (hconfig : readConfigToml lib dir = .ok config)
    (hfile : decodeFileSettings candidate = some file) :
    resolvePersistedCandidateA2aAgents lib dir candidate =
      .ok (stackLayers lib config file).a2aAgents := by
  rw [resolvePersistedCandidateA2aAgents, candidateLayers_ok hconfig hfile]
  rfl

variable {env : Environment}

/-- What the loader makes of the layers: the resolvers' values, but for the fallback. -/
structure LoadedFrom (lib : SettingsLib) (env : Environment) (config : Option FileSettings)
    (file : FileSettings) (settings : Settings) : Prop where
  maxIterations : settings.maxIterations = stackMaxIterations config file
  thinking : settings.thinking = stackThinking config file
  providers : settings.providers = effectiveProviders (stackLayers lib config file)
  llm : settings.llm = applyEnvLlm env
    (resolveEffectiveLlm (effectiveProviders (stackLayers lib config file))
      (stackLayers lib config file).llm)
  llmEnvOverrides : settings.llmEnvOverrides = llmEnvOverrides env
  mcpServers : settings.mcpServers = (stackLayers lib config file).mcpServers
  a2aAgents : settings.a2aAgents = (stackLayers lib config file).a2aAgents

/-- What a file in range makes of the loader's variables. -/
def loaded (lib : SettingsLib) (file : FileSettings) (state : LoadState) : LoadState where
  maxIterations := file.maxIterations.getD state.maxIterations
  thinking := file.applyThinking state.thinking
  layers := file.applyTo lib state.layers
  memory := file.memory.getD state.memory
  log := file.log.getD state.log
  apiKeys := file.apiKeys.getD state.apiKeys

theorem load_file_ok {path : ConfigPath} {state : LoadState}
    (h : ∀ value, file.maxIterations = some value → validateMaxIterations value = .ok ()) :
    file.load lib path state = .ok (loaded lib file state) := by
  rw [FileSettings.load, applyMaxIterations_ok h]
  rfl

theorem load_file_inv {path : ConfigPath} {state next : LoadState}
    (h : file.load lib path state = .ok next) :
    ∀ value, file.maxIterations = some value → validateMaxIterations value = .ok () := by
  rw [FileSettings.load] at h
  cases hm : file.applyMaxIterations path state.maxIterations with
  | error e =>
    rw [hm] at h
    cases h
  | ok m => exact applyMaxIterations_inv hm

theorem readSettingsFile_eq (hjson : dir.settingsJson = .json candidate) :
    readSettingsFile lib dir = (decodeCandidate lib candidate).map some := by
  simp only [readSettingsFile, hjson]

theorem loadFile_config_ok (lib : SettingsLib) (file : FileSettings)
    (h : ∀ lower value, config = some lower → lower.maxIterations = some value →
      validateMaxIterations value = .ok ()) :
    ∃ state, loadFile lib .configToml config {} = .ok state ∧
      (loaded lib file state).maxIterations = stackMaxIterations config file ∧
      (loaded lib file state).thinking = stackThinking config file ∧
      (loaded lib file state).layers = stackLayers lib config file := by
  cases config with
  | none =>
    refine ⟨{}, rfl, ?_, rfl, rfl⟩
    cases hm : file.maxIterations <;> simp [loaded, stackMaxIterations, hm]
  | some lower =>
    refine ⟨_, load_file_ok fun value => h lower value rfl, ?_, rfl, rfl⟩
    cases hm : file.maxIterations <;> simp [loaded, stackMaxIterations, hm]

theorem settleLoad_ok (dir : DataDir) (env : Environment) (state : LoadState)
    (hmcp : checkMcpServers lib state.layers.mcpServers = .ok ()) :
    ∃ settings, settleLoad lib dir env state = .ok settings ∧
      settings.maxIterations = state.maxIterations ∧ settings.thinking = state.thinking ∧
      settings.providers = effectiveProviders state.layers ∧
      settings.llm = applyEnvLlm env
        (resolveEffectiveLlm (effectiveProviders state.layers) state.layers.llm) ∧
      settings.llmEnvOverrides = llmEnvOverrides env ∧
      settings.mcpServers = state.layers.mcpServers ∧
      settings.a2aAgents = state.layers.a2aAgents := by
  rw [settleLoad]
  show ∃ settings, (checkMcpServers lib state.layers.mcpServers).bind _ = .ok settings ∧ _
  rw [hmcp]
  exact ⟨_, rfl, rfl, rfl, rfl, rfl, rfl, rfl, rfl⟩

theorem loadFromDataDir_ok (env : Environment) (hconfig : readConfigToml lib dir = .ok config)
    (hjson : dir.settingsJson = .json candidate)
    (hfile : decodeFileSettings candidate = some file) (hrange : BudgetsInRange config file)
    (hmcp : checkMcpServers lib (stackLayers lib config file).mcpServers = .ok ()) :
    ∃ settings, loadFromDataDir lib dir env = .ok settings ∧
      LoadedFrom lib env config file settings := by
  obtain ⟨hlower, hupper⟩ := hrange
  have hsettings : readSettingsFile lib dir = .ok (some file) := by
    rw [readSettingsFile_eq hjson, decodeCandidate, hfile]
    rfl
  obtain ⟨state, hstate, hbudget, hthinking, hlayers⟩ := loadFile_config_ok lib file hlower
  rw [← hlayers] at hmcp
  obtain ⟨settings, hload, h₁, h₂, h₃, h₄, h₅, h₆, h₇⟩ :=
    settleLoad_ok dir env (loaded lib file state) hmcp
  rw [hbudget] at h₁
  rw [hthinking] at h₂
  rw [hlayers] at h₃ h₄ h₆ h₇
  refine ⟨settings, ?_, h₁, h₂, h₃, h₄, h₅, h₆, h₇⟩
  rw [loadFromDataDir, hconfig, hsettings]
  show (loadFile lib .configToml config {}).bind _ = _
  rw [hstate]
  show (file.load lib .settingsJson state).bind _ = _
  rw [load_file_ok hupper]
  exact hload

theorem loadFromDataDir_inv {settings : Settings} (hjson : dir.settingsJson = .json candidate)
    (h : loadFromDataDir lib dir env = .ok settings) :
    ∃ config file, readConfigToml lib dir = .ok config ∧
      decodeFileSettings candidate = some file ∧ BudgetsInRange config file ∧
      checkMcpServers lib (stackLayers lib config file).mcpServers = .ok () := by
  rw [loadFromDataDir] at h
  obtain ⟨config, hconfig, h⟩ := bind_eq_ok.mp h
  obtain ⟨lower, hlower, h⟩ := bind_eq_ok.mp h
  obtain ⟨read, hsettings, h⟩ := bind_eq_ok.mp h
  obtain ⟨upper, hupper, h⟩ := bind_eq_ok.mp h
  rw [readSettingsFile_eq hjson] at hsettings
  cases hfile : decodeFileSettings candidate with
  | none =>
    rw [decodeCandidate, hfile] at hsettings
    cases hsettings
  | some file =>
    rw [decodeCandidate, hfile] at hsettings
    cases hsettings
    have hconfigRange : ∀ l value, config = some l → l.maxIterations = some value →
        validateMaxIterations value = .ok () := by
      rintro l value rfl
      exact load_file_inv hlower value
    obtain ⟨state, hstate, -, -, hlayers⟩ :=
      loadFile_config_ok lib file hconfigRange
    rw [hstate] at hlower
    cases hlower
    change file.load lib .settingsJson lower = _ at hupper
    have hfileRange := load_file_inv hupper
    rw [load_file_ok hfileRange] at hupper
    cases hupper
    rw [settleLoad] at h
    obtain ⟨_, hcheck, -⟩ := bind_eq_ok.mp h
    rw [hlayers] at hcheck
    exact ⟨config, file, hconfig, rfl, ⟨hconfigRange, hfileRange⟩, hcheck⟩

/-- The files are accepted: they read, and what they set is in range. -/
structure FilesAccepted (lib : SettingsLib) (dir : DataDir) (candidate : Json)
    (config : Option FileSettings) (file : FileSettings) : Prop where
  reads : readConfigToml lib dir = .ok config
  decodes : decodeFileSettings candidate = some file
  inRange : BudgetsInRange config file
  servers : checkMcpServers lib (stackLayers lib config file).mcpServers = .ok ()

/-- Everything resolves where the files are accepted, and nothing but the LLM may differ. -/
theorem resolvers_of_accepted (h : FilesAccepted lib dir candidate config file)
    {settings : Settings} (hload : LoadedFrom lib env config file settings) :
    resolveCandidateProviders lib dir candidate = .ok settings.providers ∧
      resolveCandidateMaxIterations lib dir candidate = .ok settings.maxIterations ∧
      resolveCandidateThinking lib dir candidate = .ok settings.thinking ∧
      resolvePersistedCandidateMcpServers lib dir candidate = .ok settings.mcpServers ∧
      resolvePersistedCandidateA2aAgents lib dir candidate = .ok settings.a2aAgents := by
  rw [hload.providers, hload.maxIterations, hload.thinking, hload.mcpServers, hload.a2aAgents]
  exact ⟨resolveCandidateProviders_ok h.reads h.decodes,
    resolveCandidateMaxIterations_ok h.reads h.decodes h.inRange,
    resolveCandidateThinking_ok h.reads h.decodes,
    resolvePersistedCandidateMcpServers_ok h.reads h.decodes h.servers,
    resolvePersistedCandidateA2aAgents_ok h.reads h.decodes⟩

end

section
/-! When the two ways agree. -/

/-- The list that is in force: the candidate's, or that of `config.toml` under it. -/
def listedProviders (config : Option FileSettings) (file : FileSettings) : List FileLlmProvider :=
  (file.providers.or (config.bind (·.providers))).getD []

/-- The list names providers, and all of them are switched off. -/
def AllProvidersDisabled (config : Option FileSettings) (file : FileSettings) : Prop :=
  listedProviders config file ≠ [] ∧
    ∀ provider ∈ listedProviders config file, provider.enabled = some false

def givenKey (file : FileSettings) : Option Text := file.llm.apiKey.filter fun key => !key.isEmpty

/-- Whatever the legacy `llm` objects say is the default, or the environment has the last word. -/
structure LegacyLlmHidden (env : Environment) (config : Option FileSettings) (file : FileSettings) :
    Prop where
  baseUrl : (envOverride env "DSS_LLM_BASE_URL".toList).isSome = true ∨
    ∀ url, file.llm.baseUrl.or (config.bind (·.llm.baseUrl)) = some url → url = defaultLlmBaseUrl
  model : (envOverride env "DSS_LLM_MODEL".toList).isSome = true ∨
    ∀ name, file.llm.model.or (config.bind (·.llm.model)) = some name → name = defaultLlmModel
  apiKey : (envOverride env "DEEPSEEK_API_KEY".toList).isSome = true ∨
    (givenKey file).or (config.bind givenKey) = none

variable {config : Option FileSettings} {file : FileSettings} {env : Environment}

theorem stackLayers_llm :
    (stackLayers lib config file).llm =
      { baseUrl := (file.llm.baseUrl.or (config.bind (·.llm.baseUrl))).getD defaultLlmBaseUrl
        model := (file.llm.model.or (config.bind (·.llm.model))).getD defaultLlmModel
        apiKey := (givenKey file).or (config.bind givenKey) } := by
  cases config with
  | none =>
    simp only [stackLayers, FileSettings.applyTo, givenKey, Option.bind_none, Option.or_none]
  | some lower =>
    simp only [stackLayers, FileSettings.applyTo, givenKey, Option.bind_some, Option.or_none]
    cases file.llm.baseUrl <;> cases file.llm.model <;> rfl

theorem stackLayers_providers :
    (stackLayers lib config file).providers =
      (listedProviders config file).map (·.intoProvider lib) := by
  cases hf : file.providers with
  | some ps => simp [stackLayers, FileSettings.applyTo, listedProviders, hf]
  | none =>
    cases config with
    | none => simp [stackLayers, FileSettings.applyTo, listedProviders, hf]
    | some lower =>
      cases hl : lower.providers with
      | none => simp [stackLayers, FileSettings.applyTo, listedProviders, hf, hl]
      | some ps => simp [stackLayers, FileSettings.applyTo, listedProviders, hf, hl]

theorem intoProvider_enabled (provider : FileLlmProvider) :
    (provider.intoProvider lib).enabled = false ↔ provider.enabled = some false := by
  show provider.enabled.getD true = false ↔ _
  cases provider.enabled with
  | none => simp
  | some enabled => simp

/-- Only a list without an enabled entry leaves the choice to the fallback. -/
theorem find_enabled_eq_none (lib : SettingsLib) :
    (effectiveProviders (stackLayers lib config file)).find? (·.enabled) = none ↔
      AllProvidersDisabled config file := by
  rw [effectiveProviders, stackLayers_providers, AllProvidersDisabled]
  by_cases hnil : listedProviders config file = []
  · simp [hnil, providersFromLegacyLlm]
  · have hmap : ((listedProviders config file).map (·.intoProvider lib)).isEmpty = false := by
      simp [hnil]
    rw [hmap, if_neg Bool.false_ne_true, List.find?_eq_none, List.forall_mem_map]
    simp only [Bool.not_eq_true, intoProvider_enabled, ne_eq, hnil, not_false_eq_true, true_and]

theorem resolveEffectiveLlm_of_none {providers : List LlmProvider} {legacy : LlmSettings}
    (h : providers.find? (·.enabled) = none) : resolveEffectiveLlm providers legacy = legacy := by
  rw [resolveEffectiveLlm, h]
  rfl

theorem resolveEffectiveLlm_of_some {providers : List LlmProvider} {p : LlmProvider}
    (legacy : LlmSettings) (h : providers.find? (·.enabled) = some p) :
    resolveEffectiveLlm providers legacy = p.llm := by
  rw [resolveEffectiveLlm, h]
  rfl

/-- The environment hides the legacy object exactly when it looks like the default one. -/
theorem applyEnvLlm_eq_default (lib : SettingsLib) :
    applyEnvLlm env {} = applyEnvLlm env (stackLayers lib config file).llm ↔
      LegacyLlmHidden env config file := by
  have hfield : ∀ (o : Option Text) (d x : Text),
      o.getD d = o.getD x ↔ o.isSome = true ∨ x = d := by
    intro o d x
    cases o <;> simp [eq_comm]
  have hgiven : ∀ (o : Option Text) (d : Text), o.getD d = d ↔ ∀ x, o = some x → x = d := by
    intro o d
    cases o <;> simp
  have hkey : ∀ o k : Option Text, o = o.or k ↔ o.isSome = true ∨ k = none := by
    intro o k
    cases o <;> simp [eq_comm]
  rw [stackLayers_llm]
  simp only [applyEnvLlm, LlmSettings.mk.injEq, hfield, hgiven, Option.or_none, hkey]
  exact ⟨fun ⟨h₁, h₂, h₃⟩ => ⟨h₁, h₂, h₃⟩, fun ⟨h₁, h₂, h₃⟩ => ⟨h₁, h₂, h₃⟩⟩

variable {dir : DataDir} {candidate : Json}

/-- For accepted files the LLM that is applied at once is the LLM of a restart unless all
providers are off and the legacy object says something else than the defaults. -/
theorem resolveCandidateLlm_eq_loaded_iff (h : FilesAccepted lib dir candidate config file)
    {settings : Settings} (hload : LoadedFrom lib env config file settings) :
    resolveCandidateLlm lib dir env candidate =
        .ok { llm := settings.llm, envOverrides := settings.llmEnvOverrides } ↔
      (AllProvidersDisabled config file → LegacyLlmHidden env config file) := by
  rw [resolveCandidateLlm_ok h.reads h.decodes, hload.llm, hload.llmEnvOverrides,
    ← find_enabled_eq_none lib, ← applyEnvLlm_eq_default lib]
  simp only [Except.ok.injEq, ResolvedLlmSettings.mk.injEq, and_true]
  cases hfind : (effectiveProviders (stackLayers lib config file)).find? (·.enabled) with
  | none =>
    rw [resolveEffectiveLlm_of_none hfind, resolveEffectiveLlm_of_none hfind]
    simp
  | some p =>
    rw [resolveEffectiveLlm_of_some _ hfind, resolveEffectiveLlm_of_some _ hfind]
    simp

theorem hotEqualsRestart_iff (hjson : dir.settingsJson = .json candidate) :
    HotEqualsRestart lib dir env candidate ↔
      ∀ config file, FilesAccepted lib dir candidate config file →
        AllProvidersDisabled config file → LegacyLlmHidden env config file := by
  constructor
  · intro hprop config file haccepted
    obtain ⟨settings, hload, hfrom⟩ := loadFromDataDir_ok env haccepted.reads hjson
      haccepted.decodes haccepted.inRange haccepted.servers
    exact (resolveCandidateLlm_eq_loaded_iff haccepted hfrom).mp
      (hprop.hot_of_load settings hload).1
  · intro hcondition
    constructor
    · intro settings hload
      obtain ⟨config, file, hconfig, hfile, hrange, hservers⟩ :=
        loadFromDataDir_inv hjson hload
      have haccepted : FilesAccepted lib dir candidate config file :=
        ⟨hconfig, hfile, hrange, hservers⟩
      obtain ⟨settings', hload', hfrom⟩ :=
        loadFromDataDir_ok env hconfig hjson hfile hrange hservers
      rw [hload] at hload'
      cases hload'
      exact ⟨(resolveCandidateLlm_eq_loaded_iff haccepted hfrom).mpr
        (hcondition config file haccepted), resolvers_of_accepted haccepted hfrom⟩
    · intro _ providers _ _ _ _ _ hproviders hmax _ hmcp _
      rw [resolveCandidateProviders, resolvePersistedCandidateProviders] at hproviders
      obtain ⟨layers, hlayers, -⟩ := bind_eq_ok.mp hproviders
      obtain ⟨config, file, hconfig, hfile⟩ := candidateLayers_inv hlayers
      obtain ⟨settings, hload, -⟩ := loadFromDataDir_ok env hconfig hjson hfile
        (resolveCandidateMaxIterations_inv hconfig hfile hmax)
        (resolvePersistedCandidateMcpServers_inv hconfig hfile hmcp)
      exact ⟨settings, hload⟩

end

section
/-! A candidate whose one provider is off, over a legacy object with a model of its own. -/

def disabledProviderCandidate : Json :=
  .object [("llm".toList, .object [("model".toList, .string "custom".toList)]),
    ("providers".toList, .array [.object [("enabled".toList, .bool false)]])]

def registryUrl : Url where
  scheme := "https".toList
  host := some "a2a-dev.intern-ai.org.cn".toList
  path := "/mcp".toList

def sampleSettingsLib : SettingsLib where
  typeMessage := fun _ => "invalid type".toList
  parseToml := fun _ => .ok {}
  parseTomlSkills := fun _ => .ok none
  parseUrl := fun t => if t = defaultAgentRegistryUrl then some registryUrl else none
  toLowercase := toAsciiLowercase

def disabledProviderDir : DataDir where
  path := "/data".toList
  isDefault := false
  configToml := .absent
  settingsJson := .json disabledProviderCandidate

def emptyEnvironment : Environment := fun _ => none

def disabledProviderFile : FileSettings where
  llm := { model := some "custom".toList }
  providers := some [{ enabled := some false }]

theorem disabledProvider_accepted :
    FilesAccepted sampleSettingsLib disabledProviderDir disabledProviderCandidate none
      disabledProviderFile := by
  constructor
  · rfl
  · rfl
  · exact ⟨fun _ _ h => (nomatch h), fun _ h => (nomatch h)⟩
  · decide +kernel

/-- The process goes on with the default model, and the next one starts with the custom one. -/
theorem hotEqualsRestart_fails :
    disabledProviderDir.settingsJson = .json disabledProviderCandidate ∧
      ¬ HotEqualsRestart sampleSettingsLib disabledProviderDir emptyEnvironment
        disabledProviderCandidate := by
  refine ⟨rfl, fun hprop => ?_⟩
  have haccepted := disabledProvider_accepted
  obtain ⟨settings, hload, hfrom⟩ := loadFromDataDir_ok emptyEnvironment haccepted.reads
    rfl haccepted.decodes haccepted.inRange haccepted.servers
  have hdisabled : AllProvidersDisabled none disabledProviderFile := by
    constructor
    · simp [listedProviders, disabledProviderFile]
    · simp [listedProviders, disabledProviderFile]
  have hhidden := (resolveCandidateLlm_eq_loaded_iff haccepted hfrom).mp
    (hprop.hot_of_load settings hload).1 hdisabled
  rcases hhidden.model with henv | hmodel
  · exact absurd henv (by decide)
  · exact absurd (hmodel "custom".toList rfl) (by decide)

theorem hotEqualsRestart_iff_disabledProvider :
    HotEqualsRestart sampleSettingsLib disabledProviderDir emptyEnvironment
        disabledProviderCandidate ↔
      ∀ config file,
        FilesAccepted sampleSettingsLib disabledProviderDir disabledProviderCandidate config file →
        AllProvidersDisabled config file → LegacyLlmHidden emptyEnvironment config file :=
  hotEqualsRestart_iff rfl

end
end DeepseekScience.Core
