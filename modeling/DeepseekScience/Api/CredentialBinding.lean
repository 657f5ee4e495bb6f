import DeepseekScience.Api.CredentialLedger

/-! Credentials stay with their authority: over every run of saves, each key stands next to an
address that it was given for, but where a provider without a key takes the place of the legacy
object's address and leaves its key behind. -/
namespace DeepseekScience.Api.SettingsEndpoints

open DeepseekScience.Core DeepseekScience.A2a Net Transactions

section
/-! What an accepted save has checked. -/

variable {lib : ServerLib} {env : Environment} {surroundings : Surroundings} {state : AppState}
  {form : AppSettingsPayload} {members : List (Text × Json)}

theorem ofCore_eq_ok {α : Type} {x : Except CoreError α} {a : α} :
    ofCore x = .ok a ↔ x = .ok a := by
  cases x with
  | error e => simp [ofCore]
  | ok b => simp [ofCore]

theorem prepareSave_ok {root : Json} {candidate : Candidate}
    (h : prepareSave lib env surroundings state form = .ok (root, candidate)) :
    ∃ members parts, checkForm lib.toSettingsLib form = .ok () ∧
      readRoot state.dir = .ok members ∧
      formParts lib surroundings state form members = .ok parts ∧
      root = .object (patchRoot members parts) ∧
      resolveCandidate lib env surroundings state root parts.apiKeys = .ok candidate := by
  rw [prepareSave] at h
  obtain ⟨⟨⟩, hform, h⟩ := bind_eq_ok.mp h
  split_ifs at h
  cases hdirectory : surroundings.ensureDirectory with
  | error message =>
    rw [hdirectory] at h
    cases h
  | ok _ =>
    rw [hdirectory] at h
    obtain ⟨members, hroot, h⟩ := bind_eq_ok.mp h
    obtain ⟨parts, hparts, h⟩ := bind_eq_ok.mp h
    obtain ⟨resolved, hresolved, h⟩ := bind_eq_ok.mp h
    cases h
    exact ⟨members, parts, hform, hroot, hparts, rfl, hresolved⟩

/-- The parts of an accepted form, next to what was stored. -/
structure PartsOf (lib : ServerLib) (surroundings : Surroundings) (form : AppSettingsPayload)
    (storedAgents : List A2aAgentConfig) (stored : List LlmProvider) (parts : SavedParts) : Prop
    where
  agents : agentConfigs lib.agents storedAgents form.a2aAgents = .ok parts.a2aAgents
  providers : providerConfigs lib.toSettingsLib form.model stored surroundings.freshId
    form.providers = .ok parts.providers
  selected : parts.providers.find? (·.enabled) = some parts.selected
  maxIterations : parts.maxIterations = form.maxIterations
  retentionDays : parts.log.retentionDays = form.logRetentionDays.toNat
  maxRows : parts.log.maxRows = form.logMaxRows.toNat

theorem formParts_ok {parts : SavedParts}
    (h : formParts lib surroundings state form members = .ok parts) :
    ∃ storedAgents stored,
      resolvePersistedCandidateA2aAgents lib.toSettingsLib state.dir (.object members) =
        .ok storedAgents ∧
      resolvePersistedCandidateProviders lib.toSettingsLib state.dir (.object members) =
        .ok stored ∧
      PartsOf lib surroundings form storedAgents stored parts := by
  rw [formParts] at h
  obtain ⟨storedAgents, hstoredAgents, h⟩ := bind_eq_ok.mp h
  obtain ⟨a2aAgents, hagents, h⟩ := bind_eq_ok.mp h
  obtain ⟨servers, -, h⟩ := bind_eq_ok.mp h
  obtain ⟨stored, hstored, h⟩ := bind_eq_ok.mp h
  obtain ⟨providers, hproviders, h⟩ := bind_eq_ok.mp h
  cases hselected : providers.find? (·.enabled) with
  | none =>
    rw [hselected] at h
    cases h
  | some selected =>
    rw [hselected] at h
    dsimp only at h
    split_ifs at h
    cases h
    exact ⟨storedAgents, stored, ofCore_eq_ok.mp hstoredAgents, ofCore_eq_ok.mp hstored, hagents,
      hproviders, hselected, rfl, rfl, rfl⟩

theorem providerConfigs_ok {lib : SettingsLib} {model : Text} {stored providers : List LlmProvider}
    {freshId : ℕ → Text} {submitted : List ProviderSettings}
    (h : providerConfigs lib model stored freshId submitted = .ok providers) :
    ∀ p ∈ providers, ∃ provider ∈ submitted, p.baseUrl = trim provider.baseUrl ∧
      p.apiKey = providerKey lib stored provider ∧ p.enabled = provider.enabled := by
  obtain ⟨⟨⟩, -, h⟩ := bind_eq_ok.mp h
  cases h
  intro p hp
  obtain ⟨i, hi, rfl⟩ := List.mem_mapIdx.mp hp
  exact ⟨submitted[i], List.getElem_mem hi, rfl, rfl, rfl⟩

theorem agentConfigs_ok {lib : A2aLib} {stored configs : List A2aAgentConfig}
    {submitted : List A2aAgentSettings} (h : agentConfigs lib stored submitted = .ok configs) :
    configs = submitted.map (agentConfig stored) ∧ validateConfigs lib configs = .ok () ∧
      ∀ agent ∈ submitted, agent.clearBearerToken = true → givenText agent.bearerToken = none := by
  rw [agentConfigs] at h
  split_ifs at h with hboth
  dsimp only at h
  cases hvalid : validateConfigs lib (submitted.map (agentConfig stored)) with
  | error error =>
    rw [hvalid] at h
    cases h
  | ok _ =>
    rw [hvalid] at h
    cases h
    refine ⟨rfl, hvalid, ?_⟩
    intro agent hagent hclear
    by_contra hgiven
    apply hboth
    rw [List.any_eq_true]
    exact ⟨agent, hagent, by simp [hclear, Option.isSome_iff_ne_none, hgiven]⟩

theorem validateConfig_ok {lib : A2aLib} {config : A2aAgentConfig}
    (h : validateConfig lib config = .ok ()) : config.timeoutSeconds ≤ maxTimeoutSeconds := by
  have hrange : validateTimeout config.timeoutSeconds = .ok () := by
    rw [validateConfig] at h
    split_ifs at h <;> exact (bind_eq_ok.mp h).choose_spec.1
  rw [validateTimeout] at hrange
  split_ifs at hrange with hle
  exact hle.2

/-- Configurations that pass have different ids, and time limits in range. -/
theorem validateConfigsFrom_ok {lib : A2aLib} {configs : List A2aAgentConfig} :
    ∀ {ids names tools : List Text}, validateConfigsFrom lib ids names tools configs = .ok () →
      (configs.map (·.id)).Nodup ∧ (∀ config ∈ configs, config.id ∉ ids) ∧
        ∀ config ∈ configs, config.timeoutSeconds ≤ maxTimeoutSeconds := by
  induction configs with
  | nil => simp
  | cons config rest ih =>
    intro ids names tools h
    rw [validateConfigsFrom] at h
    obtain ⟨⟨⟩, hvalid, h⟩ := bind_eq_ok.mp h
    dsimp only at h
    split_ifs at h with hid
    obtain ⟨hnodup, hfresh, htimes⟩ := ih h
    have htime := validateConfig_ok hvalid
    have hid' : config.id ∉ ids := by simpa using hid
    refine ⟨?_, ?_, ?_⟩
    · rw [List.map_cons, List.nodup_cons]
      refine ⟨?_, hnodup⟩
      intro hmem
      obtain ⟨other, hother, heq⟩ := List.mem_map.mp hmem
      exact hfresh other hother (by simp [heq])
    · intro other hother
      obtain rfl | hother := List.mem_cons.mp hother
      · exact hid'
      · exact fun hin => hfresh other hother (List.mem_cons_of_mem _ hin)
    · intro other hother
      obtain rfl | hother := List.mem_cons.mp hother
      · exact htime
      · exact htimes other hother

theorem validateConfigs_ok {lib : A2aLib} {configs : List A2aAgentConfig}
    (h : validateConfigs lib configs = .ok ()) :
    (configs.map (·.id)).Nodup ∧ ∀ config ∈ configs, config.timeoutSeconds ≤ maxTimeoutSeconds := by
  rw [validateConfigs] at h
  split_ifs at h
  obtain ⟨hnodup, -, htimes⟩ := validateConfigsFrom_ok h
  exact ⟨hnodup, htimes⟩

theorem validateMaxIterations_of_checkForm {n : ℕ}
    (h : checkForm lib.toSettingsLib form = .ok ()) (hn : form.maxIterations = some n) :
    validateMaxIterations n = .ok () := by
  obtain ⟨⟨⟩, hmax, -⟩ := bind_eq_ok.mp h
  rw [hn, checkMaxIterations] at hmax
  cases hvalid : validateMaxIterations n with
  | error message =>
    rw [hvalid] at hmax
    cases hmax
  | ok _ => rfl

theorem maxIterations_lt (h : checkForm lib.toSettingsLib form = .ok ()) :
    ∀ n, form.maxIterations = some n → n < 2 ^ 32 := by
  intro n hn
  have hvalid := validateMaxIterations_of_checkForm h hn
  rw [validateMaxIterations] at hvalid
  split_ifs at hvalid with hrange
  have hle := hrange.2
  unfold maxConfigurableIterations at hle
  omega

theorem PartsOf.fits {storedAgents : List A2aAgentConfig} {stored : List LlmProvider}
    {parts : SavedParts} (h : PartsOf lib surroundings form storedAgents stored parts)
    (hform : checkForm lib.toSettingsLib form = .ok ()) : parts.Fits := by
  obtain ⟨-, hvalid, -⟩ := agentConfigs_ok h.agents
  constructor
  · rw [h.maxIterations]
    exact maxIterations_lt hform
  · rw [h.retentionDays]
    exact form.logRetentionDays.toNat_lt
  · rw [h.maxRows]
    exact form.logMaxRows.toNat_lt
  · intro agent hagent
    have := (validateConfigs_ok hvalid).2 agent hagent
    unfold maxTimeoutSeconds at this
    omega

end

section
/-! The ledger knows every credential of an accepted form. -/

variable {lib : ServerLib} {form : AppSettingsPayload} {ledger : Ledger}

theorem hasKey_of_providerConfigs {model : Text} {stored providers : List LlmProvider}
    {freshId : ℕ → Text}
    (hconfigs : providerConfigs lib.toSettingsLib model stored freshId form.providers =
      .ok providers)
    (hstored : ∀ existing ∈ stored, ∀ key, existing.apiKey = some key →
      ledger.HasKey lib.toSettingsLib key existing.baseUrl)
    (hpath : ∀ submitted ∈ form.providers, givenText submitted.apiKey = none → ∀ existing,
      storedProvider lib.toSettingsLib stored submitted = some existing → existing.apiKey ≠ none →
        SamePath lib.toSettingsLib existing.baseUrl submitted.baseUrl) :
    ∀ p ∈ providers, ∀ key, p.apiKey = some key →
      (ledger.record form).HasKey lib.toSettingsLib key p.baseUrl := by
  intro p hp key hkey
  obtain ⟨submitted, hsubmitted, hurl, hapiKey, -⟩ := providerConfigs_ok hconfigs p hp
  rw [hapiKey, providerKey] at hkey
  rw [hurl]
  cases hgiven : givenText submitted.apiKey with
  | some given =>
    rw [hgiven] at hkey
    obtain rfl := Option.some.inj hkey
    exact (hasKey_submitted hsubmitted hgiven).place (samePlace_trim_right.mpr (.of_trim rfl))
  | none =>
    rw [hgiven, Option.none_or] at hkey
    obtain ⟨existing, hfound, hexisting⟩ := Option.bind_eq_some_iff.mp hkey
    have hmem := List.mem_of_find?_eq_some hfound
    have hsame := List.find?_some hfound
    simp only [Bool.and_eq_true] at hsame
    have hplace := samePlace_of_sameProviderAuthority hsame.2
      (hpath submitted hsubmitted hgiven existing hfound (by simp [hexisting]))
    exact ((hstored existing hmem key hexisting).place (samePlace_trim_right.mpr hplace)).record

/-- An agent keeps a token only where no entry of the form removes it. -/
theorem hasToken_of_agentConfigs {agents : A2aLib} {stored configs : List A2aAgentConfig}
    (hconfigs : agentConfigs agents stored form.a2aAgents = .ok configs)
    (hstored : ∀ existing ∈ stored, ∀ token, existing.bearerToken = some token →
      ledger.HasToken existing.id existing.endpoint token) :
    ∀ config ∈ configs, ∀ token, config.bearerToken = some token →
      (ledger.record form).HasToken config.id config.endpoint token := by
  obtain ⟨rfl, hvalid, -⟩ := agentConfigs_ok hconfigs
  obtain ⟨hnodup, -⟩ := validateConfigs_ok hvalid
  intro config hconfig token htoken
  obtain ⟨submitted, hsubmitted, rfl⟩ := List.mem_map.mp hconfig
  change agentToken stored submitted = some token at htoken
  rw [agentToken] at htoken
  split_ifs at htoken with hclear
  have hgoal : (ledger.record form).HasToken submitted.id submitted.endpoint token := by
    cases hgiven : givenText submitted.bearerToken with
    | some given =>
      rw [hgiven] at htoken
      obtain rfl := Option.some.inj htoken
      exact hasToken_submitted hsubmitted hgiven
    | none =>
      rw [hgiven, Option.none_or] at htoken
      obtain ⟨existing, hfound, hexisting⟩ := Option.bind_eq_some_iff.mp htoken
      have hmem := List.mem_of_find?_eq_some hfound
      have hsame := List.find?_some hfound
      simp only [Bool.and_eq_true, beq_iff_eq] at hsame
      obtain ⟨hid, hendpoint⟩ := hsame
      have hkept : removesToken form submitted.id = false := by
        by_contra hremoves
        rw [Bool.not_eq_false, removesToken, List.any_eq_true] at hremoves
        obtain ⟨other, hother, hboth⟩ := hremoves
        simp only [Bool.and_eq_true, beq_iff_eq] at hboth
        rw [List.map_map] at hnodup
        have heq := List.inj_on_of_nodup_map hnodup hother hsubmitted hboth.2
        rw [heq] at hboth
        exact hclear hboth.1
      obtain ⟨entry, hentry, hsecret, hentryId, hentryEndpoint⟩ := hstored existing hmem token hexisting
      have holder : ledger.HasToken submitted.id submitted.endpoint token :=
        ⟨entry, hentry, hsecret, by rw [hentryId, hid], by rw [hentryEndpoint, hendpoint]⟩
      exact holder.record hkept
  obtain ⟨entry, hentry, hsecret, hid, hendpoint⟩ := hgoal
  exact ⟨entry, hentry, hsecret, by rw [hid]; exact (trim_trim _).symm,
    by rw [hendpoint]; exact (trim_trim _).symm⟩

end

section
/-! Runs of saves. -/

variable (lib : ServerLib) (env : Environment)

inductive SettingsRequest where
  | save (surroundings : Surroundings) (form : AppSettingsPayload)
  | refresh (refreshCard : A2aAgentConfig → Option CardSnapshot → Except A2aError CardSnapshot)

/-- A save that is answered with settings has taken effect, and any other has not. -/
def Ledgered.step (s : Ledgered) : SettingsRequest → Ledgered
  | .save surroundings form =>
    { state := (saveSettings lib env surroundings s.state form).2
      ledger :=
        match (saveSettings lib env surroundings s.state form).1 with
        | .ok _ => s.ledger.record form
        | .error _ => s.ledger }
  | .refresh refreshCard => { s with state := s.state.refreshAgents refreshCard }

/-- The environment does not give an address without a key of its own. -/
def AddressWithKey : Prop :=
  envOverride env "DSS_LLM_BASE_URL".toList = none ∨
    (envOverride env "DEEPSEEK_API_KEY".toList).isSome = true

/-- Keys are kept only for paths that are the same to the letter, and the provider in force has
a key, or the legacy object none for another place. -/
structure CarefulSave (state : AppState) (form : AppSettingsPayload) : Prop where
  samePath : ∀ members stored, readRoot state.dir = .ok members →
    resolvePersistedCandidateProviders lib.toSettingsLib state.dir (.object members) = .ok stored →
    ∀ submitted ∈ form.providers, givenText submitted.apiKey = none → ∀ existing,
      storedProvider lib.toSettingsLib stored submitted = some existing → existing.apiKey ≠ none →
        SamePath lib.toSettingsLib existing.baseUrl submitted.baseUrl
  legacy : ∀ members file layers stored, readRoot state.dir = .ok members →
    decodeFileSettings (.object members) = some file →
    candidateLayers lib.toSettingsLib state.dir (.object members) = .ok layers →
    resolvePersistedCandidateProviders lib.toSettingsLib state.dir (.object members) = .ok stored →
    ∀ submitted ∈ form.providers, submitted.enabled = true →
      (providerKey lib.toSettingsLib stored submitted).isSome = true ∨ givenKey file = none ∨
        SamePlace lib.toSettingsLib layers.llm.baseUrl submitted.baseUrl

def Careful (s : Ledgered) : SettingsRequest → Prop
  | .save _ form => CarefulSave lib s.state form
  | .refresh _ => True

/-- What the next save finds, and the ledger knows. -/
structure StoredBound (lib : SettingsLib) (ledger : Ledger) (config : Option FileSettings)
    (base : FileSettings) : Prop where
  providers : ∀ p ∈ effectiveProviders (stackLayers lib config base), ∀ key,
    p.apiKey = some key → ledger.HasKey lib key p.baseUrl
  agents : ∀ agent ∈ (stackLayers lib config base).a2aAgents, ∀ token,
    agent.bearerToken = some token → ledger.HasToken agent.id agent.endpoint token
  legacy : ∀ key, givenKey base = some key →
    ledger.HasKey lib key (stackLayers lib config base).llm.baseUrl

structure Sound (s : Ledgered) : Prop where
  bound : CredentialsBound lib.toSettingsLib env s
  stored : ∃ config members base, readConfigToml lib.toSettingsLib s.state.dir = .ok config ∧
    readRoot s.state.dir = .ok members ∧ ReadsAs members base ∧ BudgetsInRange config base ∧
    StoredBound lib.toSettingsLib s.ledger config base

end

section
/-! What a save leaves is bound by the ledger with its form. -/

variable {lib : SettingsLib} {config : Option FileSettings} {file next : FileSettings}
  {parts : SavedParts} {ledger : Ledger}

theorem key_intoProvider {provider : LlmProvider} {key : Text}
    (h : (provider.toFile.intoProvider lib).apiKey = some key) : provider.apiKey = some key :=
  (Option.filter_eq_some_iff.mp h).1

/-- The providers of a patched file are those that were saved. -/
theorem effectiveProviders_patched (hpatched : Patched parts file next)
    (hselected : parts.providers.find? (·.enabled) = some parts.selected) :
    effectiveProviders (stackLayers lib config next) =
      parts.providers.map fun p => p.toFile.intoProvider lib := by
  have hlisted : listedProviders config next = parts.providers.map LlmProvider.toFile := by
    simp [listedProviders, hpatched.providers]
  have hne : parts.providers ≠ [] := List.ne_nil_of_mem (List.mem_of_find?_eq_some hselected)
  rw [effectiveProviders, stackLayers_providers, hlisted, List.map_map]
  simp [hne, Function.comp_def]

theorem a2aAgents_patched (hpatched : Patched parts file next) :
    (stackLayers lib config next).a2aAgents = parts.a2aAgents := by
  simp [stackLayers, FileSettings.applyTo, hpatched.a2aAgents]

theorem llm_patched (hpatched : Patched parts file next) :
    (stackLayers lib config next).llm.baseUrl = parts.selected.baseUrl := by
  simp [stackLayers_llm, hpatched.llmBaseUrl]

/-- The saved parts are bound, and so is what was left of the legacy object. -/
structure PartsBound (lib : SettingsLib) (ledger : Ledger) (file : FileSettings)
    (parts : SavedParts) : Prop where
  providers : ∀ p ∈ parts.providers, ∀ key, p.apiKey = some key →
    ledger.HasKey lib key p.baseUrl
  agents : ∀ agent ∈ parts.a2aAgents, ∀ token, agent.bearerToken = some token →
    ledger.HasToken agent.id agent.endpoint token
  legacy : parts.selected.apiKey = none → ∀ key, givenKey file = some key →
    ledger.HasKey lib key parts.selected.baseUrl

theorem StoredBound.of_patched (hbound : PartsBound lib ledger file parts)
    (hpatched : Patched parts file next)
    (hselected : parts.providers.find? (·.enabled) = some parts.selected) :
    StoredBound lib ledger config next := by
  constructor
  · rw [effectiveProviders_patched hpatched hselected]
    intro p hp key hkey
    obtain ⟨provider, hprovider, rfl⟩ := List.mem_map.mp hp
    exact hbound.providers provider hprovider key (key_intoProvider hkey)
  · rw [a2aAgents_patched hpatched]
    exact hbound.agents
  · rw [llm_patched hpatched]
    intro key hkey
    obtain ⟨hnext, hne⟩ := Option.filter_eq_some_iff.mp hkey
    obtain ⟨kept, hkept, hllm⟩ := hpatched.llmApiKey
    rw [hllm] at hnext
    cases hown : parts.selected.apiKey with
    | some own =>
      rw [hown] at hnext
      obtain rfl := Option.some.inj hnext
      exact hbound.providers _ (List.mem_of_find?_eq_some hselected) _ hown
    | none =>
      rw [hown, Option.none_or] at hnext
      obtain rfl | rfl := hkept
      · cases hnext
      · exact hbound.legacy hown key (Option.filter_eq_some_iff.mpr ⟨hnext, hne⟩)

theorem apiKey_intoProvider {p : FileLlmProvider} {key : Text} (h : p.apiKey = some key)
    (hne : key ≠ []) : (p.intoProvider lib).apiKey = some key := by
  show p.apiKey.filter _ = some key
  rw [h, Option.filter_some, if_pos (by simpa using hne)]

theorem baseUrl_intoProvider {p : FileLlmProvider} {url : Text} (h : p.baseUrl = some url) :
    (p.intoProvider lib).baseUrl = url := by
  show p.baseUrl.getD _ = url
  rw [h, Option.getD_some]

/-- A file whose layers are bound says nothing that is not. -/
theorem FileBound.of_stored (h : StoredBound lib ledger config file) :
    FileBound lib ledger file := by
  constructor
  · intro p hp key url hkey hne hurl
    cases hproviders : file.providers with
    | none => simp [hproviders] at hp
    | some listed =>
      rw [hproviders, Option.getD_some] at hp
      have hlisted : listedProviders config file = listed := by simp [listedProviders, hproviders]
      have heffective : p.intoProvider lib ∈ effectiveProviders (stackLayers lib config file) := by
        rw [effectiveProviders, stackLayers_providers, hlisted]
        simpa [List.ne_nil_of_mem hp] using ⟨p, hp, rfl⟩
      have hpair := h.providers _ heffective key (apiKey_intoProvider hkey hne)
      rwa [baseUrl_intoProvider hurl] at hpair
  · intro key url hkey hne hurl
    have hgiven : givenKey file = some key := by
      simpa [givenKey, hkey, Option.filter] using hne
    have hpair := h.legacy key hgiven
    simpa [stackLayers_llm, hurl] using hpair
  · intro agent hagent token htoken
    cases hagents : file.a2aAgents with
    | none => simp [hagents] at hagent
    | some listed =>
      rw [hagents, Option.getD_some] at hagent
      have hlayer : (stackLayers lib config file).a2aAgents = listed := by
        simp [stackLayers, FileSettings.applyTo, hagents]
      exact h.agents agent (by rwa [hlayer]) token htoken

/-- The LLM in force takes its key and its address from one provider, or from the environment. -/
theorem key_applyEnvLlm {env : Environment} (henv : AddressWithKey env)
    {providers : List LlmProvider} {legacy : LlmSettings} {key : Text}
    (hproviders : ∀ p ∈ providers, ∀ key, p.apiKey = some key → ledger.HasKey lib key p.baseUrl)
    (hlegacy : ∀ key, legacy.apiKey = some key → ledger.HasKey lib key legacy.baseUrl)
    (hkey : (applyEnvLlm env (resolveEffectiveLlm providers legacy)).apiKey = some key) :
    envOverride env "DEEPSEEK_API_KEY".toList = some key ∨
      ledger.HasKey lib key
        (applyEnvLlm env (resolveEffectiveLlm providers legacy)).baseUrl := by
  simp only [applyEnvLlm] at hkey ⊢
  cases hown : envOverride env "DEEPSEEK_API_KEY".toList with
  | some own =>
    rw [hown] at hkey
    exact .inl hkey
  | none =>
    obtain hurl | hset := henv
    · rw [hown, Option.none_or] at hkey
      rw [hurl, Option.getD_none]
      right
      cases hfind : providers.find? (·.enabled) with
      | none =>
        rw [resolveEffectiveLlm_of_none hfind] at hkey ⊢
        exact hlegacy key hkey
      | some p =>
        rw [resolveEffectiveLlm_of_some legacy hfind] at hkey ⊢
        exact hproviders p (List.mem_of_find?_eq_some hfind) key hkey
    · rw [hown] at hset
      cases hset

end
end DeepseekScience.Api.SettingsEndpoints
