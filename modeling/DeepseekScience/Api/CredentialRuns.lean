import DeepseekScience.Api.CredentialBinding

/-! The invariant of a run of saves: files and runtimes keep to the ledger, and the next save reads
what the last one has left. -/
namespace DeepseekScience.Api.SettingsEndpoints

open DeepseekScience.Core DeepseekScience.A2a Net Transactions

section
/-! One save. -/

variable {lib : ServerLib} {env : Environment} {surroundings : Surroundings} {state : AppState}
  {form : AppSettingsPayload} {s : Ledgered}

theorem resolveCandidate_ok {root : Json} {apiKeys : List (Text × Text)} {candidate : Candidate}
    (h : resolveCandidate lib env surroundings state root apiKeys = .ok candidate) :
    ∃ resolved agents,
      resolveCandidateLlm lib.toSettingsLib state.dir env root = .ok resolved ∧
      resolvePersistedCandidateA2aAgents lib.toSettingsLib state.dir root = .ok agents ∧
      candidate.runtime.llm.settings = resolved.llm ∧
      candidate.runtime.a2a.configs = agents := by
  rw [resolveCandidate] at h
  split_ifs at h
  obtain ⟨providers, -, h⟩ := bind_eq_ok.mp h
  obtain ⟨persisted, -, h⟩ := bind_eq_ok.mp h
  obtain ⟨resolved, hresolved, h⟩ := bind_eq_ok.mp h
  obtain ⟨agents, hagents, h⟩ := bind_eq_ok.mp h
  obtain ⟨skills, -, h⟩ := bind_eq_ok.mp h
  obtain ⟨thinking, -, h⟩ := bind_eq_ok.mp h
  obtain ⟨maxIterations, -, h⟩ := bind_eq_ok.mp h
  obtain ⟨servers, -, h⟩ := bind_eq_ok.mp h
  cases hunrefreshed : A2aRuntimeSnapshot.unrefreshed lib.agents (state.runtime.revision + 1)
      agents with
  | error error =>
    rw [hunrefreshed] at h
    cases h
  | ok unrefreshed =>
    rw [hunrefreshed] at h
    cases h
    refine ⟨resolved, agents, ofCore_eq_ok.mp hresolved, ofCore_eq_ok.mp hagents, rfl, ?_⟩
    simp [(unrefreshed_ok hunrefreshed).2]

/-- The new root of an accepted form reads again, within the limits that the old one keeps. -/
theorem patched_of_partsOf {config : Option FileSettings} {base : FileSettings}
    {members : List (Text × Json)} {storedAgents : List A2aAgentConfig} {stored : List LlmProvider}
    {parts : SavedParts} (hform : checkForm lib.toSettingsLib form = .ok ())
    (hreads : ReadsAs members base) (hrange : BudgetsInRange config base)
    (hparts : PartsOf lib surroundings form storedAgents stored parts) :
    ∃ next, decodeFileSettings (.object (patchRoot members parts)) = some next ∧
      Patched parts base next ∧ BudgetsInRange config next := by
  obtain ⟨hlower, hupper⟩ := hrange
  obtain ⟨next, hnext, hpatched⟩ := decode_patchRoot hreads (hparts.fits hform)
  refine ⟨next, hnext, hpatched, hlower, ?_⟩
  intro value hvalue
  rw [hpatched.maxIterations, hparts.maxIterations] at hvalue
  cases hgiven : form.maxIterations with
  | none =>
    rw [hgiven, Option.none_or] at hvalue
    exact hupper value hvalue
  | some given =>
    rw [hgiven] at hvalue
    obtain rfl := Option.some.inj hvalue
    exact validateMaxIterations_of_checkForm hform hgiven

/-- A careful save that is accepted leaves the invariant. -/
theorem Sound.save {root : Json} {candidate : Candidate} (henv : AddressWithKey env)
    (hs : Sound lib env s) (hcareful : CarefulSave lib s.state form)
    (h : prepareSave lib env surroundings s.state form = .ok (root, candidate)) :
    Sound lib env ⟨s.state.commit root candidate.runtime, s.ledger.record form⟩ := by
  obtain ⟨config, members, base, hconfig, hroot, hreads, hrange, hstored⟩ := hs.stored
  obtain ⟨members', parts, hform, hroot', hparts, rfl, hcandidate⟩ := prepareSave_ok h
  obtain rfl := Except.ok.inj (hroot.symm.trans hroot')
  have hbase := decodeFileSettings_object.mpr hreads
  obtain ⟨storedAgents, stored, hagents, hproviders, hpartsOf⟩ := formParts_ok hparts
  have hstoredAgents := Except.ok.inj
    (hagents.symm.trans (resolvePersistedCandidateA2aAgents_ok hconfig hbase))
  have hstoredProviders := Except.ok.inj
    (hproviders.symm.trans (resolveCandidateProviders_ok hconfig hbase))
  have hbound : PartsBound lib.toSettingsLib (s.ledger.record form) base parts := by
    constructor
    · refine hasKey_of_providerConfigs hpartsOf.providers ?_
        (hcareful.samePath members stored hroot hproviders)
      rw [hstoredProviders]
      exact hstored.providers
    · refine hasToken_of_agentConfigs hpartsOf.agents ?_
      rw [hstoredAgents]
      exact hstored.agents
    · intro hnone key hkey
      obtain ⟨submitted, hsubmitted, hurl, hown, henabled⟩ := providerConfigs_ok
        hpartsOf.providers _ (List.mem_of_find?_eq_some hpartsOf.selected)
      have hon : submitted.enabled = true := by
        rw [← henabled]
        exact List.find?_some hpartsOf.selected
      rw [hurl]
      obtain hsome | hgone | hplace := hcareful.legacy members base _ stored hroot hbase
        (candidateLayers_ok hconfig hbase) hproviders submitted hsubmitted hon
      · rw [← hown, hnone] at hsome
        cases hsome
      · rw [hgone] at hkey
        cases hkey
      · exact ((hstored.legacy key hkey).place (samePlace_trim_right.mpr hplace)).record
  obtain ⟨next, hnext, hpatched, hrange'⟩ := patched_of_partsOf hform hreads hrange hpartsOf
  have hleft : StoredBound lib.toSettingsLib (s.ledger.record form) config next :=
    .of_patched hbound hpatched hpartsOf.selected
  obtain ⟨resolved, agents, hresolved, hruntimeAgents, hllm, hconfigs⟩ :=
    resolveCandidate_ok hcandidate
  obtain rfl := Except.ok.inj (hresolved.symm.trans (resolveCandidateLlm_ok hconfig hnext))
  have hkept := Except.ok.inj
    (hruntimeAgents.symm.trans (resolvePersistedCandidateA2aAgents_ok hconfig hnext))
  refine ⟨⟨⟨next, hnext, .of_stored hleft⟩, ?_, ?_⟩,
    config, _, next, hconfig, rfl, decodeFileSettings_object.mp hnext, hrange', hleft⟩
  · show ∀ key, candidate.runtime.llm.settings.apiKey = some key → _ ∨
      (s.ledger.record form).HasKey _ key candidate.runtime.llm.settings.baseUrl
    rw [hllm]
    exact fun key hkey => key_applyEnvLlm henv hleft.providers (fun _ hnone => by cases hnone) hkey
  · show ∀ config ∈ candidate.runtime.a2a.configs, _
    rw [hconfigs, hkept]
    exact hleft.agents

theorem saveSettings_cases (lib : ServerLib) (env : Environment) (surroundings : Surroundings)
    (state : AppState) (form : AppSettingsPayload) :
    (∃ error, saveSettings lib env surroundings state form = (.error error, state)) ∨
      ∃ root candidate, prepareSave lib env surroundings state form = .ok (root, candidate) ∧
        saveSettings lib env surroundings state form =
          (.ok (enrichServers surroundings
            (publicSettings lib (state.commit root candidate.runtime) candidate.providers
              candidate.llm candidate.skills candidate.mcpServers)),
            state.commit root candidate.runtime) := by
  rw [saveSettings]
  cases hprepare : prepareSave lib env surroundings state form with
  | error error => exact .inl ⟨error, rfl⟩
  | ok prepared =>
    obtain ⟨root, candidate⟩ := prepared
    cases hwrite : surroundings.writeFile with
    | error message => exact .inl ⟨.io message, rfl⟩
    | ok _ => exact .inr ⟨root, candidate, rfl, rfl⟩

theorem Sound.step (henv : AddressWithKey env) (hs : Sound lib env s) {request : SettingsRequest}
    (hcareful : Careful lib s request) : Sound lib env (s.step lib env request) := by
  cases request with
  | save surroundings form =>
    rw [Ledgered.step]
    obtain ⟨error, hsave⟩ | ⟨root, candidate, hprepare, hsave⟩ :=
      saveSettings_cases lib env surroundings s.state form
    · rw [hsave]
      exact hs
    · rw [hsave]
      exact hs.save henv hcareful hprepare
  | refresh refreshCard =>
    obtain ⟨⟨hfile, hruntime⟩, hstored⟩ := hs
    refine ⟨⟨hfile, hruntime.llm, ?_⟩, hstored⟩
    show ∀ config ∈ (s.state.runtime.a2a.refreshAll refreshCard).configs, _
    rw [refreshAll_configs]
    exact hruntime.agents

end

section
/-! The start. -/

variable {lib : SettingsLib} {env : Environment} {dir : DataDir} {settings : Settings}
  {config : Option FileSettings} {file base : FileSettings} {ledger : Ledger}

/-- A file that says nothing changes no layer. -/
theorem applyTo_empty (lib : SettingsLib) (layers : Layers) :
    ({} : FileSettings).applyTo lib layers = layers := rfl

/-- What the loader has read, and how the settings come from it. -/
structure StartedFrom (lib : SettingsLib) (env : Environment) (dir : DataDir)
    (config : Option FileSettings) (file : FileSettings) (settings : Settings) : Prop where
  reads : readConfigToml lib dir = .ok config
  decodes : settingsFile dir = some file
  inRange : BudgetsInRange config file
  llm : settings.llm = applyEnvLlm env
    (resolveEffectiveLlm (effectiveProviders (stackLayers lib config file))
      (stackLayers lib config file).llm)
  a2aAgents : settings.a2aAgents = (stackLayers lib config file).a2aAgents

theorem startedFrom_of_load (h : loadFromDataDir lib dir env = .ok settings) :
    ∃ config file, StartedFrom lib env dir config file settings := by
  cases hjson : dir.settingsJson with
  | json candidate =>
    obtain ⟨config, file, hconfig, hfile, hrange, hservers⟩ := loadFromDataDir_inv hjson h
    obtain ⟨settings', hload, hfrom⟩ := loadFromDataDir_ok env hconfig hjson hfile hrange hservers
    obtain rfl := Except.ok.inj (h.symm.trans hload)
    exact ⟨config, file, hconfig, by rw [settingsFile, hjson]; exact hfile, hrange, hfrom.llm,
      hfrom.a2aAgents⟩
  | absent =>
    rw [loadFromDataDir] at h
    obtain ⟨config, hconfig, h⟩ := bind_eq_ok.mp h
    obtain ⟨state, hstate, h⟩ := bind_eq_ok.mp h
    obtain ⟨read, hread, h⟩ := bind_eq_ok.mp h
    obtain ⟨state', hstate', h⟩ := bind_eq_ok.mp h
    rw [readSettingsFile, hjson] at hread
    cases hread
    cases hstate'
    rw [settleLoad] at h
    obtain ⟨⟨⟩, -, h⟩ := bind_eq_ok.mp h
    cases h
    have hrange : BudgetsInRange config {} := by
      constructor
      · rintro lower value rfl
        exact load_file_inv hstate value
      · intro value hvalue
        cases hvalue
    have hlayers : state.layers = stackLayers lib config {} := by
      obtain ⟨loadedState, hloaded, -, -, hlayers⟩ := loadFile_config_ok lib {} hrange.1
      rw [hstate] at hloaded
      cases hloaded
      exact hlayers
    refine ⟨config, {}, hconfig, by rw [settingsFile, hjson], hrange, ?_, ?_⟩
    · rw [← hlayers]
      rfl
    · rw [← hlayers]
  | unreadable message =>
    rw [loadFromDataDir] at h
    obtain ⟨_, -, h⟩ := bind_eq_ok.mp h
    obtain ⟨_, -, h⟩ := bind_eq_ok.mp h
    obtain ⟨_, hread, -⟩ := bind_eq_ok.mp h
    rw [readSettingsFile, hjson] at hread
    cases hread
  | malformed message =>
    rw [loadFromDataDir] at h
    obtain ⟨_, -, h⟩ := bind_eq_ok.mp h
    obtain ⟨_, -, h⟩ := bind_eq_ok.mp h
    obtain ⟨_, hread, -⟩ := bind_eq_ok.mp h
    rw [readSettingsFile, hjson] at hread
    cases hread

/-- The ledger of a server that starts. -/
def startLedger (lib : SettingsLib) (dir : DataDir) : Ledger :=
  match readConfigToml lib dir, settingsFile dir with
  | .ok config, some file => firstLedger lib config file
  | _, _ => {}

def start (lib : ServerLib) (dir : DataDir) (settings : Settings) : Ledgered where
  state := buildState lib dir settings
  ledger := startLedger lib.toSettingsLib dir

theorem hasKey_of_layersLedger (lib : SettingsLib) {layers : Layers}
    (hkeys : (layersLedger layers).keys ⊆ ledger.keys) :
    ∀ p ∈ effectiveProviders layers ++ providersFromLegacyLlm layers.llm, ∀ key,
      p.apiKey = some key → ledger.HasKey lib key p.baseUrl := by
  intro p hp key hkey
  refine ⟨(key, p.baseUrl), hkeys ?_, rfl, .of_trim rfl⟩
  exact List.mem_filterMap.mpr ⟨p, hp, by simp [hkey]⟩

theorem storedBound_of_layersLedger
    (hkeys : (layersLedger (stackLayers lib config base)).keys ⊆ ledger.keys)
    (htokens : (layersLedger (stackLayers lib config base)).tokens ⊆ ledger.tokens) :
    StoredBound lib ledger config base := by
  have hpair := hasKey_of_layersLedger lib hkeys
  constructor
  · exact fun p hp => hpair p (List.mem_append_left _ hp)
  · intro agent hagent token htoken
    refine ⟨⟨agent.id, agent.endpoint, token⟩, htokens ?_, rfl, rfl, rfl⟩
    exact List.mem_filterMap.mpr ⟨agent, hagent, by simp [htoken]⟩
  · intro key hkey
    refine hpair _ (List.mem_append_right _ (List.mem_singleton.mpr rfl)) key ?_
    show (stackLayers lib config base).llm.apiKey = some key
    rw [stackLayers_llm, hkey, Option.some_or]

end

/-- A server that has started is sound. -/
theorem sound_start {lib : ServerLib} {env : Environment} {dir : DataDir} {settings : Settings}
    (henv : AddressWithKey env)
    (h : loadFromDataDir lib.toSettingsLib dir env = .ok settings) :
    Sound lib env (start lib dir settings) := by
  obtain ⟨config, file, hstarted⟩ := startedFrom_of_load h
  have hledger : startLedger lib.toSettingsLib dir = firstLedger lib.toSettingsLib config file := by
    rw [startLedger, hstarted.reads, hstarted.decodes]
  have hkeys : (layersLedger (stackLayers lib.toSettingsLib config file)).keys ⊆
      (start lib dir settings).ledger.keys := by
    rw [start, hledger]
    exact List.subset_append_left _ _
  have hfile : StoredBound lib.toSettingsLib (start lib dir settings).ledger config file := by
    refine storedBound_of_layersLedger hkeys ?_
    rw [start, hledger]
    exact List.subset_append_left _ _
  have hlower : BudgetsInRange config {} := ⟨hstarted.inRange.1, fun _ hnone => by cases hnone⟩
  have hempty : StoredBound lib.toSettingsLib (start lib dir settings).ledger config {} := by
    rw [start, hledger]
    exact storedBound_of_layersLedger (List.subset_append_right _ _) (List.subset_append_right _ _)
  have hnothing : ReadsAs [] ({} : FileSettings) := decodeFileSettings_object.mp rfl
  refine ⟨⟨⟨file, hstarted.decodes, .of_stored hfile⟩, ?_, ?_⟩, ?_⟩
  · show ∀ key, settings.llm.apiKey = some key → _ ∨
      (start lib dir settings).ledger.HasKey _ key settings.llm.baseUrl
    rw [hstarted.llm]
    intro key hkey
    have hlegacy := hasKey_of_layersLedger lib.toSettingsLib hkeys _
      (List.mem_append_right _ (List.mem_singleton.mpr rfl))
    exact key_applyEnvLlm henv hfile.providers hlegacy hkey
  · have hconfigs : (start lib dir settings).state.runtime.a2a.configs = settings.a2aAgents := by
      simp [start, buildState, A2aRuntimeSnapshot.configs, initialAgent, Function.comp_def]
    rw [hconfigs, hstarted.a2aAgents]
    exact hfile.agents
  · have hdecodes := hstarted.decodes
    rw [settingsFile] at hdecodes
    show ∃ config members base, readConfigToml lib.toSettingsLib dir = .ok config ∧
      readRoot dir = .ok members ∧ _
    cases hjson : dir.settingsJson with
    | absent =>
      exact ⟨config, [], {}, hstarted.reads, by rw [readRoot, hjson], hnothing, hlower, hempty⟩
    | unreadable message =>
      rw [hjson] at hdecodes
      cases hdecodes
    | malformed message =>
      rw [hjson] at hdecodes
      cases hdecodes
    | json root =>
      rw [hjson] at hdecodes
      cases root with
      | object members =>
        exact ⟨config, members, file, hstarted.reads, by rw [readRoot, hjson],
          decodeFileSettings_object.mp hdecodes, hstarted.inRange, hfile⟩
      | _ =>
        exact ⟨config, [], {}, hstarted.reads, by rw [readRoot, hjson], hnothing, hlower, hempty⟩

end DeepseekScience.Api.SettingsEndpoints
