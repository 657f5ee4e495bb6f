import DeepseekScience.Api.SettingsAnswers

/-! Credentials over whole runs of the settings endpoints: where they stand, and what the answers
tell of them. -/
namespace DeepseekScience.Api.SettingsEndpoints

open DeepseekScience.Core DeepseekScience.A2a Net Transactions

section
/-! Answers in a sound state. -/

variable {lib : ServerLib} {env : Environment} {surroundings : Surroundings} {state : AppState}
  {form : AppSettingsPayload} {s : Ledgered}

theorem lookup_skills_patchRoot (members : List (Text × Json)) (parts : SavedParts) :
    (Json.object (patchRoot members parts)).get? "skills".toList =
      some (encodeSkills parts.skills) := by
  simp [Json.get?, patchRoot]

theorem Sound.refusal_discreet (hs : Sound lib env s) {error : SettingsError}
    (h : (saveSettings lib env surroundings s.state form).1 = .error error) :
    error.Discreet lib s.state.dir surroundings form := by
  obtain ⟨config, members, base, hconfig, hroot, hreads, hrange, -⟩ := hs.stored
  have hbase := decodeFileSettings_object.mpr hreads
  rw [saveSettings] at h
  cases hprepare : prepareSave lib env surroundings s.state form with
  | ok prepared =>
    rw [hprepare] at h
    cases hwrite : surroundings.writeFile with
    | ok _ =>
      simp only [hwrite] at h
      cases h
    | error message =>
      simp only [hwrite] at h
      cases h
      exact .inr hwrite
  | error refusal =>
    rw [hprepare] at h
    cases h
    rw [prepareSave] at hprepare
    obtain hform | ⟨⟨⟩, hform, hprepare⟩ := bind_eq_error.mp hprepare
    · exact discreet_of_checkForm hform
    split_ifs at hprepare
    · cases hprepare
      trivial
    cases hdirectory : surroundings.ensureDirectory with
    | error message =>
      rw [hdirectory] at hprepare
      cases hprepare
      exact .inl hdirectory
    | ok _ =>
      rw [hdirectory, hroot] at hprepare
      obtain hnone | ⟨_, hread, hprepare⟩ := bind_eq_error.mp hprepare
      · cases hnone
      obtain rfl := Except.ok.inj hread
      obtain hparts | ⟨parts, hparts, hprepare⟩ := bind_eq_error.mp hprepare
      · exact discreet_of_formParts hconfig hbase hparts
      obtain hcandidate | ⟨candidate, -, hprepare⟩ := bind_eq_error.mp hprepare
      · obtain ⟨storedAgents, stored, -, -, hpartsOf⟩ := formParts_ok hparts
        obtain ⟨next, hnext, -, hrange'⟩ := patched_of_partsOf hform hreads hrange hpartsOf
        exact discreet_of_resolveCandidate hconfig hnext hrange'
          (lookup_skills_patchRoot members parts) hcandidate
      · cases hprepare

/-- What is shown when the settings are asked for. -/
def ShownDiscreetly (lib : ServerLib) (state : AppState) : Prop :=
  ∀ surroundings : Surroundings,
    (∀ payload, getSettings lib surroundings state = .ok payload →
      payload.Discreet lib surroundings state) ∧
    ∀ error, getSettings lib surroundings state = .error error →
      CoreDiscreet lib.toSettingsLib state.dir error

theorem Sound.shownDiscreetly (hs : Sound lib env s) : ShownDiscreetly lib s.state := by
  intro surroundings
  obtain ⟨⟨⟨file, hfile, -⟩, -⟩, config, -, -, hconfig, -⟩ := hs
  have hroot : ∃ root, readSettingsJson s.state.dir = .ok root ∧
      decodeFileSettings root = some file ∧
      ∀ configured, root.get? "skills".toList = some configured →
        s.state.dir.settingsJson = .json root := by
    rw [settingsFile] at hfile
    cases hjson : s.state.dir.settingsJson with
    | absent =>
      rw [hjson] at hfile
      exact ⟨.object [], by rw [readSettingsJson, hjson], hfile, fun _ hget => by cases hget⟩
    | json root =>
      rw [hjson] at hfile
      exact ⟨root, by rw [readSettingsJson, hjson], hfile, fun _ _ => rfl⟩
    | unreadable message =>
      rw [hjson] at hfile
      cases hfile
    | malformed message =>
      rw [hjson] at hfile
      cases hfile
  obtain ⟨root, hroot, hdecode, hskills⟩ := hroot
  constructor
  · intro payload h
    rw [getSettings] at h
    obtain ⟨providers, -, h⟩ := bind_eq_ok.mp h
    obtain ⟨llm, -, h⟩ := bind_eq_ok.mp h
    obtain ⟨skills, -, h⟩ := bind_eq_ok.mp h
    obtain ⟨servers, -, h⟩ := bind_eq_ok.mp h
    cases h
    exact discreet_publicSettings lib surroundings s.state providers llm skills servers
  · intro error h
    rw [getSettings] at h
    obtain h | ⟨providers, -, h⟩ := bind_eq_error.mp h
    · rw [reloadPersistedProviders, hroot] at h
      exact absurd (h.symm.trans (resolveCandidateProviders_ok hconfig hdecode)) (by simp)
    obtain h | ⟨llm, -, h⟩ := bind_eq_error.mp h
    · rw [reloadPersistedLlm, hroot] at h
      exact absurd (h.symm.trans (resolvePersistedCandidateLlm_ok hconfig hdecode)) (by simp)
    obtain h | ⟨skills, -, h⟩ := bind_eq_error.mp h
    · rw [reloadPersistedSkills, hroot] at h
      obtain htoml | ⟨configured, hget, -, rfl⟩ := skills_error hconfig h
      · exact .inr (.inl htoml)
      · exact .inr (.inr ⟨root, configured, hskills configured hget, hget, rfl⟩)
    obtain h | ⟨servers, -, h⟩ := bind_eq_error.mp h
    · rw [reloadPersistedMcpServers, hroot] at h
      exact .inl (servers_error hconfig hdecode h)
    · cases h

/-- What a save answers, and what it leaves of the tokens that it is asked to remove. -/
structure SavedDiscreetly (lib : ServerLib) (env : Environment) (s : Ledgered)
    (surroundings : Surroundings) (form : AppSettingsPayload) : Prop where
  settings : ∀ payload, (saveSettings lib env surroundings s.state form).1 = .ok payload →
    payload.Discreet lib surroundings (saveSettings lib env surroundings s.state form).2
  refusal : ∀ error, (saveSettings lib env surroundings s.state form).1 = .error error →
    error.Discreet lib s.state.dir surroundings form
  removed : ∀ payload, (saveSettings lib env surroundings s.state form).1 = .ok payload →
    ∀ agent ∈ form.a2aAgents, agent.clearBearerToken = true →
      ∀ endpoint token, ¬ (s.step lib env (.save surroundings form)).ledger.HasToken agent.id
        endpoint token

/-- An accepted form has each agent once. -/
theorem ids_of_prepareSave {root : Json} {candidate : Candidate}
    (h : prepareSave lib env surroundings state form = .ok (root, candidate)) :
    (form.a2aAgents.map fun agent => trim agent.id).Nodup ∧
      ∀ agent ∈ form.a2aAgents, agent.clearBearerToken = true →
        givenText agent.bearerToken = none := by
  obtain ⟨members, parts, -, -, hparts, -⟩ := prepareSave_ok h
  obtain ⟨storedAgents, stored, -, -, hpartsOf⟩ := formParts_ok hparts
  obtain ⟨hconfigs, hvalid, hboth⟩ := agentConfigs_ok hpartsOf.agents
  refine ⟨?_, hboth⟩
  have hnodup := (validateConfigs_ok hvalid).1
  rwa [hconfigs, List.map_map] at hnodup

theorem Sound.savedDiscreetly (hs : Sound lib env s) (surroundings : Surroundings)
    (form : AppSettingsPayload) : SavedDiscreetly lib env s surroundings form := by
  refine ⟨?_, fun error h => hs.refusal_discreet h, ?_⟩
  · intro payload h
    obtain ⟨error, hsave⟩ | ⟨root, candidate, -, hsave⟩ :=
      saveSettings_cases lib env surroundings s.state form
    · rw [hsave] at h
      cases h
    · rw [hsave] at h ⊢
      cases h
      exact discreet_publicSettings lib surroundings _ _ _ _ _
  · intro payload h agent hagent hclear endpoint token
    obtain ⟨error, hsave⟩ | ⟨root, candidate, hprepare, hsave⟩ :=
      saveSettings_cases lib env surroundings s.state form
    · rw [hsave] at h
      cases h
    · obtain ⟨hnodup, hboth⟩ := ids_of_prepareSave hprepare
      have hledger : (s.step lib env (.save surroundings form)).ledger = s.ledger.record form := by
        rw [Ledgered.step, hsave]
      rw [hledger]
      apply not_hasToken_of_removed
      · exact List.any_eq_true.mpr ⟨agent, hagent, by simp [hclear]⟩
      · intro other hother hid
        rw [List.inj_on_of_nodup_map hnodup hother hagent hid]
        exact hboth agent hagent hclear

end

/-- Files and runtimes keep to the ledger, and the settings are shown without credentials. -/
structure Kept (lib : ServerLib) (env : Environment) (s : Ledgered) : Prop where
  bound : CredentialsBound lib.toSettingsLib env s
  shown : ShownDiscreetly lib s.state

def AnswersDiscreetly (lib : ServerLib) (env : Environment) (s : Ledgered) :
    SettingsRequest → Prop
  | .save surroundings form => SavedDiscreetly lib env s surroundings form
  | .refresh _ => True

section
/-! A file with a legacy key for one address, and a provider without a key for another. -/

def hostUrl (host : Text) : Url where
  scheme := "https".toList
  host := some host
  path := "/".toList

def firstAddress : Text := "https://first.example".toList

def secondAddress : Text := "https://second.example".toList

def sampleServerLib : ServerLib where
  typeMessage := fun _ => "invalid type".toList
  parseToml := fun _ => .ok {}
  parseTomlSkills := fun _ => .ok none
  parseUrl := fun t =>
    if t = firstAddress then some (hostUrl "first.example".toList)
    else if t = secondAddress then some (hostUrl "second.example".toList)
    else if t = defaultAgentRegistryUrl then some registryUrl
    else none
  toLowercase := toAsciiLowercase
  digestPrefix := fun t => t

def legacyDir : DataDir where
  path := "/data".toList
  isDefault := false
  configToml := .absent
  settingsJson := .json (.object [("llm".toList, .object
    [("api_key".toList, .string "sk-first".toList), ("base_url".toList, .string firstAddress)])])

def legacySettings : Settings where
  dataDir := "/data".toList
  dataDirIsDefault := false
  maxIterations := 100
  thinking := {}
  server := {}
  llm := { baseUrl := firstAddress, apiKey := some "sk-first".toList }
  providers := providersFromLegacyLlm
    { baseUrl := firstAddress, apiKey := some "sk-first".toList }
  llmEnvOverrides := {}
  logLevel := none
  mcpServers := defaultMcpServers
  a2aAgents := []
  memory := {}
  log := {}
  apiKeys := []

def calmSurroundings : Surroundings where
  freshId := fun _ => "fresh".toList
  ensureDirectory := .ok ()
  writeFile := .ok ()
  refreshCard := fun _ _ => .error .timeout
  serverInfo := fun _ => none

/-- The only provider is another one, with the key that is given for it. -/
def otherProvider (key : Option Text) : AppSettingsPayload where
  providers :=
    [{ id := "second".toList, name := "Second".toList, baseUrl := secondAddress, apiKey := key,
       enabled := true }]
  model := "model".toList
  defaultWorkspace := []
  logRetentionDays := 14
  logMaxRows := 100000

theorem loadFromDataDir_legacy :
    loadFromDataDir sampleServerLib.toSettingsLib legacyDir emptyEnvironment =
      .ok legacySettings := by
  rfl

def savedWithKey : SettingsRequest :=
  .save calmSurroundings (otherProvider (some "sk-second".toList))

def savedWithoutKey : SettingsRequest := .save calmSurroundings (otherProvider none)

theorem addressWithKey_empty : AddressWithKey emptyEnvironment := .inl rfl

def afterSave : Ledgered :=
  (start sampleServerLib legacyDir legacySettings).step sampleServerLib emptyEnvironment
    savedWithoutKey

theorem leaked :
    ((settingsFile afterSave.state.dir).map fun file => (file.llm.apiKey, file.llm.baseUrl)) =
      some (some "sk-first".toList, some secondAddress) := by decide +kernel

theorem keys_afterSave : afterSave.ledger.keys.map Prod.snd = [firstAddress, firstAddress] := by
  decide +kernel

theorem not_samePlace : ¬ SamePlace sampleServerLib.toSettingsLib firstAddress secondAddress := by
  intro hplace
  obtain htrim | ⟨a, b, ha, hb, -, hhost, -⟩ := hplace
  · exact absurd htrim (by decide)
  · have ha' : normalizedProviderUrl sampleServerLib.toSettingsLib firstAddress =
        some (hostUrl "first.example".toList) := rfl
    have hb' : normalizedProviderUrl sampleServerLib.toSettingsLib secondAddress =
        some (hostUrl "second.example".toList) := rfl
    obtain rfl := Option.some.inj (ha.symm.trans ha')
    obtain rfl := Option.some.inj (hb.symm.trans hb')
    exact absurd hhost (by decide)

end
end DeepseekScience.Api.SettingsEndpoints
