import DeepseekScience.Api.PatchedRoot
import DeepseekScience.Lib.Runs

/-! Where each credential was submitted or first stored, as a ledger next to the state, and what
it means that files and runtimes keep to it. -/
namespace DeepseekScience.Api.SettingsEndpoints

open DeepseekScience.Core DeepseekScience.A2a Net

section
/-! Addresses that are the same place. -/

variable (lib : SettingsLib)

/-- Scheme, host, port, path and query are the same, however the addresses are spelled. -/
def SamePlace (left right : Text) : Prop :=
  trim left = trim right ∨
    ∃ a b, normalizedProviderUrl lib left = some a ∧ normalizedProviderUrl lib right = some b ∧
      eqIgnoreAsciiCase a.scheme b.scheme = true ∧
      a.host.map toAsciiLowercase = b.host.map toAsciiLowercase ∧
      a.portOrKnownDefault = b.portOrKnownDefault ∧ a.path = b.path ∧ a.query = b.query

/-- The paths of two addresses are the same to the letter, trailing slashes included. -/
def SamePath (left right : Text) : Prop :=
  ∀ a b, normalizedProviderUrl lib left = some a → normalizedProviderUrl lib right = some b →
    a.path = b.path

variable {lib} {u v w : Text}

theorem normalizedProviderUrl_congr (h : trim u = trim v) :
    normalizedProviderUrl lib u = normalizedProviderUrl lib v := by
  rw [normalizedProviderUrl, normalizedProviderUrl, h]

theorem SamePlace.of_trim (h : trim u = trim v) : SamePlace lib u v := .inl h

theorem samePlace_trim_right : SamePlace lib u (trim v) ↔ SamePlace lib u v := by
  rw [SamePlace, SamePlace, trim_trim, normalizedProviderUrl_congr (trim_trim v)]

theorem SamePlace.trans (huv : SamePlace lib u v) (hvw : SamePlace lib v w) :
    SamePlace lib u w := by
  obtain huv | ⟨a, b, ha, hb, hscheme, hhost, hport, hpath, hquery⟩ := huv
  · obtain hvw | ⟨b, c, hb, hrest⟩ := hvw
    · exact .inl (huv.trans hvw)
    · exact .inr ⟨b, c, (normalizedProviderUrl_congr huv).trans hb, hrest⟩
  · obtain hvw | ⟨b', c, hb', hc, hscheme', hhost', hport', hpath', hquery'⟩ := hvw
    · exact .inr ⟨a, b, ha, (normalizedProviderUrl_congr hvw).symm.trans hb, hscheme, hhost, hport,
        hpath, hquery⟩
    · obtain rfl := Option.some.inj (hb.symm.trans hb')
      refine .inr ⟨a, c, ha, hc, ?_, hhost.trans hhost', hport.trans hport', hpath.trans hpath',
        hquery.trans hquery'⟩
      simp only [eqIgnoreAsciiCase, beq_iff_eq] at hscheme hscheme' ⊢
      exact hscheme.trans hscheme'

/-- What passes for one authority is one place, up to slashes at the end of the path. -/
theorem samePlace_of_sameProviderAuthority (h : sameProviderAuthority lib u v = true)
    (hpath : SamePath lib u v) : SamePlace lib u v := by
  rw [sameProviderAuthority] at h
  cases ha : normalizedProviderUrl lib u with
  | none => simp [ha] at h
  | some a =>
    cases hb : normalizedProviderUrl lib v with
    | none => simp [ha, hb] at h
    | some b =>
      simp only [ha, hb, Bool.and_eq_true, beq_iff_eq] at h
      obtain ⟨⟨⟨⟨hscheme, hhost⟩, hport⟩, -⟩, hquery⟩ := h
      exact .inr ⟨a, b, ha, hb, hscheme, hhost, hport, hpath a b ha hb, hquery⟩

end

section
/-! The ledger. -/

structure TokenEntry where
  id : Text
  endpoint : Text
  token : Text

/-- Keys with the addresses, and tokens with the agents and addresses, that they were given for. -/
structure Ledger where
  keys : List (Text × Text) := []
  tokens : List TokenEntry := []

variable (lib : SettingsLib)

def Ledger.HasKey (ledger : Ledger) (key url : Text) : Prop :=
  ∃ entry ∈ ledger.keys, entry.1 = key ∧ SamePlace lib entry.2 url

def Ledger.HasToken (ledger : Ledger) (id endpoint token : Text) : Prop :=
  ∃ entry ∈ ledger.tokens, entry.token = token ∧ trim entry.id = trim id ∧
    trim entry.endpoint = trim endpoint

def submittedKeys (form : AppSettingsPayload) : List (Text × Text) :=
  form.providers.filterMap fun p => (givenText p.apiKey).map fun key => (key, p.baseUrl)

def submittedTokens (form : AppSettingsPayload) : List TokenEntry :=
  form.a2aAgents.filterMap fun agent =>
    (givenText agent.bearerToken).map fun token => ⟨agent.id, agent.endpoint, token⟩

/-- The form asks for the token of the agent to be removed. -/
def removesToken (form : AppSettingsPayload) (id : Text) : Bool :=
  form.a2aAgents.any fun agent => agent.clearBearerToken && trim agent.id == trim id

/-- An accepted form: its credentials are entered, and the tokens that it removes are struck. -/
def Ledger.record (ledger : Ledger) (form : AppSettingsPayload) : Ledger where
  keys := submittedKeys form ++ ledger.keys
  tokens := submittedTokens form ++ ledger.tokens.filter fun entry => !removesToken form entry.id

/-- What layers of settings say of the keys of providers, and of the legacy one, and of tokens. -/
def layersLedger (layers : Layers) : Ledger where
  keys := (effectiveProviders layers ++ providersFromLegacyLlm layers.llm).filterMap fun p =>
    p.apiKey.map fun key => (key, p.baseUrl)
  tokens := layers.a2aAgents.filterMap fun agent =>
    agent.bearerToken.map fun token => ⟨agent.id, agent.endpoint, token⟩

/-- What is first stored: in `config.toml`, and in `settings.json` over it. -/
def firstLedger (config : Option FileSettings) (file : FileSettings) : Ledger where
  keys := (layersLedger (stackLayers lib config file)).keys ++
    (layersLedger (stackLayers lib config {})).keys
  tokens := (layersLedger (stackLayers lib config file)).tokens ++
    (layersLedger (stackLayers lib config {})).tokens

variable {lib} {ledger more : Ledger} {key url other id endpoint token : Text}
  {form : AppSettingsPayload}

theorem Ledger.HasKey.place (h : ledger.HasKey lib key url) (hplace : SamePlace lib url other) :
    ledger.HasKey lib key other := by
  obtain ⟨entry, hmem, hkey, hentry⟩ := h
  exact ⟨entry, hmem, hkey, hentry.trans hplace⟩

theorem Ledger.HasKey.record (h : ledger.HasKey lib key url) :
    (ledger.record form).HasKey lib key url := by
  obtain ⟨entry, hmem, hentry⟩ := h
  exact ⟨entry, List.mem_append_right _ hmem, hentry⟩

theorem hasKey_submitted {p : ProviderSettings} (hp : p ∈ form.providers)
    (hkey : givenText p.apiKey = some key) : (ledger.record form).HasKey lib key p.baseUrl := by
  refine ⟨(key, p.baseUrl), List.mem_append_left _ ?_, rfl, .of_trim rfl⟩
  exact List.mem_filterMap.mpr ⟨p, hp, by simp [hkey]⟩

theorem Ledger.HasToken.record (h : ledger.HasToken id endpoint token)
    (hkept : removesToken form id = false) : (ledger.record form).HasToken id endpoint token := by
  obtain ⟨entry, hmem, htoken, hid, hendpoint⟩ := h
  refine ⟨entry, List.mem_append_right _ (List.mem_filter.mpr ⟨hmem, ?_⟩), htoken, hid, hendpoint⟩
  have hsame : removesToken form entry.id = removesToken form id := by
    rw [removesToken, removesToken, hid]
  simp [hsame, hkept]

theorem hasToken_submitted {agent : A2aAgentSettings} (hagent : agent ∈ form.a2aAgents)
    (htoken : givenText agent.bearerToken = some token) :
    (ledger.record form).HasToken agent.id agent.endpoint token := by
  refine ⟨⟨agent.id, agent.endpoint, token⟩, List.mem_append_left _ ?_, rfl, rfl, rfl⟩
  exact List.mem_filterMap.mpr ⟨agent, hagent, by simp [htoken]⟩

/-- A token that is asked to be removed is not in the ledger any more, but where the form itself
enters it again. -/
theorem not_hasToken_of_removed (hremoved : removesToken form id = true)
    (hnone : ∀ agent ∈ form.a2aAgents, trim agent.id = trim id → givenText agent.bearerToken = none) :
    ¬ (ledger.record form).HasToken id endpoint token := by
  rintro ⟨entry, hmem, -, hid, -⟩
  obtain hnew | hold := List.mem_append.mp hmem
  · obtain ⟨agent, hagent, hentry⟩ := List.mem_filterMap.mp hnew
    obtain ⟨given, hgiven, rfl⟩ := Option.map_eq_some_iff.mp hentry
    simp [hnone agent hagent hid] at hgiven
  · have hkept := (List.mem_filter.mp hold).2
    have hsame : removesToken form entry.id = removesToken form id := by
      rw [removesToken, removesToken, hid]
    simp [hsame, hremoved] at hkept

end

section
/-! What keeps to the ledger. -/

variable (lib : SettingsLib) (env : Environment) (ledger : Ledger)

/-- What the text of `settings.json` says. -/
def settingsFile (dir : DataDir) : Option FileSettings :=
  match dir.settingsJson with
  | .absent => some {}
  | .json root => decodeFileSettings root
  | _ => none

/-- Every credential of a file stands next to an address that it was given for. -/
structure FileBound (file : FileSettings) : Prop where
  providers : ∀ p ∈ file.providers.getD [], ∀ key url, p.apiKey = some key → key ≠ [] →
    p.baseUrl = some url → ledger.HasKey lib key url
  llm : ∀ key url, file.llm.apiKey = some key → key ≠ [] → file.llm.baseUrl = some url →
    ledger.HasKey lib key url
  agents : ∀ agent ∈ file.a2aAgents.getD [], ∀ token, agent.bearerToken = some token →
    ledger.HasToken agent.id agent.endpoint token

/-- And so does every credential of a runtime, but for a key of the environment. -/
structure RuntimeBound (runtime : AppRuntimeSnapshot) : Prop where
  llm : ∀ key, runtime.llm.settings.apiKey = some key →
    envOverride env "DEEPSEEK_API_KEY".toList = some key ∨
      ledger.HasKey lib key runtime.llm.settings.baseUrl
  agents : ∀ config ∈ runtime.a2a.configs, ∀ token, config.bearerToken = some token →
    ledger.HasToken config.id config.endpoint token

/-- The state of the server, with the ledger of the forms that it has accepted. -/
structure Ledgered where
  state : AppState
  ledger : Ledger

structure CredentialsBound (s : Ledgered) : Prop where
  file : ∃ file, settingsFile s.state.dir = some file ∧ FileBound lib s.ledger file
  runtime : RuntimeBound lib env s.ledger s.state.runtime

end
end DeepseekScience.Api.SettingsEndpoints
