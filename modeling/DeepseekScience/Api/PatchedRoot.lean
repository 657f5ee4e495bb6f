import DeepseekScience.Api.SaveSettings

/-! What is read back from the root object that a save has patched. -/
namespace DeepseekScience.Api.SettingsEndpoints

open DeepseekScience.Core DeepseekScience.A2a Decode

section
/-! Members of a patched object. -/

variable {members : List (Text × Json)} {key : Text}

@[simp] theorem lookup_insertGiven (value : Option Json) (k : Text) :
    (insertGiven key value members).lookup k =
      if k = key then value.or (members.lookup k) else members.lookup k := by
  cases value with
  | none => simp [insertGiven]
  | some value =>
    simp only [insertGiven, lookup_insertEntry, Option.some_or]

@[simp] theorem lookup_removeEntry (k : Text) :
    (removeEntry key members).lookup k = if k = key then none else members.lookup k := by
  induction members with
  | nil => simp [removeEntry]
  | cons m rest ih =>
    obtain ⟨k', value⟩ := m
    rw [removeEntry] at ih
    rw [removeEntry, List.filter_cons]
    by_cases hkey : k' = key
    · subst hkey
      by_cases hk : k = k'
      · subst hk
        simpa using ih
      · simp [ih, hk, List.lookup_cons, beq_eq_false_iff_ne.mpr hk]
    · by_cases hk : k = k'
      · simp [hk, hkey]
      · simp [ih, hkey, List.lookup_cons, beq_eq_false_iff_ne.mpr hk]

theorem defaulted_of_lookup {α : Type} {default : α} {item : Json → Option α}
    (other : List (Text × Json)) (h : members.lookup key = other.lookup key) :
    defaulted key default item members = defaulted key default item other := by
  rw [defaulted, defaulted, h]

theorem defaulted_of_some {α : Type} {default : α} {item : Json → Option α} (value : Json)
    (h : members.lookup key = some value) : defaulted key default item members = item value := by
  rw [defaulted, h]

/-- Every field of an object of settings, with what is read from it. -/
structure ReadsAs (members : List (Text × Json)) (file : FileSettings) : Prop where
  maxIterations :
    defaulted "max_iterations".toList none (option u32) members = some file.maxIterations
  thinking : defaulted "thinking".toList {} decodeFileThinking members = some file.thinking
  server : defaulted "server".toList {} decodeFileServer members = some file.server
  llm : defaulted "llm".toList {} decodeFileLlm members = some file.llm
  logLevel : defaulted "log_level".toList none (option text) members = some file.logLevel
  mcpServers : defaulted "mcp_servers".toList none (option (list decodeMcpServerConfig)) members =
    some file.mcpServers
  a2aAgents : defaulted "a2a_agents".toList none (option (list decodeA2aAgentConfig)) members =
    some file.a2aAgents
  providers : defaulted "providers".toList none (option (list decodeFileLlmProvider)) members =
    some file.providers
  memory : defaulted "memory".toList none (option decodeMemorySettings) members =
    some file.memory
  log : defaulted "log".toList none (option decodeLogSettings) members = some file.log
  apiKeys : defaulted "api_keys".toList none (option textMap) members = some file.apiKeys

theorem decodeFileSettings_object {file : FileSettings} :
    decodeFileSettings (.object members) = some file ↔ ReadsAs members file := by
  simp only [decodeFileSettings, structMembers, Option.bind_eq_bind, Option.bind_some,
    Option.bind_eq_some_iff, Option.pure_def, Option.some.injEq]
  constructor
  · rintro ⟨_, h₁, _, h₂, _, h₃, _, h₄, _, h₅, _, h₆, _, h₇, _, h₈, _, h₉, _, h₁₀, _, h₁₁, rfl⟩
    exact ⟨h₁, h₂, h₃, h₄, h₅, h₆, h₇, h₈, h₉, h₁₀, h₁₁⟩
  · intro h
    exact ⟨_, h.maxIterations, _, h.thinking, _, h.server, _, h.llm, _, h.logLevel, _,
      h.mcpServers, _, h.a2aAgents, _, h.providers, _, h.memory, _, h.log, _, h.apiKeys, rfl⟩

theorem decodeFileLlm_object {llm : FileLlmSettings} :
    decodeFileLlm (.object members) = some llm ↔
      defaulted "base_url".toList none (option text) members = some llm.baseUrl ∧
        defaulted "model".toList none (option text) members = some llm.model ∧
          defaulted "api_key".toList none (option text) members = some llm.apiKey := by
  simp only [decodeFileLlm, structMembers, Option.bind_eq_bind, Option.bind_some,
    Option.bind_eq_some_iff, Option.pure_def, Option.some.injEq]
  constructor
  · rintro ⟨_, h₁, _, h₂, _, h₃, rfl⟩
    exact ⟨h₁, h₂, h₃⟩
  · rintro ⟨h₁, h₂, h₃⟩
    exact ⟨_, h₁, _, h₂, _, h₃, rfl⟩

end

section
/-! The legacy object. -/

variable {old : Option Json} {llm : FileLlmSettings}

/-- The legacy object reads as the selected provider; a key that it has no other for stays. -/
theorem decode_patchLlm (selected : LlmProvider) (hold : old.elim (some {}) decodeFileLlm = some llm) :
    ∃ kept, (kept = none ∨ kept = llm.apiKey) ∧
      decodeFileLlm (.object (patchLlm old selected)) =
        some { baseUrl := some selected.baseUrl, model := some selected.model,
               apiKey := selected.apiKey.or kept } := by
  have hkept : ∀ members : List (Text × Json), ∀ kept,
      defaulted "api_key".toList none (option text) members = some kept →
        decodeFileLlm (.object (insertGiven "api_key".toList (selected.apiKey.map .string)
          (insertEntry "model".toList (.string selected.model)
            (insertEntry "base_url".toList (.string selected.baseUrl) members)))) =
        some { baseUrl := some selected.baseUrl, model := some selected.model,
               apiKey := selected.apiKey.or kept } := by
    intro members kept h
    refine decodeFileLlm_object.mpr ⟨?_, ?_, ?_⟩
    · rw [defaulted_of_some (.string selected.baseUrl) (by simp)]
      rfl
    · rw [defaulted_of_some (.string selected.model) (by simp)]
      rfl
    · cases hkey : selected.apiKey with
      | none => simpa [defaulted] using h
      | some key =>
        rw [defaulted_of_some (.string key) (by simp)]
        rfl
  cases old with
  | none =>
    exact ⟨none, .inl rfl, hkept [] none rfl⟩
  | some value =>
    cases value with
    | object members =>
      exact ⟨llm.apiKey, .inr rfl, hkept members _ (decodeFileLlm_object.mp hold).2.2⟩
    | _ => exact ⟨none, .inl rfl, hkept [] none rfl⟩

end

section
/-! The root object. -/

variable {members : List (Text × Json)} {parts : SavedParts} {file : FileSettings}

/-- The numbers of what is saved fit the types of the file. -/
structure SavedParts.Fits (parts : SavedParts) : Prop where
  maxIterations : ∀ n, parts.maxIterations = some n → n < 2 ^ 32
  retentionDays : parts.log.retentionDays < 2 ^ 32
  maxRows : parts.log.maxRows < 2 ^ 32
  timeouts : ∀ agent ∈ parts.a2aAgents, agent.timeoutSeconds < 2 ^ 64

/-- What a save leaves of a file, and what it puts in its place. -/
structure Patched (parts : SavedParts) (file next : FileSettings) : Prop where
  providers : next.providers = some (parts.providers.map LlmProvider.toFile)
  a2aAgents : next.a2aAgents = some parts.a2aAgents
  llmBaseUrl : next.llm.baseUrl = some parts.selected.baseUrl
  llmApiKey : ∃ kept, (kept = none ∨ kept = file.llm.apiKey) ∧
    next.llm.apiKey = parts.selected.apiKey.or kept
  mcpServers : next.mcpServers = parts.mcpServers.or file.mcpServers
  maxIterations : next.maxIterations = parts.maxIterations.or file.maxIterations

/-- A patched root reads again, and as what was saved. -/
theorem decode_patchRoot (hfile : ReadsAs members file) (hfits : parts.Fits) :
    ∃ next, decodeFileSettings (.object (patchRoot members parts)) = some next ∧
      Patched parts file next := by
  have hold : (members.lookup "llm".toList).elim (some {}) decodeFileLlm = some file.llm := by
    have hllm := hfile.llm
    rw [defaulted] at hllm
    cases h : members.lookup "llm".toList with
    | none =>
      rw [h] at hllm
      exact hllm
    | some value =>
      rw [h] at hllm
      exact hllm
  obtain ⟨kept, hkept, hllm⟩ := decode_patchLlm parts.selected hold
  let next : FileSettings :=
    { file with
      maxIterations := parts.maxIterations.or file.maxIterations
      thinking := (parts.thinking.map fun t =>
        { enabled := some t.enabled, effort := some t.effort }).getD file.thinking
      llm :=
        { baseUrl := some parts.selected.baseUrl
          model := some parts.selected.model
          apiKey := parts.selected.apiKey.or kept }
      mcpServers := parts.mcpServers.or file.mcpServers
      a2aAgents := some parts.a2aAgents
      providers := some (parts.providers.map LlmProvider.toFile)
      log := some parts.log
      apiKeys := some parts.apiKeys }
  have hreads : ReadsAs (patchRoot members parts) next := by
    constructor
    · cases hmax : parts.maxIterations with
      | none =>
        rw [defaulted_of_lookup members (by simp [patchRoot, hmax]), hfile.maxIterations]
        simp [next, hmax]
      | some n =>
        rw [defaulted_of_some (numberJson n) (by simp [patchRoot, hmax])]
        have hn := hfits.maxIterations n hmax
        have hread : option u32 (numberJson n) = some (some n) :=
          option_number (by omega) (by norm_num)
        simp [hread, next, hmax]
    · cases hthinking : parts.thinking with
      | none =>
        rw [defaulted_of_lookup members (by simp [patchRoot, hthinking]), hfile.thinking]
        simp [next, hthinking]
      | some t =>
        rw [defaulted_of_some (encodeThinking t) (by simp [patchRoot, hthinking]),
          decode_encodeThinking]
        simp [next, hthinking]
    · rw [defaulted_of_lookup members (by simp [patchRoot]), hfile.server]
    · rw [defaulted_of_some (.object (patchLlm (members.lookup "llm".toList) parts.selected))
        (by simp [patchRoot]), hllm]
    · rw [defaulted_of_lookup members (by simp [patchRoot]), hfile.logLevel]
    · cases hservers : parts.mcpServers with
      | none =>
        rw [defaulted_of_lookup members (by simp [patchRoot, hservers]), hfile.mcpServers]
        simp [next, hservers]
      | some servers =>
        rw [defaulted_of_some (.array (servers.map encodeMcpServer))
          (by simp [patchRoot, hservers])]
        have hitems : items decodeMcpServerConfig (servers.map encodeMcpServer) =
            some (servers.map id) := items_map fun server _ => decode_encodeMcpServer server
        simp [Decode.option, list, hitems, next, hservers]
    · rw [defaulted_of_some (.array (parts.a2aAgents.map encodeA2aAgent)) (by simp [patchRoot])]
      have hitems : items decodeA2aAgentConfig (parts.a2aAgents.map encodeA2aAgent) =
          some (parts.a2aAgents.map id) :=
        items_map fun agent hagent => decode_encodeA2aAgent (hfits.timeouts agent hagent)
      simp [Decode.option, list, hitems, next]
    · rw [defaulted_of_some (.array (parts.providers.map encodeProvider)) (by simp [patchRoot])]
      have hitems : items decodeFileLlmProvider (parts.providers.map encodeProvider) =
          some (parts.providers.map LlmProvider.toFile) :=
        items_map fun provider _ => decode_encodeProvider provider
      simp [Decode.option, list, hitems, next]
    · rw [defaulted_of_lookup members (by simp [patchRoot]), hfile.memory]
    · rw [defaulted_of_some (encodeLog parts.log) (by simp [patchRoot])]
      show (decodeLogSettings (encodeLog parts.log)).map some = _
      rw [decode_encodeLog hfits.retentionDays hfits.maxRows]
      rfl
    · rw [defaulted_of_some (encodeTextMap parts.apiKeys) (by simp [patchRoot])]
      show (textMap (encodeTextMap parts.apiKeys)).map some = _
      rw [textMap_encode]
      rfl
  exact ⟨next, decodeFileSettings_object.mpr hreads, rfl, rfl, rfl, ⟨kept, hkept, rfl⟩, rfl, rfl⟩

end
end DeepseekScience.Api.SettingsEndpoints
