import DeepseekScience.Core.Decode
import DeepseekScience.Core.Servers

/-! The settings of the process: the two files, the environment above them, and the two ways
in which they are put together: at start-up, and for a candidate of `settings.json`. -/
namespace DeepseekScience.Core

open Net

def defaultHost : Text := "127.0.0.1".toList

def defaultPort : ℕ := 17896

def defaultLlmBaseUrl : Text := "https://api.deepseek.com".toList

def defaultLlmModel : Text := "deepseek-v4-flash".toList

def defaultA2aTimeoutSeconds : ℕ := 120

def defaultMaxIterations : ℕ := 100

def minMaxIterations : ℕ := 1

def maxConfigurableIterations : ℕ := 1000

def validateMaxIterations (value : ℕ) : Except Text Unit :=
  if minMaxIterations ≤ value ∧ value ≤ maxConfigurableIterations then .ok ()
  else .error "max_iterations must be between 1 and 1000".toList

inductive ThinkingEffort where
  | low
  | high
  | max
  deriving DecidableEq

structure ThinkingSettings where
  enabled : Bool := true
  effort : ThinkingEffort := .high
  deriving DecidableEq

structure A2aAgentConfig where
  id : Text := []
  name : Text := []
  endpoint : Text := []
  enabled : Bool := true
  bearerToken : Option Text := none
  timeoutSeconds : ℕ := defaultA2aTimeoutSeconds
  deriving DecidableEq

structure SkillSettings where
  disabled : List Text := []
  includeClaude : Bool := false
  includeCodex : Bool := false
  includeCursor : Bool := false
  customDirs : List Text := []
  deriving DecidableEq

/-- The two thresholds are floats, kept as the literals that spell them. -/
structure MemorySettings where
  enabled : Bool := true
  extractModel : Option Text := none
  autoPromoteThreshold : Text := "0.5".toList
  dedupeSimilarity : Text := "0.85".toList
  trustHighRiskApprove : Bool := true
  alwaysOn : Bool := false
  deriving DecidableEq

structure LogSettings where
  retentionDays : ℕ := 14
  maxRows : ℕ := 100000
  deriving DecidableEq

structure ServerSettings where
  host : Text := defaultHost
  port : ℕ := defaultPort
  deriving DecidableEq

structure LlmSettings where
  baseUrl : Text := defaultLlmBaseUrl
  model : Text := defaultLlmModel
  apiKey : Option Text := none
  deriving DecidableEq

structure LlmProvider where
  id : Text
  name : Text
  baseUrl : Text
  model : Text
  apiKey : Option Text
  enabled : Bool
  deriving DecidableEq

structure LlmEnvOverrides where
  baseUrl : Bool := false
  model : Bool := false
  apiKey : Bool := false
  deriving DecidableEq

structure ResolvedLlmSettings where
  llm : LlmSettings
  envOverrides : LlmEnvOverrides
  deriving DecidableEq

def defaultMcpServers : List McpServerConfig :=
  [{ name := defaultAgentRegistryName, url := defaultAgentRegistryUrl, enabled := true }]

structure Settings where
  dataDir : Text
  dataDirIsDefault : Bool
  maxIterations : ℕ
  thinking : ThinkingSettings
  server : ServerSettings
  llm : LlmSettings
  providers : List LlmProvider
  llmEnvOverrides : LlmEnvOverrides
  logLevel : Option Text
  mcpServers : List McpServerConfig
  a2aAgents : List A2aAgentConfig
  memory : MemorySettings
  log : LogSettings
  apiKeys : List (Text × Text)

section
/-! What one settings file may say: every field of it is optional. -/

structure FileThinkingSettings where
  enabled : Option Bool := none
  effort : Option ThinkingEffort := none

structure FileServerSettings where
  host : Option Text := none
  port : Option ℕ := none

structure FileLlmSettings where
  baseUrl : Option Text := none
  model : Option Text := none
  apiKey : Option Text := none

structure FileLlmProvider where
  id : Option Text := none
  name : Option Text := none
  baseUrl : Option Text := none
  model : Option Text := none
  apiKey : Option Text := none
  enabled : Option Bool := none

structure FileSettings where
  maxIterations : Option ℕ := none
  thinking : FileThinkingSettings := {}
  server : FileServerSettings := {}
  llm : FileLlmSettings := {}
  logLevel : Option Text := none
  mcpServers : Option (List McpServerConfig) := none
  a2aAgents : Option (List A2aAgentConfig) := none
  providers : Option (List FileLlmProvider) := none
  memory : Option MemorySettings := none
  log : Option LogSettings := none
  apiKeys : Option (List (Text × Text)) := none

end

section
/-! The deserializers of the files. -/

open Decode

/-- A unit variant is its name, or an object with its name over null. -/
def decodeThinkingEffort : Json → Option ThinkingEffort
  | .string name => variant name
  | .object [(name, .null)] => variant name
  | _ => none
where
  variant (name : Text) : Option ThinkingEffort :=
    if name = "low".toList then some .low
    else if name = "high".toList then some .high
    else if name = "max".toList then some .max
    else none

def decodeFileThinking (value : Json) : Option FileThinkingSettings := do
  let names := ["enabled".toList, "effort".toList]
  let fields ← (structMembers names value).bind (knownMembers names)
  return {
    enabled := ← defaulted "enabled".toList none (present bool) fields
    effort := ← defaulted "effort".toList none (present decodeThinkingEffort) fields }

def decodeFileServer (value : Json) : Option FileServerSettings := do
  let fields ← structMembers ["host".toList, "port".toList] value
  return {
    host := ← defaulted "host".toList none (option text) fields
    port := ← defaulted "port".toList none (option u16) fields }

def decodeFileLlm (value : Json) : Option FileLlmSettings := do
  let fields ← structMembers ["base_url".toList, "model".toList, "api_key".toList] value
  return {
    baseUrl := ← defaulted "base_url".toList none (option text) fields
    model := ← defaulted "model".toList none (option text) fields
    apiKey := ← defaulted "api_key".toList none (option text) fields }

def decodeFileLlmProvider (value : Json) : Option FileLlmProvider := do
  let fields ← structMembers ["id".toList, "name".toList, "base_url".toList, "model".toList,
    "api_key".toList, "enabled".toList] value
  return {
    id := ← defaulted "id".toList none (option text) fields
    name := ← defaulted "name".toList none (option text) fields
    baseUrl := ← defaulted "base_url".toList none (option text) fields
    model := ← defaulted "model".toList none (option text) fields
    apiKey := ← defaulted "api_key".toList none (option text) fields
    enabled := ← defaulted "enabled".toList none (option bool) fields }

def decodeMcpServerConfig (value : Json) : Option McpServerConfig := do
  let fields ← structMembers ["name".toList, "url".toList, "enabled".toList] value
  return {
    name := ← required "name".toList text fields
    url := ← required "url".toList text fields
    enabled := ← defaulted "enabled".toList false bool fields }

def decodeA2aAgentConfig (value : Json) : Option A2aAgentConfig := do
  let fields ← structMembers ["id".toList, "name".toList, "endpoint".toList, "enabled".toList,
    "bearer_token".toList, "timeout_seconds".toList] value
  return {
    id := ← defaulted "id".toList [] text fields
    name := ← defaulted "name".toList [] text fields
    endpoint := ← defaulted "endpoint".toList [] text fields
    enabled := ← defaulted "enabled".toList true bool fields
    bearerToken := ← defaulted "bearer_token".toList none (option text) fields
    timeoutSeconds :=
      ← defaulted "timeout_seconds".toList defaultA2aTimeoutSeconds u64 fields }

def decodeSkillSettings (value : Json) : Option SkillSettings := do
  let fields ← structMembers ["disabled".toList, "include_claude".toList,
    "include_codex".toList, "include_cursor".toList, "custom_dirs".toList] value
  return {
    disabled := ← defaulted "disabled".toList [] (list text) fields
    includeClaude := ← defaulted "include_claude".toList false bool fields
    includeCodex := ← defaulted "include_codex".toList false bool fields
    includeCursor := ← defaulted "include_cursor".toList false bool fields
    customDirs := ← defaulted "custom_dirs".toList [] (list text) fields }

def decodeMemorySettings (value : Json) : Option MemorySettings := do
  let initial : MemorySettings := {}
  let fields ← structMembers ["enabled".toList, "extract_model".toList,
    "auto_promote_threshold".toList, "dedupe_similarity".toList,
    "trust_high_risk_approve".toList, "always_on".toList] value
  return {
    enabled := ← defaulted "enabled".toList initial.enabled bool fields
    extractModel := ← defaulted "extract_model".toList initial.extractModel (option text) fields
    autoPromoteThreshold :=
      ← defaulted "auto_promote_threshold".toList initial.autoPromoteThreshold f64 fields
    dedupeSimilarity :=
      ← defaulted "dedupe_similarity".toList initial.dedupeSimilarity f64 fields
    trustHighRiskApprove :=
      ← defaulted "trust_high_risk_approve".toList initial.trustHighRiskApprove bool fields
    alwaysOn := ← defaulted "always_on".toList initial.alwaysOn bool fields }

def decodeLogSettings (value : Json) : Option LogSettings := do
  let initial : LogSettings := {}
  let fields ← structMembers ["retention_days".toList, "max_rows".toList] value
  return {
    retentionDays := ← defaulted "retention_days".toList initial.retentionDays u32 fields
    maxRows := ← defaulted "max_rows".toList initial.maxRows u32 fields }

def decodeFileSettings (value : Json) : Option FileSettings := do
  let fields ← structMembers ["max_iterations".toList, "thinking".toList, "server".toList,
    "llm".toList, "log_level".toList, "mcp_servers".toList, "a2a_agents".toList,
    "providers".toList, "memory".toList, "log".toList, "api_keys".toList] value
  return {
    maxIterations := ← defaulted "max_iterations".toList none (option u32) fields
    thinking := ← defaulted "thinking".toList {} decodeFileThinking fields
    server := ← defaulted "server".toList {} decodeFileServer fields
    llm := ← defaulted "llm".toList {} decodeFileLlm fields
    logLevel := ← defaulted "log_level".toList none (option text) fields
    mcpServers :=
      ← defaulted "mcp_servers".toList none (option (list decodeMcpServerConfig)) fields
    a2aAgents := ← defaulted "a2a_agents".toList none (option (list decodeA2aAgentConfig)) fields
    providers := ← defaulted "providers".toList none (option (list decodeFileLlmProvider)) fields
    memory := ← defaulted "memory".toList none (option decodeMemorySettings) fields
    log := ← defaulted "log".toList none (option decodeLogSettings) fields
    apiKeys := ← defaulted "api_keys".toList none (option textMap) fields }

end
end DeepseekScience.Core
