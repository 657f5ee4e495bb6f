import DeepseekScience.Core.Layers
import DeepseekScience.Llm.Stream

/-! The derived serializers of the settings, and what the files' deserializers make of their
output. -/
namespace DeepseekScience.Core

open Decode

/-- An unsigned number, as `serde_json` spells it. -/
def numberJson (n : ℕ) : Json := .number (natText n)

/-- `skip_serializing_if = "Option::is_none"`. -/
def optionalText (key : Text) : Option Text → List (Text × Json)
  | none => []
  | some value => [(key, .string value)]

def ThinkingEffort.asStr : ThinkingEffort → Text
  | .low => "low".toList
  | .high => "high".toList
  | .max => "max".toList

def encodeThinking (thinking : ThinkingSettings) : Json :=
  .object [("effort".toList, .string thinking.effort.asStr),
    ("enabled".toList, .bool thinking.enabled)]

def encodeProvider (provider : LlmProvider) : Json :=
  .object (optionalText "api_key".toList provider.apiKey ++
    [("base_url".toList, .string provider.baseUrl), ("enabled".toList, .bool provider.enabled),
      ("id".toList, .string provider.id), ("model".toList, .string provider.model),
      ("name".toList, .string provider.name)])

def encodeA2aAgent (config : A2aAgentConfig) : Json :=
  .object (optionalText "bearer_token".toList config.bearerToken ++
    [("enabled".toList, .bool config.enabled), ("endpoint".toList, .string config.endpoint),
      ("id".toList, .string config.id), ("name".toList, .string config.name),
      ("timeout_seconds".toList, numberJson config.timeoutSeconds)])

def encodeMcpServer (server : McpServerConfig) : Json :=
  .object [("enabled".toList, .bool server.enabled), ("name".toList, .string server.name),
    ("url".toList, .string server.url)]

def encodeTexts (texts : List Text) : Json := .array (texts.map .string)

def encodeSkills (skills : SkillSettings) : Json :=
  .object [("custom_dirs".toList, encodeTexts skills.customDirs),
    ("disabled".toList, encodeTexts skills.disabled),
    ("include_claude".toList, .bool skills.includeClaude),
    ("include_codex".toList, .bool skills.includeCodex),
    ("include_cursor".toList, .bool skills.includeCursor)]

def encodeLog (log : LogSettings) : Json :=
  .object [("max_rows".toList, numberJson log.maxRows),
    ("retention_days".toList, numberJson log.retentionDays)]

def encodeTextMap (entries : List (Text × Text)) : Json :=
  .object (entries.map fun e => (e.1, .string e.2))

section
/-! Reading back what was written. -/

theorem asU64_numberJson {n : ℕ} (h : n < 2 ^ 64) : (numberJson n).asU64 = some n := by
  have hdigits : (natText n).all Char.isDigit = true :=
    List.all_eq_true.mpr fun c hc => Nat.isDigit_of_mem_toDigits (by norm_num) (by norm_num) hc
  have hne : (natText n).isEmpty = false := by
    simp [natText, Nat.toDigits_ne_nil]
  have hvalue : (natText n).foldl (fun n c => n * 10 + (c.toNat - '0'.toNat)) 0 = n := by
    have := Nat.ofDigitChars_toDigits (n := n) (b := 10) (by norm_num) (by norm_num)
    rw [Nat.ofDigitChars_eq_foldl] at this
    simpa only [natText, Nat.mul_comm] using this
  simp only [numberJson, Json.asU64, hvalue, hne, hdigits]
  simp only [Bool.not_false, h, decide_true, Bool.and_self, if_true]

theorem unsigned_numberJson {n largest : ℕ} (hn : n ≤ largest) (hl : largest < 2 ^ 64) :
    unsigned largest (numberJson n) = some n := by
  rw [unsigned, asU64_numberJson (by omega)]
  simp [hn]

theorem option_number {n largest : ℕ} (hn : n ≤ largest) (hl : largest < 2 ^ 64) :
    option (unsigned largest) (numberJson n) = some (some n) := by
  show (unsigned largest (numberJson n)).map some = _
  rw [unsigned_numberJson hn hl]
  rfl

theorem items_map {α β : Type} {item : Json → Option β} {encode : α → Json} {read : α → β}
    {l : List α} (h : ∀ a ∈ l, item (encode a) = some (read a)) :
    items item (l.map encode) = some (l.map read) := by
  induction l with
  | nil => rfl
  | cons a l ih =>
    rw [List.map_cons, items, h a List.mem_cons_self,
      ih fun b hb => h b (List.mem_cons_of_mem _ hb)]
    rfl

theorem list_texts (texts : List Text) : list text (encodeTexts texts) = some texts := by
  have hread : items text (texts.map .string) = some (texts.map id) :=
    items_map fun _ _ => rfl
  rwa [List.map_id] at hread

theorem textMap_encode (entries : List (Text × Text)) :
    textMap (encodeTextMap entries) = some entries := by
  show textMembers (entries.map fun e => (e.1, Json.string e.2)) = some entries
  induction entries with
  | nil => rfl
  | cons e entries ih =>
    rw [List.map_cons, textMembers, ih]
    rfl

theorem decode_encodeThinking (thinking : ThinkingSettings) :
    decodeFileThinking (encodeThinking thinking) =
      some { enabled := some thinking.enabled, effort := some thinking.effort } := by
  obtain ⟨enabled, effort⟩ := thinking
  cases effort <;> rfl

/-- A provider as the file has it: every field is there, the key as an option. -/
def LlmProvider.toFile (provider : LlmProvider) : FileLlmProvider where
  id := some provider.id
  name := some provider.name
  baseUrl := some provider.baseUrl
  model := some provider.model
  apiKey := provider.apiKey
  enabled := some provider.enabled

theorem decode_encodeProvider (provider : LlmProvider) :
    decodeFileLlmProvider (encodeProvider provider) = some provider.toFile := by
  obtain ⟨id, name, baseUrl, model, apiKey, enabled⟩ := provider
  cases apiKey <;> rfl

/-- Every provider with an id, and without an empty key, comes back as it was. -/
theorem intoProvider_toFile {lib : SettingsLib} {provider : LlmProvider}
    (hid : provider.id ≠ []) (hkey : provider.apiKey ≠ some []) :
    provider.toFile.intoProvider lib = provider := by
  obtain ⟨id, name, baseUrl, model, apiKey, enabled⟩ := provider
  have hid' : id.isEmpty = false := by simpa using hid
  cases apiKey with
  | none => simp [LlmProvider.toFile, FileLlmProvider.intoProvider, Option.filter, hid']
  | some key =>
    have hkey' : key.isEmpty = false := by simpa using hkey
    simp [LlmProvider.toFile, FileLlmProvider.intoProvider, Option.filter, hid', hkey']

theorem decode_encodeA2aAgent {config : A2aAgentConfig} (h : config.timeoutSeconds < 2 ^ 64) :
    decodeA2aAgentConfig (encodeA2aAgent config) = some config := by
  obtain ⟨id, name, endpoint, enabled, bearerToken, timeoutSeconds⟩ := config
  have hu : u64 (numberJson timeoutSeconds) = some timeoutSeconds :=
    unsigned_numberJson (by simp only at h; omega) (by norm_num)
  cases bearerToken <;>
    simp [decodeA2aAgentConfig, encodeA2aAgent, optionalText, structMembers, defaulted,
      List.lookup_cons, text, Json.asStr, Decode.bool, Decode.option, hu]

theorem decode_encodeMcpServer (server : McpServerConfig) :
    decodeMcpServerConfig (encodeMcpServer server) = some server := by
  obtain ⟨name, url, enabled⟩ := server
  rfl

theorem decode_encodeSkills (skills : SkillSettings) :
    decodeSkillSettings (encodeSkills skills) = some skills := by
  obtain ⟨disabled, includeClaude, includeCodex, includeCursor, customDirs⟩ := skills
  simp [decodeSkillSettings, encodeSkills, structMembers, defaulted, List.lookup_cons,
    list_texts, Decode.bool]

theorem decode_encodeLog {log : LogSettings} (hdays : log.retentionDays < 2 ^ 32)
    (hrows : log.maxRows < 2 ^ 32) : decodeLogSettings (encodeLog log) = some log := by
  obtain ⟨retentionDays, maxRows⟩ := log
  have hd : u32 (numberJson retentionDays) = some retentionDays :=
    unsigned_numberJson (by simp only at hdays; omega) (by norm_num)
  have hr : u32 (numberJson maxRows) = some maxRows :=
    unsigned_numberJson (by simp only at hrows; omega) (by norm_num)
  simp [decodeLogSettings, encodeLog, structMembers, defaulted, List.lookup_cons, hd, hr]

end
end DeepseekScience.Core
