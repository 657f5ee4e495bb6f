import DeepseekScience.Compact.Rolling
import DeepseekScience.Core.Servers
import DeepseekScience.Lib.Table
import DeepseekScience.Mcp.ToolName
import DeepseekScience.Tools.Router

/-! The tools of remote servers in the registry of a run, and where a call of one is sent. -/
namespace DeepseekScience.Mcp

open Tables Net DeepseekScience.Core Tools

def maxMcpTools : ℕ := 30

def maxMcpToolListBytes : ℕ := 256 * 1024

structure McpToolAnnotations where
  readOnlyHint : Option Bool := none
  destructiveHint : Option Bool := none
  idempotentHint : Option Bool := none
  deriving DecidableEq

/-- Only explicit claims of the remote side make a tool safe to retry. -/
def McpToolAnnotations.isRetrySafe (a : McpToolAnnotations) : Bool :=
  (a.readOnlyHint == some true && a.destructiveHint != some true) ||
    (a.idempotentHint == some true && a.destructiveHint == some false)

structure McpTool where
  name : Text
  description : Text := []
  inputSchema : Json := .object []
  annotations : McpToolAnnotations := {}

/-- The check of a name in a listing. -/
def validateIdentifier (value label : Text) (max : ℕ) : Except Text Unit :=
  if value.isEmpty || decide (max < byteLen value) || value.any isControl then
    .error (label ++
      " must be a bounded non-empty string without control characters".toList)
  else .ok ()

structure McpDynamicTool where
  server : Text
  toolName : Text
  description : Text
  inputSchema : Json
  retrySafe : Bool

/-- What the manager is asked to send. -/
structure McpRequest where
  server : Text
  tool : Text
  args : Json

namespace McpDynamicTool

def new (server : Text) (tool : McpTool) : McpDynamicTool where
  server := server
  toolName := tool.name
  description := tool.description
  inputSchema := tool.inputSchema
  retrySafe := tool.annotations.isRetrySafe

def spec (t : McpDynamicTool) : ToolDef where
  name := mcpToolName t.server t.toolName
  description := "[MCP:".toList ++ t.server ++ "] ".toList ++ t.description
  parameters := t.inputSchema

def batchPolicy (t : McpDynamicTool) : ToolBatchPolicy :=
  if t.retrySafe then .ordered else .exclusive

/-- A tool that is not safe to retry is called once in a run; `attempts` holds those that were. -/
def call (t : McpDynamicTool) (attempts : List (Text × Text)) (args : Json) :
    Except ToolError McpRequest × List (Text × Text) :=
  match args with
  | .object _ =>
    if t.retrySafe then (.ok ⟨t.server, t.toolName, args⟩, attempts)
    else if attempts.contains (t.server, t.toolName) then
      (.error (.invalidArgs ("MCP tool ".toList ++ t.toolName ++ " on ".toList ++ t.server ++
        (" was already attempted in this user run; " ++
          "refusing a possible duplicate remote side effect").toList)), attempts)
    else (.ok ⟨t.server, t.toolName, args⟩, (t.server, t.toolName) :: attempts)
  | _ => (.error (.invalidArgs "MCP tool arguments must be a JSON object".toList), attempts)

end McpDynamicTool

/-- A tool of the registry: one of the program's own, or a mounted one. -/
inductive RegisteredTool where
  | native (tool : Tool)
  | mcp (tool : McpDynamicTool)

def RegisteredTool.name : RegisteredTool → Text
  | .native tool => tool.name
  | .mcp tool => tool.spec.name

abbrev Registry := Table RegisteredTool.name

def registerChecked (registry : Registry) (tool : RegisteredTool) : Except Text Registry :=
  match registry.insert tool with
  | some registry => .ok registry
  | none => .error ("tool name `".toList ++ tool.name ++ "` is already registered".toList)

/-- Call a tool by the name that the model sees. -/
def callMounted (registry : Registry) (name : Text) (attempts : List (Text × Text)) (args : Json) :
    Option (Except ToolError McpRequest) :=
  match registry.find name with
  | some (.mcp tool) => some (tool.call attempts args).1
  | _ => none

section
variable (definitionBytes : McpTool → Option ℕ)

/-- The loop over the tools of a server: the position, the bytes so far and the tools mounted. -/
def registerLoop (server : Text) (registry : Registry) (index aggregateBytes n : ℕ) :
    List McpTool → Registry × ℕ
  | [] => (registry, n)
  | t :: rest =>
    if maxMcpTools ≤ index then (registry, n)
    else if t.name.isEmpty then registerLoop server registry (index + 1) aggregateBytes n rest
    else
      match definitionBytes t with
      | none => registerLoop server registry (index + 1) aggregateBytes n rest
      | some bytes =>
        let nextTotal := aggregateBytes + Compact.saturatingAdd bytes (byteLen server)
        if Compact.usizeMax < nextTotal then (registry, n)
        else if maxMcpToolListBytes < nextTotal then (registry, n)
        else
          match registerChecked registry (.mcp (McpDynamicTool.new server t)) with
          | .ok registry => registerLoop server registry (index + 1) nextTotal (n + 1) rest
          | .error _ => registerLoop server registry (index + 1) nextTotal n rest

def registerMcpTools (registry : Registry) (server : Text) (tools : List McpTool) : Registry × ℕ :=
  if server.isEmpty then (registry, 0)
  else registerLoop definitionBytes server registry 0 0 0 tools

/-- Mount the listings of all servers. -/
def mountServers (registry : Registry) (servers : List (McpServerConfig × List McpTool)) :
    Registry :=
  servers.foldl (fun registry s => (registerMcpTools definitionBytes registry s.1.name s.2).1)
    registry

/-- A listing that is not cut: so many tools, with so many bytes. -/
def WithinLimits (server : Text) (tools : List McpTool) : Prop :=
  tools.length ≤ maxMcpTools ∧ (∀ t ∈ tools, (definitionBytes t).isSome = true) ∧
    (tools.map fun t =>
      Compact.saturatingAdd ((definitionBytes t).getD 0) (byteLen server)).sum ≤
        maxMcpToolListBytes

variable {definitionBytes}

/-! Mounting within the limits. -/

theorem registerChecked_fresh {registry : Registry} {tool : RegisteredTool}
    (h : tool.name ∉ registry.rows.map RegisteredTool.name) :
    ∃ registry', registerChecked registry tool = .ok registry' ∧
      registry'.rows = registry.rows ++ [tool] := by
  unfold registerChecked
  cases hinsert : registry.insert tool with
  | none =>
    obtain ⟨other, hother⟩ := Option.ne_none_iff_exists'.mp (Table.insert_eq_none.mp hinsert)
    obtain ⟨hmem, hname⟩ := Table.find_eq_some.mp hother
    exact absurd (hname ▸ List.mem_map_of_mem hmem) h
  | some registry' => exact ⟨registry', rfl, (Table.insert_eq_some hinsert).1⟩

def mountedTools (server : Text) (tools : List McpTool) : List RegisteredTool :=
  tools.map fun t => .mcp (McpDynamicTool.new server t)

/-- A listing within the limits, whose names are new, is mounted as a whole. -/
theorem registerLoop_all {server : Text} {tools : List McpTool} {registry : Registry}
    {index aggregateBytes n : ℕ} (hindex : index + tools.length ≤ maxMcpTools)
    (hsome : ∀ t ∈ tools, (definitionBytes t).isSome = true)
    (hbytes : aggregateBytes + (tools.map fun t =>
      Compact.saturatingAdd ((definitionBytes t).getD 0) (byteLen server)).sum ≤
        maxMcpToolListBytes)
    (hnames : ∀ t ∈ tools, t.name ≠ [])
    (hnodup : ((registry.rows ++ mountedTools server tools).map RegisteredTool.name).Nodup) :
    (registerLoop definitionBytes server registry index aggregateBytes n tools).1.rows =
        registry.rows ++ mountedTools server tools ∧
      (registerLoop definitionBytes server registry index aggregateBytes n tools).2 =
        n + tools.length := by
  induction tools generalizing registry index aggregateBytes n with
  | nil => simp [registerLoop, mountedTools]
  | cons t rest ih =>
    rw [List.length_cons] at hindex
    rw [List.map_cons, List.sum_cons] at hbytes
    obtain ⟨bytes, hdefinition⟩ := Option.isSome_iff_exists.mp (hsome t List.mem_cons_self)
    rw [hdefinition, Option.getD_some] at hbytes
    have hname : t.name.isEmpty = false := by
      rw [List.isEmpty_eq_false_iff]
      exact hnames t List.mem_cons_self
    have hmax : maxMcpToolListBytes ≤ Compact.usizeMax := by decide
    have hfresh : (RegisteredTool.mcp (McpDynamicTool.new server t)).name ∉
        registry.rows.map RegisteredTool.name := by
      rw [mountedTools, List.map_cons, List.map_append, List.map_cons] at hnodup
      exact fun hmem => (List.disjoint_of_nodup_append hnodup) hmem List.mem_cons_self
    obtain ⟨registry', hregister, hrows⟩ := registerChecked_fresh hfresh
    have hsplit : registry.rows ++ mountedTools server (t :: rest) =
        registry'.rows ++ mountedTools server rest := by
      rw [hrows, List.append_assoc]
      rfl
    rw [registerLoop, if_neg (by omega), hname, if_neg Bool.false_ne_true, hdefinition]
    dsimp only
    rw [if_neg (by omega), if_neg (by omega), hregister]
    dsimp only
    have hindex' : index + 1 + rest.length ≤ maxMcpTools := by omega
    have hbytes' : aggregateBytes + Compact.saturatingAdd bytes (byteLen server) +
        (rest.map fun t =>
          Compact.saturatingAdd ((definitionBytes t).getD 0) (byteLen server)).sum ≤
        maxMcpToolListBytes := by omega
    obtain ⟨hall, hcount⟩ := ih (n := n + 1) hindex'
      (fun u hu => hsome u (List.mem_cons_of_mem t hu)) hbytes'
      (fun u hu => hnames u (List.mem_cons_of_mem t hu)) (hsplit ▸ hnodup)
    rw [hall, hcount, hsplit, List.length_cons]
    exact ⟨rfl, by omega⟩

/-! What the settings and the listings accept, and what follows from unambiguous names. -/

/-- The pairs that get a name. -/
def keys (servers : List (McpServerConfig × List McpTool)) : List ToolKey :=
  servers.flatMap fun s => s.2.map fun t => ⟨s.1.name, t.name⟩

theorem mem_keys {servers : List (McpServerConfig × List McpTool)} {k : ToolKey} :
    k ∈ keys servers ↔ ∃ s ∈ servers, ∃ t ∈ s.2, (⟨s.1.name, t.name⟩ : ToolKey) = k := by
  simp only [keys, List.mem_flatMap, List.mem_map]

variable (definitionBytes) in
/-- Servers of accepted settings with listings of accepted names, all of which fit, and whose
fingerprints do not collide; nothing is registered under a name of a mounted tool yet. -/
structure Accepted (parseUrl : Text → Option Url) (base : Registry)
    (servers : List (McpServerConfig × List McpTool)) : Prop where
  settings : ∃ configs, validateMcpServers parseUrl configs = .ok () ∧
    (servers.map Prod.fst).Subperm configs
  listed : ∀ s ∈ servers, ∀ t ∈ s.2, validateIdentifier t.name "name".toList 256 = .ok ()
  distinct : ∀ s ∈ servers, (s.2.map McpTool.name).Nodup
  limits : ∀ s ∈ servers, WithinLimits definitionBytes s.1.name s.2
  fingerprints : ∀ a ∈ keys servers, ∀ b ∈ keys servers,
    toolNameFingerprint a.server a.tool = toolNameFingerprint b.server b.tool → a = b
  base : ∀ r ∈ base.rows, ¬ "mcp__".toList <+: r.name

/-- The names tell the tools apart, and in every order of the servers every tool is mounted and
called where it belongs. -/
structure Unambiguous (definitionBytes : McpTool → Option ℕ) (base : Registry)
    (servers : List (McpServerConfig × List McpTool)) : Prop where
  injective : ∀ a ∈ keys servers, ∀ b ∈ keys servers, a.name = b.name → a = b
  valid : ∀ a ∈ keys servers, byteLen a.name ≤ mcpToolNameMaxBytes ∧
    ∀ c ∈ a.name, isToolNameByte c = true
  mounted : ∀ order, order.Perm servers → ∀ s ∈ servers, ∀ t ∈ s.2,
    (mountServers definitionBytes base order).find (mcpToolName s.1.name t.name) =
      some (.mcp (McpDynamicTool.new s.1.name t))
  called : ∀ order, order.Perm servers → ∀ s ∈ servers, ∀ t ∈ s.2, ∀ attempts members,
    (s.1.name, t.name) ∉ attempts →
      callMounted (mountServers definitionBytes base order) (mcpToolName s.1.name t.name) attempts
        (.object members) = some (.ok ⟨s.1.name, t.name, .object members⟩)
  sent : ∀ order, order.Perm servers → ∀ s ∈ servers, ∀ t ∈ s.2, ∀ attempts args request,
    callMounted (mountServers definitionBytes base order) (mcpToolName s.1.name t.name) attempts
      args = some (.ok request) → request = ⟨s.1.name, t.name, args⟩

/-- Listings within their limits whose names are new are mounted one after the other. -/
theorem mountServers_rows {registry : Registry} {servers : List (McpServerConfig × List McpTool)}
    (hservers : ∀ s ∈ servers, s.1.name ≠ []) (hlimits : ∀ s ∈ servers,
      WithinLimits definitionBytes s.1.name s.2)
    (hnames : ∀ s ∈ servers, ∀ t ∈ s.2, t.name ≠ [])
    (hnodup : ((registry.rows ++ servers.flatMap fun s => mountedTools s.1.name s.2).map
      RegisteredTool.name).Nodup) :
    (mountServers definitionBytes registry servers).rows =
      registry.rows ++ servers.flatMap fun s => mountedTools s.1.name s.2 := by
  induction servers generalizing registry with
  | nil => simp [mountServers]
  | cons s rest ih =>
    obtain ⟨hlength, hsome, hbytes⟩ := hlimits s List.mem_cons_self
    rw [List.flatMap_cons, ← List.append_assoc] at hnodup
    have hfirst : ((registry.rows ++ mountedTools s.1.name s.2).map RegisteredTool.name).Nodup :=
      hnodup.sublist ((List.sublist_append_left _ _).map _)
    have hmounted : (registerMcpTools definitionBytes registry s.1.name s.2).1.rows =
        registry.rows ++ mountedTools s.1.name s.2 := by
      have hname : s.1.name.isEmpty = false := by
        rw [List.isEmpty_eq_false_iff]
        exact hservers s List.mem_cons_self
      rw [registerMcpTools, hname, if_neg Bool.false_ne_true]
      refine (registerLoop_all ?_ hsome ?_ (hnames s List.mem_cons_self) hfirst).1
      · omega
      · omega
    rw [← hmounted] at hnodup
    have hrest := ih (fun u hu => hservers u (List.mem_cons_of_mem s hu))
      (fun u hu => hlimits u (List.mem_cons_of_mem s hu))
      (fun u hu => hnames u (List.mem_cons_of_mem s hu)) hnodup
    rw [hmounted, List.append_assoc] at hrest
    exact hrest

section
variable {parseUrl : Text → Option Url} {base : Registry}
  {servers : List (McpServerConfig × List McpTool)}

theorem Accepted.server_names (h : Accepted definitionBytes parseUrl base servers) :
    (servers.map fun s => s.1.name).Nodup ∧ ∀ s ∈ servers, s.1.name ≠ [] := by
  obtain ⟨configs, hvalid, kept, hperm, hsub⟩ := h.settings
  obtain ⟨hnodup, hall⟩ := validateServers_names hvalid
  constructor
  · have hkept : (kept.map McpServerConfig.name).Nodup := hnodup.sublist (hsub.map _)
    have hnames := (hperm.map McpServerConfig.name).nodup_iff.mp hkept
    rw [List.map_map] at hnames
    exact hnames
  · intro s hs
    have hmem : s.1 ∈ configs := hsub.subset (hperm.mem_iff.mpr (List.mem_map_of_mem hs))
    exact (hall s.1 hmem).1

theorem Accepted.tool_names (h : Accepted definitionBytes parseUrl base servers) :
    ∀ s ∈ servers, ∀ t ∈ s.2, t.name ≠ [] := by
  intro s hs t ht hnil
  have hlisted := h.listed s hs t ht
  rw [hnil] at hlisted
  cases hlisted

theorem Accepted.nodup_keys (h : Accepted definitionBytes parseUrl base servers) :
    (keys servers).Nodup := by
  unfold keys
  rw [List.nodup_flatMap]
  constructor
  · intro s hs
    apply List.Nodup.of_map ToolKey.tool
    rw [List.map_map]
    exact h.distinct s hs
  · have hnames := List.pairwise_map.mp h.server_names.1
    refine hnames.imp fun {s s'} hne => ?_
    intro k hk hk'
    obtain ⟨t, -, rfl⟩ := List.mem_map.mp hk
    obtain ⟨t', -, heq⟩ := List.mem_map.mp hk'
    exact hne (congrArg ToolKey.server heq).symm

theorem mountedTools_names (servers : List (McpServerConfig × List McpTool)) :
    (servers.flatMap fun s => mountedTools s.1.name s.2).map RegisteredTool.name =
      (keys servers).map ToolKey.name := by
  unfold keys mountedTools
  rw [List.map_flatMap, List.map_flatMap]
  simp only [List.map_map]
  rfl

theorem mcp_isPrefix_name (k : ToolKey) : "mcp__".toList <+: k.name := by
  unfold ToolKey.name
  by_cases h : isExact k.server k.tool = true
  · rw [mcpToolName_exact h]
    exact List.prefix_append _ _
  · rw [mcpToolName_fingerprint h]
    exact List.prefix_append _ _

/-- Names that tell the tools apart are new in the registry, in every order of the servers. -/
theorem Accepted.nodup_names (h : Accepted definitionBytes parseUrl base servers)
    (hinj : ∀ a ∈ keys servers, ∀ b ∈ keys servers, a.name = b.name → a = b)
    {order : List (McpServerConfig × List McpTool)} (horder : order.Perm servers) :
    ((base.rows ++ order.flatMap fun s => mountedTools s.1.name s.2).map
      RegisteredTool.name).Nodup := by
  have hperm : (keys order).Perm (keys servers) := horder.flatMap_right _
  rw [List.map_append, mountedTools_names]
  apply List.Nodup.append base.unique
  · apply List.Nodup.map_on _ (hperm.nodup_iff.mpr h.nodup_keys)
    intro a ha b hb heq
    exact hinj a (hperm.mem_iff.mp ha) b (hperm.mem_iff.mp hb) heq
  · intro name hbase hkeys
    obtain ⟨r, hr, rfl⟩ := List.mem_map.mp hbase
    obtain ⟨k, -, hk⟩ := List.mem_map.mp hkeys
    exact h.base r hr (hk ▸ mcp_isPrefix_name k)

theorem Accepted.mounted (h : Accepted definitionBytes parseUrl base servers)
    (hinj : ∀ a ∈ keys servers, ∀ b ∈ keys servers, a.name = b.name → a = b)
    {order : List (McpServerConfig × List McpTool)} (horder : order.Perm servers)
    {s : McpServerConfig × List McpTool} (hs : s ∈ servers) {t : McpTool} (ht : t ∈ s.2) :
    (mountServers definitionBytes base order).find (mcpToolName s.1.name t.name) =
      some (.mcp (McpDynamicTool.new s.1.name t)) := by
  apply Table.find_eq_some.mpr
  refine ⟨?_, rfl⟩
  rw [mountServers_rows (fun u hu => h.server_names.2 u (horder.mem_iff.mp hu))
    (fun u hu => h.limits u (horder.mem_iff.mp hu))
    (fun u hu => h.tool_names u (horder.mem_iff.mp hu)) (h.nodup_names hinj horder)]
  apply List.mem_append_right
  exact List.mem_flatMap.mpr ⟨s, horder.mem_iff.mpr hs, List.mem_map_of_mem ht⟩

/-- A request that is sent goes to the tool's own server, under its own name. -/
theorem McpDynamicTool.call_sends {tool : McpDynamicTool} {attempts : List (Text × Text)}
    {args : Json} {request : McpRequest} (h : (tool.call attempts args).1 = .ok request) :
    request = ⟨tool.server, tool.toolName, args⟩ := by
  unfold McpDynamicTool.call at h
  split at h
  · split_ifs at h
    · exact (Except.ok.inj h).symm
    · exact (Except.ok.inj h).symm
  · cases h

/-- The first call of a tool with an object is sent. -/
theorem McpDynamicTool.call_first {tool : McpDynamicTool} {attempts : List (Text × Text)}
    {members : List (Text × Json)} (h : (tool.server, tool.toolName) ∉ attempts) :
    (tool.call attempts (.object members)).1 =
      .ok ⟨tool.server, tool.toolName, .object members⟩ := by
  have hnot : attempts.contains (tool.server, tool.toolName) = false := by simpa using h
  unfold McpDynamicTool.call
  dsimp only
  rw [hnot, if_neg Bool.false_ne_true]
  split_ifs
  · rfl
  · rfl

theorem sharesName_irrefl (a : ToolKey) : ¬ SharesName a a := by
  rintro ⟨hexact, ⟨-, hserver, -⟩ | ⟨hexact', -⟩⟩
  · have hlength := congrArg List.length hserver
    rw [List.length_append, List.length_singleton] at hlength
    omega
  · exact Bool.false_ne_true (hexact'.symm.trans hexact)

/-- The tools of accepted servers are told apart by their names, and mounted and called as they
should, exactly if no two of them share a name in one of the ways of `SharesName`. -/
theorem tools_unambiguous_iff (h : Accepted definitionBytes parseUrl base servers) :
    Unambiguous definitionBytes base servers ↔
      ∀ a ∈ keys servers, ∀ b ∈ keys servers, ¬ SharesName a b := by
  have hiff : ∀ a ∈ keys servers, ∀ b ∈ keys servers,
      (a.name = b.name ↔ a = b ∨ SharesName a b ∨ SharesName b a) := fun a ha b hb =>
    name_eq_iff (h.fingerprints a ha b hb)
  constructor
  · intro hun a ha b hb hshares
    have heq := hun.injective a ha b hb ((hiff a ha b hb).mpr (Or.inr (Or.inl hshares)))
    exact sharesName_irrefl a (heq ▸ hshares)
  · intro hnone
    have hinj : ∀ a ∈ keys servers, ∀ b ∈ keys servers, a.name = b.name → a = b := by
      intro a ha b hb heq
      rcases (hiff a ha b hb).mp heq with heq | hshares | hshares
      · exact heq
      · exact absurd hshares (hnone a ha b hb)
      · exact absurd hshares (hnone b hb a ha)
    refine ⟨hinj, fun a _ => mcpToolName_valid a.server a.tool,
      fun order horder s hs t ht => h.mounted hinj horder hs ht, ?_, ?_⟩
    · intro order horder s hs t ht attempts members hfirst
      unfold callMounted
      rw [h.mounted hinj horder hs ht]
      exact congrArg some (McpDynamicTool.call_first hfirst)
    · intro order horder s hs t ht attempts args request hsent
      unfold callMounted at hsent
      rw [h.mounted hinj horder hs ht] at hsent
      exact McpDynamicTool.call_sends (Option.some.inj hsent)

end
end

/-! Samples with one tool a server. -/

def sampleServer (name tool : Text) : McpServerConfig × List McpTool :=
  (⟨name, "https://host/mcp".toList, true⟩, [{ name := tool }])

def sampleUrl (_ : Text) : Option Url :=
  some { scheme := "https".toList, host := some "host".toList, path := "/mcp".toList }

/-- The length of `\x7b"name":"..","description":"","inputSchema":\x7b\x7d\x7d`. -/
def sampleBytes (t : McpTool) : Option ℕ := some (45 + byteLen t.name)

/-- Accepted servers with one tool each, the fingerprints of which differ. -/
theorem accepted_sample {a b : McpServerConfig × List McpTool}
    (hvalid : validateMcpServers sampleUrl [a.1, b.1] = .ok ())
    (hlisted : ∀ s ∈ [a, b], ∀ t ∈ s.2, validateIdentifier t.name "name".toList 256 = .ok ())
    (hdistinct : ∀ s ∈ [a, b], (s.2.map McpTool.name).Nodup)
    (hlimits : ∀ s ∈ [a, b], WithinLimits sampleBytes s.1.name s.2)
    (hfingerprints : ∀ x ∈ keys [a, b], ∀ y ∈ keys [a, b],
      toolNameFingerprint x.server x.tool = toolNameFingerprint y.server y.tool → x = y) :
    Accepted sampleBytes sampleUrl Table.empty [a, b] :=
  ⟨⟨[a.1, b.1], hvalid, List.Subperm.refl _⟩, hlisted, hdistinct, hlimits, hfingerprints,
    fun _ h => absurd h List.not_mem_nil⟩

theorem tools_unambiguous_iff_echo :
    Accepted sampleBytes sampleUrl Table.empty
        [sampleServer "search".toList "echo".toList, sampleServer "docs".toList "echo".toList] ∧
      (Unambiguous sampleBytes Table.empty
          [sampleServer "search".toList "echo".toList, sampleServer "docs".toList "echo".toList] ↔
        ∀ a ∈ keys [sampleServer "search".toList "echo".toList,
            sampleServer "docs".toList "echo".toList],
          ∀ b ∈ keys [sampleServer "search".toList "echo".toList,
            sampleServer "docs".toList "echo".toList], ¬ SharesName a b) := by
  have haccepted : Accepted sampleBytes sampleUrl Table.empty
      [sampleServer "search".toList "echo".toList, sampleServer "docs".toList "echo".toList] := by
    apply accepted_sample
    · decide +kernel
    · decide +kernel
    · decide +kernel
    · unfold WithinLimits
      decide +kernel
    · decide +kernel
  exact ⟨haccepted, tools_unambiguous_iff haccepted⟩

/-- The tool `_b` of the server `a` and the tool `b` of the server `a_` are both `mcp__a___b`. -/
theorem underscore_moves :
    Accepted sampleBytes sampleUrl Table.empty
        [sampleServer "a".toList "_b".toList, sampleServer "a_".toList "b".toList] ∧
      ¬ Unambiguous sampleBytes Table.empty
        [sampleServer "a".toList "_b".toList, sampleServer "a_".toList "b".toList] := by
  constructor
  · apply accepted_sample
    · decide +kernel
    · decide +kernel
    · decide +kernel
    · unfold WithinLimits
      decide +kernel
    · decide +kernel
  · intro h
    have heq := h.injective ⟨"a".toList, "_b".toList⟩ (by decide +kernel)
      ⟨"a_".toList, "b".toList⟩ (by decide +kernel) (by decide +kernel)
    exact absurd heq (by decide)

end DeepseekScience.Mcp
