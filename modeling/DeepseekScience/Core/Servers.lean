import DeepseekScience.Net.Url

/-! The remote servers of the settings, and what the settings accept of them. -/
namespace DeepseekScience.Core

open Net

def defaultAgentRegistryName : Text := "agent-registry".toList

def defaultAgentRegistryUrl : Text := "https://a2a-dev.intern-ai.org.cn/mcp".toList

structure McpServerConfig where
  name : Text
  url : Text
  enabled : Bool := false
  deriving DecidableEq

section
variable (parseUrl : Text → Option Url)

/-- The name of a server is printable, trimmed and short. -/
def serverNameIsSafe (name : Text) : Bool :=
  !name.isEmpty && decide (byteLen name ≤ 128) && !name.any isControl && trim name == name

def validateServerUrl (name url : Text) : Except Text Unit :=
  let label := "MCP server ".toList ++ name
  if url.isEmpty || decide (2048 < byteLen url) || url.any isControl then
    .error (label ++ " URL is empty, too long, or unsafe".toList)
  else
    match parseUrl url with
    | none => .error (label ++ " URL is invalid".toList)
    | some parsed =>
      if !parsed.isHttp || parsed.host.isNone then
        .error (label ++ " URL must be absolute http or https".toList)
      else if !parsed.username.isEmpty || parsed.password.isSome || parsed.query.isSome ||
          parsed.fragment.isSome then
        .error (label ++ " URL credentials, query, and fragment are forbidden".toList)
      else .ok ()

/-- The servers that follow those with the given lower-case names. -/
def validateServers (names : List Text) : List McpServerConfig → Except Text Unit
  | [] => .ok ()
  | server :: rest =>
    if !serverNameIsSafe server.name then .error "each MCP server needs a bounded safe name".toList
    else if eqIgnoreAsciiCase server.name defaultAgentRegistryName &&
        server.name != defaultAgentRegistryName then
      .error ("reserved MCP server name must use the canonical spelling: ".toList ++
        defaultAgentRegistryName)
    else if names.contains (toAsciiLowercase server.name) then
      .error ("duplicate MCP server name: ".toList ++ server.name)
    else
      match validateServerUrl parseUrl server.name server.url with
      | .error e => .error e
      | .ok () => validateServers (toAsciiLowercase server.name :: names) rest

def validateMcpServers (servers : List McpServerConfig) : Except Text Unit :=
  validateServers parseUrl [] servers

variable {parseUrl}

theorem validateServers_cons {names : List Text} {server : McpServerConfig}
    {rest : List McpServerConfig}
    (h : validateServers parseUrl names (server :: rest) = .ok ()) :
    serverNameIsSafe server.name = true ∧ toAsciiLowercase server.name ∉ names ∧
      validateServers parseUrl (toAsciiLowercase server.name :: names) rest = .ok () := by
  rw [validateServers] at h
  split_ifs at h with hname _ hnames
  cases hurl : validateServerUrl parseUrl server.name server.url with
  | error e =>
    rw [hurl] at h
    cases h
  | ok _ =>
    rw [hurl] at h
    exact ⟨by simpa using hname, by simpa using hnames, h⟩

/-- Accepted servers have pairwise different names, none of them empty. -/
theorem validateServers_names {servers : List McpServerConfig} {names : List Text}
    (h : validateServers parseUrl names servers = .ok ()) :
    (servers.map McpServerConfig.name).Nodup ∧
      (∀ server ∈ servers, server.name ≠ [] ∧ toAsciiLowercase server.name ∉ names) := by
  induction servers generalizing names with
  | nil => exact ⟨List.nodup_nil, fun _ h => absurd h List.not_mem_nil⟩
  | cons server rest ih =>
    obtain ⟨hname, hnew, hrest⟩ := validateServers_cons h
    obtain ⟨hnodup, hall⟩ := ih hrest
    have hne : server.name ≠ [] := by
      intro hnil
      rw [hnil] at hname
      exact absurd hname (by decide)
    constructor
    · rw [List.map_cons, List.nodup_cons]
      refine ⟨fun hmem => ?_, hnodup⟩
      obtain ⟨other, hother, heq⟩ := List.mem_map.mp hmem
      exact (hall other hother).2 (by rw [heq]; exact List.mem_cons_self)
    · intro other hother
      rcases List.mem_cons.mp hother with rfl | hother
      · exact ⟨hne, hnew⟩
      · exact ⟨(hall other hother).1, fun hmem =>
          (hall other hother).2 (List.mem_cons_of_mem _ hmem)⟩

end
end DeepseekScience.Core
