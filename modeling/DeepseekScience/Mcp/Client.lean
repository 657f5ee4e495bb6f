import DeepseekScience.Lib.Paging
import DeepseekScience.Mcp.Response
import DeepseekScience.Mcp.ToolSchema

/-! The client of one server (dss-mcp, `client.rs`): the handshake, and the lists, resources and
tool calls behind it. The other side answers as it likes, with all messages so far in view. -/
namespace DeepseekScience.Mcp

def protocolVersion : Text := "2024-11-05".toList

def maxResourceContentBytes : ℕ := 1024 * 1024

def maxResourceListBytes : ℕ := 2 * 1024 * 1024

def maxResourcePages : ℕ := 32

def maxResources : ℕ := 1024

/-- The errors of the client; `http` is the text of an exchange that has failed. -/
inductive ClientError where
  | http (message : Text)
  | answer (error : McpError)
  | resourcesUnsupported
  | resourceListTooLarge (limit : ℕ)
  | toolCountExceeded (limit : ℕ)
  | toolListTooLarge (limit : ℕ)
  | toolReported (message : Text)
  | unsupportedToolContent (kind : Text)
  deriving DecidableEq

def invalid (message : String) : ClientError := .answer (.invalid message.toList)

structure McpServerCapabilities where
  tools : Bool := false
  resources : Bool := false
  deriving DecidableEq

structure McpServerMetadata where
  protocolVersion : Text
  serverName : Text
  serverVersion : Text
  capabilities : McpServerCapabilities
  deriving DecidableEq

structure McpResource where
  uri : Text
  name : Text
  title : Option Text
  description : Option Text
  mimeType : Option Text
  size : Option ℕ
  deriving DecidableEq

structure McpResourceContent where
  uri : Text
  mimeType : Option Text
  text : Option Text
  blob : Option Text
  deriving DecidableEq

/-- A message of the client; a notification has no id. -/
structure Message where
  id : Option ℕ
  method : Text
  params : Json
  session : Option Text

/-- What comes back to a message: nothing, a reply that breaks off in its body, or a whole one. -/
inductive Exchange where
  | failed (error : Text)
  | broken (reply : HttpReply) (error : Text)
  | arrived (reply : HttpReply)

/-- The other side. -/
abbrev Peer := List Message → Exchange

/-- What the client takes from packages. -/
structure McpLib where
  json : SerdeJson
  /-- The text of a failed JSON parse. -/
  jsonError : Text → Text
  /-- Base64 in the standard alphabet. -/
  isBase64 : Text → Bool
  /-- The text of a body, with replacement characters where it is not UTF-8. -/
  lossy : Body → Text

structure MCPClient where
  sessionId : Option Text := none
  metadata : Option McpServerMetadata := none
  connected : Bool := false
  nextId : ℕ := 1
  /-- All messages so far. -/
  sent : List Message := []

/-- A reply whose body has not come to its end. -/
def brokenReply (stored : Option Text) (reply : HttpReply) (error : Text) : ClientError :=
  match captureSession stored reply, readBounded reply maxResponseBytes with
  | .error e, _ => .answer e
  | .ok _, .error e => .answer e
  | .ok _, .ok _ => .http error

/-- The session behind what came back. -/
def sessionBehind (stored : Option Text) : Exchange → Option Text
  | .failed _ => stored
  | .broken reply _ | .arrived reply =>
    match captureSession stored reply with
    | .ok session => session
    | .error _ => stored

/-- `u8::is_ascii_whitespace`, of a character. -/
def isAsciiWhitespace (c : Char) : Bool := [' ', '\t', '\n', '\x0c', '\r'].contains c

def Body.isBlank : Body → Bool
  | .text t => t.all isAsciiWhitespace
  | .bytes _ => false

namespace MCPClient

section
variable (L : McpLib) (peer : Peer) (c : MCPClient)

/-- The client behind an exchange. -/
def exchanged (message : Message) : MCPClient :=
  let sent := c.sent ++ [message]
  { c with sent := sent, sessionId := sessionBehind c.sessionId (peer sent) }

/-- The request that `rpc` sends. -/
def request (method : Text) (params : Json) : Message := ⟨some c.nextId, method, params, c.sessionId⟩

def rpc (method : Text) (params : Json) : Except ClientError Json × MCPClient :=
  let message := c.request method params
  ((match peer (c.sent ++ [message]) with
    | .failed error => .error (.http error)
    | .broken reply error => .error (brokenReply c.sessionId reply error)
    | .arrived reply =>
      (Mcp.rpc L.json L.jsonError c.nextId c.sessionId reply).1.mapError .answer),
    { c.exchanged peer message with nextId := c.nextId + 1 })

def notify (method : Text) (params : Json) : Except ClientError Unit × MCPClient :=
  let message : Message := ⟨none, method, params, c.sessionId⟩
  ((match peer (c.sent ++ [message]) with
    | .failed error => .error (.http error)
    | .broken reply error => .error (brokenReply c.sessionId reply error)
    | .arrived reply =>
      match captureSession c.sessionId reply, readBounded reply maxResponseBytes with
      | .error e, _ => .error (.answer e)
      | .ok _, .error e => .error (.answer e)
      | .ok _, .ok body =>
        if reply.isSuccess then
          if body.isBlank then .ok () else .error (invalid "notification response body must be empty")
        else
          .error (.answer (.transport ("HTTP ".toList ++ reply.status ++ ": ".toList ++
            truncate (L.lossy body) 300)))),
    c.exchanged peer message)

end

end MCPClient

def initializeParams : Json :=
  .object [("capabilities".toList, .object []),
    ("clientInfo".toList, .object [("name".toList, .string "deepseek-science".toList),
      ("version".toList, .string "0.1.0".toList)]),
    ("protocolVersion".toList, .string protocolVersion)]

/-- What the answer to `initialize` says of the server. -/
def metadataOf (result : Json) : Except McpError McpServerMetadata := do
  let version ← requiredString result "protocolVersion".toList 64
  if version ≠ protocolVersion then
    .error (.invalid ("server negotiated unsupported protocol version ".toList ++ version))
  match result.get? "capabilities".toList with
  | some (.object capabilities) =>
    match result.get? "serverInfo".toList with
    | some (.object serverInfo) =>
      let serverName ← requiredString (.object serverInfo) "name".toList 256
      let serverVersion ← requiredString (.object serverInfo) "version".toList 128
      return { protocolVersion := version, serverName, serverVersion
               capabilities :=
                { tools := (capabilities.lookup "tools".toList).any Json.isObject
                  resources := (capabilities.lookup "resources".toList).any Json.isObject } }
    | _ => .error (.invalid "initialize serverInfo missing".toList)
  | _ => .error (.invalid "initialize capabilities missing".toList)

/-- Texts that are shown nowhere. -/
def optionalString (value : Json) (key : Text) (max : ℕ) : Except McpError (Option Text) :=
  match value.get? key with
  | none => .ok none
  | some .null => .ok none
  | some (.string text) =>
    if byteLen text ≤ max ∧ text.any isControl = false then .ok (some text)
    else .error (.invalid (key ++ " must be a bounded string".toList))
  | some _ => .error (.invalid (key ++ " must be a bounded string".toList))

def optionalContentString (value : Json) (key : Text) (max : ℕ) : Except McpError (Option Text) :=
  match value.get? key with
  | none => .ok none
  | some .null => .ok none
  | some (.string text) =>
    if byteLen text ≤ max then .ok (some text)
    else .error (.invalid (key ++ " must be a bounded UTF-8 string".toList))
  | some _ => .error (.invalid (key ++ " must be a bounded UTF-8 string".toList))

def parseResource (value : Json) : Except McpError McpResource := do
  let uri ← requiredString value "uri".toList maxStringBytes
  let name ← requiredString value "name".toList 1024
  let title ← optionalString value "title".toList 1024
  let description ← optionalDisplayString value "description".toList maxStringBytes
  let mimeType ← optionalString value "mimeType".toList 256
  let size ← match value.get? "size".toList with
    | none => .ok none
    | some size =>
      match size.asU64 with
      | some n => .ok (some n)
      | none => .error (.invalid "resource size must be unsigned".toList)
  return ⟨uri, name, title, description, mimeType, size⟩

def parseResourceContent (L : McpLib) (requestedUri : Text) (value : Json) :
    Except McpError McpResourceContent := do
  let uri ← requiredString value "uri".toList maxStringBytes
  if uri ≠ requestedUri then
    .error (.invalid "resources/read content URI does not match the requested URI".toList)
  let text ← optionalContentString value "text".toList maxResourceContentBytes
  let blob ← optionalString value "blob".toList maxResourceContentBytes
  if text.isSome = blob.isSome then
    .error (.invalid "resource content must contain exactly one of text or blob".toList)
  if blob.any (!L.isBase64 ·) then
    .error (.invalid "resource blob is not valid base64".toList)
  let mimeType ← optionalString value "mimeType".toList 256
  return ⟨uri, mimeType, text, blob⟩

def checkedResourceListTotal (L : McpLib) (current : ℕ) (value : Json) : Except ClientError ℕ :=
  let total := current + byteLen (L.json.toText value)
  if total ≤ maxResourceListBytes then .ok total
  else .error (.resourceListTooLarge maxResourceListBytes)

def checkedToolListTotal (L : McpLib) (current : ℕ) (value : Json) : Except ClientError ℕ :=
  let total := current + byteLen (L.json.toText value)
  if total ≤ maxMcpToolListBytes then .ok total
  else .error (.toolListTooLarge maxMcpToolListBytes)

/-- The tools of a listing; definitions that cannot be read are passed over. -/
def readTools (L : McpLib) (aggregateBytes : ℕ) : List Json → Except ClientError (List McpTool)
  | [] => .ok []
  | tool :: rest => do
    let aggregateBytes ← checkedToolListTotal L aggregateBytes tool
    let output ← readTools L aggregateBytes rest
    return (parseTool tool).toOption.toList ++ output

/-- The texts of the content of a tool result. -/
def readParts (parts : List Text) (aggregateBytes : ℕ) : List Json → Except ClientError (List Text)
  | [] => .ok parts
  | item :: rest =>
    match (item.get? "type".toList).bind Json.asStr with
    | none => .error (invalid "tool content type must be a string")
    | some kind =>
      if kind ≠ "text".toList then .error (.unsupportedToolContent kind)
      else
        match (item.get? "text".toList).bind Json.asStr with
        | none => .error (invalid "text tool content needs text")
        | some text =>
          let total := aggregateBytes + byteLen text + if parts.isEmpty then 0 else 1
          if total ≤ maxResourceContentBytes then readParts (parts ++ [text]) total rest
          else .error (.answer (.responseTooLarge maxResourceContentBytes))

/-- What a tool call comes to. -/
def readToolResult (result : Json) : Except ClientError Text :=
  match (result.get? "content".toList).bind Json.asArray with
  | none => .error (invalid "tools/call result.content not array")
  | some content =>
    match result.get? "isError".toList with
    | some (.bool isError) => conclude isError content
    | none => conclude false content
    | some _ => .error (invalid "tools/call isError must be boolean")
where
  conclude (isError : Bool) (content : List Json) : Except ClientError Text :=
    match readParts [] 0 content with
    | .error e => .error e
    | .ok parts =>
      let output := joinText ['\n'] parts
      if isError then
        .error (.toolReported
          (if output.isEmpty then "remote MCP tool returned no text details".toList else output))
      else if parts.isEmpty then .error (invalid "tools/call returned no supported text content")
      else .ok output

/-- The entries of a page, behind those of the pages in front of it and their bytes. -/
def readResources (L : McpLib) (output : List McpResource) (aggregateBytes : ℕ) :
    List Json → Except ClientError (List McpResource × ℕ)
  | [] => .ok (output, aggregateBytes)
  | value :: rest =>
    if maxResources ≤ output.length then .error (invalid "resources/list exceeds 1024 entries")
    else
      match checkedResourceListTotal L aggregateBytes value with
      | .error e => .error e
      | .ok aggregateBytes =>
        match parseResource value with
        | .error e => .error (.answer e)
        | .ok resource => readResources L (output ++ [resource]) aggregateBytes rest

/-- The parameters that ask for a page. -/
def pageParams (cursor : Option Text) : Json :=
  .object (cursor.toList.map fun cursor => ("cursor".toList, .string cursor))

namespace MCPClient

section
variable (L : McpLib) (peer : Peer)

def connect (c : MCPClient) : Except ClientError Unit × MCPClient :=
  match c.rpc L peer "initialize".toList initializeParams with
  | (.error e, c) => (.error e, c)
  | (.ok result, c) =>
    match metadataOf result with
    | .error e => (.error (.answer e), c)
    | .ok metadata =>
      match c.notify L peer "notifications/initialized".toList (.object []) with
      | (.error e, c) => (.error e, c)
      | (.ok (), c) => (.ok (), { c with metadata := some metadata, connected := true })

def listTools (c : MCPClient) : Except ClientError (List McpTool) × MCPClient :=
  match c.rpc L peer "tools/list".toList (.object []) with
  | (.error e, c) => (.error e, c)
  | (.ok result, c) =>
    match (result.get? "tools".toList).bind Json.asArray with
    | none => (.error (invalid "tools/list result.tools not array"), c)
    | some tools =>
      if maxMcpTools < tools.length then (.error (.toolCountExceeded maxMcpTools), c)
      else (readTools L 0 tools, c)

def callTool (name : Text) (arguments : Json) (c : MCPClient) : Except ClientError Text × MCPClient :=
  match c.rpc L peer "tools/call".toList
      (.object [("arguments".toList, arguments), ("name".toList, .string name)]) with
  | (.error e, c) => (.error e, c)
  | (.ok result, c) => (readToolResult result, c)

def requireResources (c : MCPClient) : Except ClientError Unit :=
  match c.metadata with
  | some metadata => if metadata.capabilities.resources then .ok () else .error .resourcesUnsupported
  | none => .error (invalid "MCP client is not connected")

/-- How the pages of the listing are fetched and read. -/
def resourcePages : Paging.Reader Text Json (List McpResource × ℕ) MCPClient ClientError where
  fetch cursor c := c.rpc L peer "resources/list".toList (pageParams cursor)
  accept acc result :=
    match (result.get? "resources".toList).bind Json.asArray with
    | none => .error (invalid "resources/list result.resources not array")
    | some resources => readResources L acc.1 acc.2 resources
  next result :=
    match optionalString result "nextCursor".toList 2048 with
    | .error e => .error (.answer e)
    | .ok next => .ok (next.filter (!·.isEmpty))

def followResources (c : MCPClient) : Except ClientError (List McpResource × ℕ) × MCPClient :=
  (resourcePages L peer).follow (invalid "resources/list cursor cycle detected")
    (invalid "resources/list exceeds 32 pages") maxResourcePages [] none ([], 0) c

def listResources (c : MCPClient) : Except ClientError (List McpResource) × MCPClient :=
  match c.requireResources with
  | .error e => (.error e, c)
  | .ok () =>
    match c.followResources L peer with
    | (.error e, c) => (.error e, c)
    | (.ok output, c) => (.ok output.1, c)

def readResource (uri : Text) (c : MCPClient) :
    Except ClientError (List McpResourceContent) × MCPClient :=
  match c.requireResources with
  | .error e => (.error e, c)
  | .ok () =>
    if uri.isEmpty || decide (maxStringBytes < byteLen uri) || uri.any isControl then
      (.error (invalid "resource URI is empty or unsafe"), c)
    else
      match c.rpc L peer "resources/read".toList (.object [("uri".toList, .string uri)]) with
      | (.error e, c) => (.error e, c)
      | (.ok result, c) =>
        match (result.get? "contents".toList).bind Json.asArray with
        | none => (.error (invalid "resources/read result.contents not array"), c)
        | some contents =>
          if 64 < contents.length then
            (.error (invalid "resources/read returned too many content items"), c)
          else ((contents.mapM (parseResourceContent L uri)).mapError .answer, c)

end

end MCPClient

end DeepseekScience.Mcp
