import DeepseekScience.Mcp.Session

/-! The servers of the application (dss-mcp, `manager.rs`): tasks connect, look up and call them, and
hold the lock of the map only while they look. -/
namespace DeepseekScience.Mcp

open Runs

structure ManagedServer where
  client : MCPClient := {}
  toolsCache : List McpTool := []
  toolsEnabled : Bool
  url : Text

/-- Where a task is between two of its awaits, and what it returns at its end. -/
inductive Task where
  | away
  | connecting (name : Text)
  | connected (name : Text)
  | calling (server : ℕ) (tool : Text) (arguments : Json)
  | listing (server : ℕ)
  | reading (server : ℕ) (uri : Text)
  | added (name : Text) (toolsEnabled : Bool) (answer : Except ClientError Unit)
  | called (answer : Except ClientError Text)
  | listed (answer : Except ClientError (List McpResource))
  | contents (answer : Except ClientError (List McpResourceContent))

/-- A server is named by the task that has made its client. It stays on in `heap` when nothing
refers to it any more. -/
structure MCPServerManager where
  servers : List (Text × ℕ) := []
  heap : ℕ → Option ManagedServer := fun _ => none
  tasks : ℕ → Task := fun _ => .away

def ensureConnectionMode (name : Text) (server : ManagedServer) (toolsEnabled : Bool) :
    Except ClientError Unit :=
  if server.toolsEnabled = toolsEnabled then .ok ()
  else
    .error (.answer (.invalid ("server ".toList ++ name ++
      " is already connected with a different capability mode".toList)))

def notConnected (server : Text) : ClientError :=
  .answer (.invalid ("server ".toList ++ server ++ " not connected".toList))

/-- The tools behind a handshake; a listing that fails counts as an empty one. -/
def fetchTools (L : McpLib) (peer : Peer) (toolsEnabled : Bool) (client : MCPClient) :
    List McpTool × MCPClient :=
  if toolsEnabled then
    match client.listTools L peer with
    | (.ok tools, client) => (tools, client)
    | (.error _, client) => ([], client)
  else ([], client)

namespace MCPServerManager

section
variable (m : MCPServerManager) (id : ℕ)

def managed (server : Text) : Option (ℕ × ManagedServer) :=
  (m.servers.lookup server).bind fun k => (m.heap k).map (k, ·)

def become (task : Task) : MCPServerManager := { m with tasks := Function.update m.tasks id task }

def store (k : ℕ) (server : ManagedServer) : MCPServerManager :=
  { m with heap := Function.update m.heap k (some server) }

/-- `try_add_server_with_mode` up to the handshake; `made` is what making the client comes to. -/
def addServer (name url : Text) (toolsEnabled : Bool) (made : Except ClientError Unit) :
    MCPServerManager :=
  match m.managed name with
  | some (_, server) =>
    m.become id (.added name toolsEnabled (ensureConnectionMode name server toolsEnabled))
  | none =>
    match made with
    | .error e => m.become id (.added name toolsEnabled (.error e))
    | .ok () => (m.store id { toolsEnabled, url }).become id (.connecting name)

def connect (L : McpLib) (peer : Peer) (name : Text) (server : ManagedServer) : MCPServerManager :=
  match server.client.connect L peer with
  | (.error e, client) =>
    (m.store id { server with client := client }).become id (.added name server.toolsEnabled (.error e))
  | (.ok (), client) =>
    let (tools, client) := fetchTools L peer server.toolsEnabled client
    (m.store id { server with client := client, toolsCache := tools }).become id (.connected name)

/-- The map is looked at again: whoever is the first to insert stays. -/
def insert (name : Text) (server : ManagedServer) : MCPServerManager :=
  match m.managed name with
  | some (_, other) =>
    m.become id (.added name server.toolsEnabled (ensureConnectionMode name other server.toolsEnabled))
  | none =>
    { m with servers := (name, id) :: m.servers }.become id (.added name server.toolsEnabled (.ok ()))

def callTool (server tool : Text) (arguments : Json) : MCPServerManager :=
  match m.managed server with
  | none => m.become id (.called (.error (notConnected server)))
  | some (k, srv) =>
    if srv.toolsEnabled then m.become id (.calling k tool arguments)
    else
      m.become id (.called (.error (.answer (.invalid ("server ".toList ++ server ++
        " is connected for Resources only".toList)))))

def listResources (server : Text) : MCPServerManager :=
  match m.managed server with
  | none => m.become id (.listed (.error (notConnected server)))
  | some (k, _) => m.become id (.listing k)

def readResource (server uri : Text) : MCPServerManager :=
  match m.managed server with
  | none => m.become id (.contents (.error (notConnected server)))
  | some (k, _) => m.become id (.reading k uri)

/-- An operation of the client of a server, and the task behind it. -/
def serve {α : Type*} (k : ℕ) (op : MCPClient → α × MCPClient) (task : α → Task) :
    MCPServerManager :=
  match m.heap k with
  | none => m
  | some server =>
    let (answer, client) := op server.client
    (m.store k { server with client := client }).become id (task answer)

/-- The task goes on to its next await. -/
def advance (L : McpLib) (peer : Peer) : MCPServerManager :=
  match m.tasks id, m.heap id with
  | .connecting name, some server => m.connect id L peer name server
  | .connected name, some server => m.insert id name server
  | .calling k tool arguments, _ => m.serve id k (·.callTool L peer tool arguments) .called
  | .listing k, _ => m.serve id k (·.listResources L peer) .listed
  | .reading k uri, _ => m.serve id k (·.readResource L peer uri) .contents
  | _, _ => m

def closeAll : MCPServerManager := { m with servers := [] }

/-- The tools of all servers, each with the name of its own. -/
def listAllTools : List (Text × McpTool) :=
  m.servers.flatMap fun entry =>
    ((m.heap entry.2).elim [] ManagedServer.toolsCache).map (entry.1, ·)

end

end MCPServerManager

/-- One event: a task begins or goes on, or the map is cleared. -/
inductive ManagerEvent where
  | addServer (id : ℕ) (name url : Text) (toolsEnabled : Bool) (made : Except ClientError Unit)
  | callTool (id : ℕ) (server tool : Text) (arguments : Json)
  | listResources (id : ℕ) (server : Text)
  | readResource (id : ℕ) (server uri : Text)
  | advance (id : ℕ) (peer : Peer)
  | closeAll

/-- A task that begins. -/
def MCPServerManager.begin (m : MCPServerManager) (id : ℕ)
    (first : MCPServerManager → MCPServerManager) : MCPServerManager :=
  match m.tasks id with
  | .away => first m
  | _ => m

def MCPServerManager.step (L : McpLib) (m : MCPServerManager) : ManagerEvent → MCPServerManager
  | .addServer id name url toolsEnabled made =>
    m.begin id (·.addServer id name url toolsEnabled made)
  | .callTool id server tool arguments => m.begin id (·.callTool id server tool arguments)
  | .listResources id server => m.begin id (·.listResources id server)
  | .readResource id server uri => m.begin id (·.readResource id server uri)
  | .advance id peer => m.advance id L peer
  | .closeAll => m.closeAll

end DeepseekScience.Mcp
