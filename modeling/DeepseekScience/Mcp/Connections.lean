import DeepseekScience.Mcp.Manager

/-! Over every order of events: a server that is connected for its resources alone never hears of
tools, and a server in the map stays what it is until the map is cleared. -/
namespace DeepseekScience.Mcp

open Runs Paging

section
/-! What a client has asked for. -/

variable {L : McpLib} {peer : Peer} {c : MCPClient}

def AboutTools (method : Text) : Prop :=
  method = "tools/list".toList ∨ method = "tools/call".toList

/-- The server has not heard of tools. -/
def Quiet (c : MCPClient) : Prop := ∀ message ∈ c.sent, ¬ AboutTools message.method

@[simp] theorem rpc_connected (method : Text) (params : Json) :
    (c.rpc L peer method params).2.connected = c.connected := rfl

@[simp] theorem notify_connected (method : Text) (params : Json) :
    (c.notify L peer method params).2.connected = c.connected := rfl

theorem Quiet.exchanged {message : Message} {nextId : ℕ} (h : Quiet c)
    (hmethod : ¬ AboutTools message.method) :
    Quiet { c.exchanged peer message with nextId := nextId } := by
  intro other hother
  obtain hold | hnew := List.mem_append.mp hother
  · exact h other hold
  · rwa [List.mem_singleton.mp hnew]

/-- The handshake, with what its two messages and its end keep. -/
theorem connect_invariant {P : MCPClient → Prop} (h : P c)
    (hrequest : ∀ c params, P c → P (MCPClient.rpc L peer c "initialize".toList params).2)
    (hnote : ∀ c params, P c → P (MCPClient.notify L peer c "notifications/initialized".toList params).2)
    (hdone : ∀ c metadata, P c → P { c with metadata := some metadata, connected := true }) :
    P (c.connect L peer).2 := by
  have hfirst := hrequest c initializeParams h
  unfold MCPClient.connect
  split <;> rename_i heq <;> rw [heq] at hfirst
  · exact hfirst
  split
  · exact hfirst
  have hsecond := hnote _ (.object []) hfirst
  split <;> rename_i heq' <;> rw [heq'] at hsecond
  · exact hsecond
  · exact hdone _ _ hsecond

theorem connect_connected (h : (c.connect L peer).1 = .ok ()) :
    (c.connect L peer).2.connected = true := by
  unfold MCPClient.connect at h ⊢
  split at h
  · cases h
  split at h
  · cases h
  split at h
  · cases h
  · simp_all

theorem Quiet.connect (h : Quiet c) : Quiet (c.connect L peer).2 := by
  apply connect_invariant h
  · intro c params h
    exact h.exchanged (by simp [MCPClient.request, AboutTools])
  · intro c params h
    exact h.exchanged (by simp [AboutTools])
  · intro c metadata h
    exact h

/-- The listing of the resources is made of requests for pages. -/
theorem listResources_invariant {P : MCPClient → Prop} (h : P c)
    (hpage : ∀ c params, P c → P (MCPClient.rpc L peer c "resources/list".toList params).2) :
    P (c.listResources L peer).2 := by
  obtain hsame | ⟨-, hfollow⟩ := @listResources_state L peer c
  · rwa [hsame]
  · rw [hfollow]
    exact Reader.follow_invariant (P := P) (fun cursor c hc => hpage c _ hc) h

theorem Quiet.listResources (h : Quiet c) : Quiet (c.listResources L peer).2 :=
  listResources_invariant h fun c _ h => h.exchanged (by simp [MCPClient.request, AboutTools])

theorem Quiet.readResource (h : Quiet c) (uri : Text) : Quiet (c.readResource L peer uri).2 := by
  obtain hsame | ⟨-, hrpc⟩ := @readResource_state L peer c uri
  · rwa [hsame]
  · rw [hrpc]
    exact h.exchanged (by simp [MCPClient.request, AboutTools])

theorem listResources_connected (h : c.connected = true) :
    (c.listResources L peer).2.connected = true :=
  listResources_invariant (P := fun c => c.connected = true) h fun _ _ h => h

theorem readResource_connected (h : c.connected = true) (uri : Text) :
    (c.readResource L peer uri).2.connected = true := by
  obtain hsame | ⟨-, hrpc⟩ := @readResource_state L peer c uri
  · rwa [hsame]
  · rwa [hrpc]

theorem callTool_connected (h : c.connected = true) (name : Text) (arguments : Json) :
    (c.callTool L peer name arguments).2.connected = true := by
  rwa [callTool_state]

theorem fetchTools_false : fetchTools L peer false c = ([], c) := rfl

theorem fetchTools_connected (h : c.connected = true) (toolsEnabled : Bool) :
    (fetchTools L peer toolsEnabled c).2.connected = true := by
  have hlist : (c.listTools L peer).2.connected = true := by rwa [listTools_state]
  unfold fetchTools
  split
  · split <;> rename_i heq <;> rwa [heq] at hlist
  · exact h

end

section
/-! What holds of the manager at any time. -/

open MCPServerManager

variable {L : McpLib} {peer : Peer} {m m' : MCPServerManager} {id k : ℕ} {name : Text}
  {server server' : ManagedServer} {task : Task}

@[simp] theorem become_servers : (m.become id task).servers = m.servers := rfl

@[simp] theorem become_heap : (m.become id task).heap = m.heap := rfl

@[simp] theorem become_managed : (m.become id task).managed name = m.managed name := rfl

@[simp] theorem store_servers : (m.store k server).servers = m.servers := rfl

@[simp] theorem store_tasks : (m.store k server).tasks = m.tasks := rfl

theorem become_tasks (other : ℕ) :
    (m.become id task).tasks other = if other = id then task else m.tasks other :=
  Function.update_apply ..

theorem store_heap (other : ℕ) :
    (m.store k server).heap other = if other = k then some server else m.heap other :=
  Function.update_apply ..

theorem managed_eq_some : m.managed name = some (k, server) ↔
    m.servers.lookup name = some k ∧ m.heap k = some server := by
  simp only [managed, Option.bind_eq_some_iff, Option.map_eq_some_iff, Prod.mk.injEq]
  constructor
  · intro ⟨other, hlookup, srv, hheap, hother, hsrv⟩
    subst hother hsrv
    exact ⟨hlookup, hheap⟩
  · intro ⟨hlookup, hheap⟩
    exact ⟨k, hlookup, server, hheap, rfl, rfl⟩

/-- What a task may take for granted. -/
def Task.Fits (m : MCPServerManager) (id : ℕ) : Task → Prop
  | .away => m.heap id = none
  | .connecting _ => ∀ other, m.servers.lookup other ≠ some id
  | .connected _ => (∀ other, m.servers.lookup other ≠ some id) ∧
      ∃ server, m.heap id = some server ∧ server.client.connected = true
  | .calling k _ _ => ∃ server, m.heap k = some server ∧ server.toolsEnabled = true
  | _ => True

/-- For its resources alone: no tools are known of the server, and it has not heard of any. -/
def ManagedServer.Apart (server : ManagedServer) : Prop :=
  server.toolsEnabled = false → server.toolsCache = [] ∧ Quiet server.client

structure Sound (m : MCPServerManager) : Prop where
  tasks : ∀ id, (m.tasks id).Fits m id
  apart : ∀ k server, m.heap k = some server → server.Apart
  listed : ∀ name k, m.servers.lookup name = some k →
    ∃ server, m.heap k = some server ∧ server.client.connected = true

/-- Who is in the map stays there, and changes by what its client does alone. -/
def Keeps (m m' : MCPServerManager) : Prop :=
  ∀ name k server, m.managed name = some (k, server) →
    ∃ client, m'.managed name = some (k, { server with client := client })

/-- A server of the name is there, in that mode, and the handshake with it is over. -/
def InMode (m : MCPServerManager) (name : Text) (toolsEnabled : Bool) : Prop :=
  ∃ k server, m.managed name = some (k, server) ∧ server.toolsEnabled = toolsEnabled ∧
    server.client.connected = true

/-- Whoever is told that a server has been added finds it. -/
def Answers (m m' : MCPServerManager) : Prop :=
  ∀ id name toolsEnabled, m.tasks id ≠ m'.tasks id →
    m'.tasks id = .added name toolsEnabled (.ok ()) → InMode m' name toolsEnabled

/-- What a step does that does not clear the map. -/
structure Proper (m m' : MCPServerManager) : Prop where
  sound : Sound m'
  keeps : Keeps m m'
  answers : Answers m m'

theorem Proper.refl (h : Sound m) : Proper m m where
  sound := h
  keeps := fun _ _ server hserver => ⟨server.client, hserver⟩
  answers := fun _ _ _ hchange => absurd rfl hchange

theorem Sound.become (h : Sound m) (hfits : task.Fits m id) : Sound (m.become id task) where
  tasks := by
    intro other
    rw [become_tasks]
    split
    · rename_i heq
      rw [heq]
      exact hfits
    · exact h.tasks other
  apart := h.apart
  listed := h.listed

theorem Proper.become (h : Sound m) (hfits : task.Fits m id)
    (hanswer : ∀ name toolsEnabled, task = .added name toolsEnabled (.ok ()) →
      InMode m name toolsEnabled) : Proper m (m.become id task) where
  sound := h.become hfits
  keeps := fun _ _ server hserver => ⟨server.client, hserver⟩
  answers := by
    intro other name toolsEnabled hchange hadded
    rw [become_tasks] at hchange hadded
    split at hadded
    · exact hanswer name toolsEnabled hadded
    · simp_all

/-- A server changes, in its own mode and without losing its connection. -/
theorem Sound.store (h : Sound m) (haway : ∀ id, m.tasks id = .away → id ≠ k)
    (hapart : server'.Apart)
    (hsame : ∀ server, m.heap k = some server → server'.toolsEnabled = server.toolsEnabled ∧
      (server.client.connected = true → server'.client.connected = true)) :
    Sound (m.store k server') := by
  have hconnected : ∀ j server, m.heap j = some server → server.client.connected = true →
      ∃ server, (m.store k server').heap j = some server ∧ server.client.connected = true := by
    intro j server hserver hconnected
    rw [store_heap]
    split
    · rename_i heq
      subst heq
      exact ⟨server', rfl, (hsame server hserver).2 hconnected⟩
    · exact ⟨server, hserver, hconnected⟩
  constructor
  · intro id
    have hfits := h.tasks id
    rw [store_tasks]
    cases htask : m.tasks id with
    | away =>
      rw [htask] at hfits
      simpa only [Task.Fits, store_heap, if_neg (haway id htask)] using hfits
    | connecting name =>
      rw [htask] at hfits
      exact hfits
    | connected name =>
      rw [htask] at hfits
      obtain ⟨hnone, server, hserver, hdone⟩ := hfits
      exact ⟨hnone, hconnected id server hserver hdone⟩
    | calling j tool arguments =>
      rw [htask] at hfits
      obtain ⟨server, hserver, hmode⟩ := hfits
      simp only [Task.Fits, store_heap]
      split
      · rename_i heq
        subst heq
        exact ⟨server', rfl, by rw [(hsame server hserver).1, hmode]⟩
      · exact ⟨server, hserver, hmode⟩
    | _ => trivial
  · intro j server hserver
    rw [store_heap] at hserver
    split at hserver
    · rwa [← Option.some.inj hserver]
    · exact h.apart j server hserver
  · intro name j hlookup
    obtain ⟨server, hserver, hdone⟩ := h.listed name j hlookup
    exact hconnected j server hserver hdone

theorem Keeps.store_fresh (hfresh : ∀ other, m.servers.lookup other ≠ some k) :
    Keeps m (m.store k server') := by
  intro name j server hserver
  obtain ⟨hlookup, hheap⟩ := managed_eq_some.mp hserver
  have hne : j ≠ k := by
    intro heq
    exact hfresh name (heq ▸ hlookup)
  exact ⟨server.client, managed_eq_some.mpr ⟨hlookup, by rwa [store_heap, if_neg hne]⟩⟩

theorem Keeps.store_client (hk : m.heap k = some server) (client : MCPClient) :
    Keeps m (m.store k { server with client := client }) := by
  intro name j srv hsrv
  obtain ⟨hlookup, hheap⟩ := managed_eq_some.mp hsrv
  by_cases hj : j = k
  · subst hj
    obtain rfl : server = srv := by simpa [hk] using hheap
    exact ⟨client, managed_eq_some.mpr ⟨hlookup, by simp [store_heap]⟩⟩
  · exact ⟨srv.client, managed_eq_some.mpr ⟨hlookup, by rwa [store_heap, if_neg hj]⟩⟩

theorem Proper.store_become (h : Sound ((m.store k server').become id task))
    (hkeeps : Keeps m (m.store k server'))
    (hanswer : ∀ name toolsEnabled, task ≠ .added name toolsEnabled (.ok ())) :
    Proper m ((m.store k server').become id task) where
  sound := h
  keeps := hkeeps
  answers := by
    intro other name toolsEnabled hchange hadded
    rw [become_tasks] at hchange hadded
    split at hadded
    · exact absurd hadded (hanswer name toolsEnabled)
    · simp_all

theorem ensureConnectionMode_ok {toolsEnabled : Bool} :
    ensureConnectionMode name server toolsEnabled = .ok () ↔ server.toolsEnabled = toolsEnabled := by
  unfold ensureConnectionMode
  split <;> simp_all

/-- Whoever comes second is told whether the server is there in the mode asked for. -/
theorem Sound.present (h : Sound m) (hserver : m.managed name = some (k, server))
    (toolsEnabled : Bool) :
    Proper m (m.become id
      (.added name toolsEnabled (ensureConnectionMode name server toolsEnabled))) := by
  apply Proper.become h
  · trivial
  · intro other mode heq
    obtain ⟨rfl, rfl, hmode⟩ := Task.added.inj heq
    obtain ⟨hlookup, hheap⟩ := managed_eq_some.mp hserver
    obtain ⟨srv, hsrv, hdone⟩ := h.listed _ _ hlookup
    obtain rfl : server = srv := by simpa [hheap] using hsrv
    exact ⟨k, server, hserver, ensureConnectionMode_ok.mp hmode, hdone⟩

theorem Sound.addServer (h : Sound m) (haway : m.tasks id = .away) (name url : Text)
    (toolsEnabled : Bool) (made : Except ClientError Unit) :
    Proper m (m.addServer id name url toolsEnabled made) := by
  have hunborn : m.heap id = none := by
    have hfits := h.tasks id
    rwa [haway] at hfits
  have hfresh : ∀ other, m.servers.lookup other ≠ some id := by
    intro other hlookup
    obtain ⟨server, hserver, -⟩ := h.listed other id hlookup
    simp [hunborn] at hserver
  unfold MCPServerManager.addServer
  split
  · rename_i hserver
    exact h.present hserver toolsEnabled
  cases made with
  | error e => exact Proper.become h trivial (by simp)
  | ok _ =>
    have hbegun : Sound (m.become id (.connecting name)) := h.become hfresh
    have hstored : Sound ((m.become id (.connecting name)).store id { toolsEnabled, url }) := by
      apply hbegun.store
      · intro other hother
        rw [become_tasks] at hother
        split at hother <;> simp_all
      · intro _
        exact ⟨rfl, by simp [Quiet]⟩
      · simp [hunborn]
    exact Proper.store_become hstored (Keeps.store_fresh hfresh) (by simp)

theorem Sound.connect (h : Sound m) (htask : m.tasks id = .connecting name)
    (hserver : m.heap id = some server) : Proper m (m.connect id L peer name server) := by
  have hfresh : ∀ other, m.servers.lookup other ≠ some id := by
    have hfits := h.tasks id
    rwa [htask] at hfits
  have haway : ∀ other, m.tasks other = .away → other ≠ id := by
    intro other hother heq
    rw [heq, htask] at hother
    cases hother
  have hquiet : server.toolsEnabled = false → Quiet (server.client.connect L peer).2 :=
    fun hmode => (h.apart id server hserver hmode).2.connect
  have hconnected : server.client.connected = true → (server.client.connect L peer).2.connected = true :=
    fun hdone => connect_invariant (P := fun c => c.connected = true) hdone (fun _ _ h => h)
      (fun _ _ h => h) fun _ _ _ => rfl
  have hdone : (server.client.connect L peer).1 = .ok () →
      (server.client.connect L peer).2.connected = true := connect_connected
  unfold MCPServerManager.connect
  split <;> rename_i heq <;> rw [heq] at hquiet hconnected hdone
  · rename_i e client
    apply Proper.store_become _ (Keeps.store_fresh hfresh) (by simp)
    refine (h.store haway (fun hmode => ?_) fun srv hsrv => ?_).become trivial
    · exact ⟨(h.apart id server hserver hmode).1, hquiet hmode⟩
    · obtain rfl : server = srv := by simpa [hserver] using hsrv
      exact ⟨rfl, hconnected⟩
  · rename_i client
    have hfetched : (fetchTools L peer server.toolsEnabled client).2.connected = true :=
      fetchTools_connected (hdone rfl) server.toolsEnabled
    cases hfetch : fetchTools L peer server.toolsEnabled client with
    | mk tools fetched =>
      rw [hfetch] at hfetched
      apply Proper.store_become _ (Keeps.store_fresh hfresh) (by simp)
      refine (h.store haway (fun hmode => ?_) fun srv hsrv => ?_).become ?_
      · rw [show server.toolsEnabled = false from hmode, fetchTools_false] at hfetch
        cases hfetch
        exact ⟨rfl, hquiet hmode⟩
      · obtain rfl : server = srv := by simpa [hserver] using hsrv
        exact ⟨rfl, fun _ => hfetched⟩
      · exact ⟨hfresh, _, by rw [store_heap, if_pos rfl], hfetched⟩

theorem lookup_inserted (servers : List (Text × ℕ)) (other : Text) :
    ((name, id) :: servers).lookup other = if other = name then some id else servers.lookup other := by
  rw [List.lookup_cons]
  split <;> simp_all

theorem Sound.insert_entry (h : Sound m) (hserver : m.heap id = some server)
    (hdone : server.client.connected = true) :
    Sound ({ m with servers := (name, id) :: m.servers }.become id
      (.added name server.toolsEnabled (.ok ()))) where
  tasks := by
    intro other
    have hfits := h.tasks other
    rw [become_tasks]
    split
    · trivial
    rename_i hne
    have hentry : ∀ {j : ℕ}, (∀ n, m.servers.lookup n ≠ some j) → j ≠ id →
        ∀ n, ((name, id) :: m.servers).lookup n ≠ some j := by
      intro j hj hjid n
      rw [lookup_inserted]
      split
      · simpa [eq_comm] using hjid
      · exact hj n
    cases htask : m.tasks other with
    | connecting other =>
      rw [htask] at hfits
      exact hentry hfits hne
    | connected other =>
      rw [htask] at hfits
      exact ⟨hentry hfits.1 hne, hfits.2⟩
    | _ =>
      rw [htask] at hfits
      exact hfits
  apart := h.apart
  listed := by
    intro n j hlookup
    simp only [become_servers, lookup_inserted] at hlookup
    split at hlookup
    · obtain rfl : id = j := by simpa using hlookup
      exact ⟨server, hserver, hdone⟩
    · exact h.listed n j hlookup

theorem Sound.insert (h : Sound m) (htask : m.tasks id = .connected name)
    (hserver : m.heap id = some server) : Proper m (m.insert id name server) := by
  have hfits := h.tasks id
  rw [htask] at hfits
  obtain ⟨hfresh, srv, hsrv, hdone⟩ := hfits
  obtain rfl : server = srv := by simpa [hserver] using hsrv
  unfold MCPServerManager.insert
  split
  · rename_i hother
    exact h.present hother server.toolsEnabled
  rename_i hnone
  have habsent : m.servers.lookup name = none := by
    by_contra hsome
    obtain ⟨j, hj⟩ := Option.ne_none_iff_exists'.mp hsome
    obtain ⟨other, hother, -⟩ := h.listed name j hj
    rw [managed_eq_some.mpr ⟨hj, hother⟩] at hnone
    cases hnone
  constructor
  · exact h.insert_entry hserver hdone
  · intro other j srv hsrv
    obtain ⟨hlookup, hheap⟩ := managed_eq_some.mp hsrv
    have hne : other ≠ name := by
      intro heq
      simp [heq, habsent] at hlookup
    refine ⟨srv.client, managed_eq_some.mpr ⟨?_, hheap⟩⟩
    simpa [lookup_inserted, hne] using hlookup
  · intro other mode toolsEnabled hchange hadded
    rw [become_tasks] at hchange hadded
    split at hadded
    · obtain ⟨rfl, rfl, -⟩ := Task.added.inj hadded
      exact ⟨id, server, managed_eq_some.mpr ⟨by simp, hserver⟩, rfl, hdone⟩
    · simp_all

theorem Sound.serve {α : Type*} (h : Sound m) {op : MCPClient → α × MCPClient} {task : α → Task}
    (hquiet : ∀ server, m.heap k = some server → server.Apart →
      server.toolsEnabled = false → Quiet (op server.client).2)
    (hconnected : ∀ c, c.connected = true → (op c).2.connected = true)
    (htask : ∀ a m, (task a).Fits m id)
    (hanswer : ∀ a name toolsEnabled, task a ≠ .added name toolsEnabled (.ok ())) :
    Proper m (m.serve id k op task) := by
  unfold MCPServerManager.serve
  split
  · exact Proper.refl h
  rename_i server hserver
  apply Proper.store_become _ (Keeps.store_client hserver _) (hanswer _)
  refine (h.store (fun other hother heq => ?_) (fun hmode => ?_) fun srv hsrv => ?_).become
    (htask _ _)
  · have hfits := h.tasks other
    rw [hother, heq] at hfits
    simp [Task.Fits, hserver] at hfits
  · have hapart := h.apart k server hserver
    exact ⟨(hapart hmode).1, hquiet server hserver hapart hmode⟩
  · obtain rfl : server = srv := by simpa [hserver] using hsrv
    exact ⟨rfl, hconnected _⟩

theorem Sound.callTool (h : Sound m) (server tool : Text) (arguments : Json) :
    Proper m (m.callTool id server tool arguments) := by
  unfold MCPServerManager.callTool
  split
  · exact Proper.become h trivial (by simp)
  rename_i k srv hserver
  split
  · rename_i hmode
    exact Proper.become h ⟨srv, (managed_eq_some.mp hserver).2, hmode⟩ (by simp)
  · exact Proper.become h trivial (by simp)

theorem Sound.listResources (h : Sound m) (server : Text) :
    Proper m (m.listResources id server) := by
  unfold MCPServerManager.listResources
  split <;> exact Proper.become h trivial (by simp)

theorem Sound.readResource (h : Sound m) (server uri : Text) :
    Proper m (m.readResource id server uri) := by
  unfold MCPServerManager.readResource
  split <;> exact Proper.become h trivial (by simp)

theorem Sound.advance (h : Sound m) (id : ℕ) : Proper m (m.advance id L peer) := by
  unfold MCPServerManager.advance
  split
  · rename_i htask hserver
    exact h.connect htask hserver
  · rename_i htask hserver
    exact h.insert htask hserver
  · rename_i k tool arguments htask
    have hfits := h.tasks id
    rw [htask] at hfits
    obtain ⟨srv, hsrv, hmode⟩ := hfits
    apply h.serve
    · intro server hserver _ hapart
      simp_all
    · intro c hc
      exact callTool_connected hc tool arguments
    · simp [Task.Fits]
    · simp
  · apply h.serve
    · intro server _ hapart hmode
      exact (hapart hmode).2.listResources
    · intro c hc
      exact listResources_connected hc
    · simp [Task.Fits]
    · simp
  · rename_i k uri _
    apply h.serve
    · intro server _ hapart hmode
      exact (hapart hmode).2.readResource uri
    · intro c hc
      exact readResource_connected hc uri
    · simp [Task.Fits]
    · simp
  · exact Proper.refl h

theorem Sound.begin (h : Sound m) {first : MCPServerManager → MCPServerManager}
    (hfirst : m.tasks id = .away → Proper m (first m)) : Proper m (m.begin id first) := by
  unfold MCPServerManager.begin
  split
  · rename_i haway
    exact hfirst haway
  · exact Proper.refl h

theorem Sound.proper (h : Sound m) {event : ManagerEvent} (hevent : event ≠ .closeAll) :
    Proper m (m.step L event) := by
  cases event with
  | addServer id name url toolsEnabled made =>
    apply h.begin
    exact fun haway => h.addServer haway name url toolsEnabled made
  | callTool id server tool arguments =>
    apply h.begin
    exact fun _ => h.callTool server tool arguments
  | listResources id server =>
    apply h.begin
    exact fun _ => h.listResources server
  | readResource id server uri =>
    apply h.begin
    exact fun _ => h.readResource server uri
  | advance id peer => exact h.advance id
  | closeAll => exact absurd rfl hevent

theorem Sound.closeAll (h : Sound m) : Sound m.closeAll where
  tasks := by
    intro id
    have hfits := h.tasks id
    show (m.tasks id).Fits m.closeAll id
    cases htask : m.tasks id with
    | connecting name =>
      intro other
      simp [MCPServerManager.closeAll]
    | connected name =>
      rw [htask] at hfits
      exact ⟨by simp [MCPServerManager.closeAll], hfits.2⟩
    | _ =>
      rw [htask] at hfits
      exact hfits
  apart := h.apart
  listed := by simp [MCPServerManager.closeAll]

theorem Sound.step (h : Sound m) (event : ManagerEvent) : Sound (m.step L event) := by
  by_cases hevent : event = .closeAll
  · subst hevent
    exact h.closeAll
  · exact (h.proper hevent).sound

theorem sound_start : Sound {} where
  tasks := fun _ => rfl
  apart := by simp
  listed := by simp

theorem Sound.answers (h : Sound m) (event : ManagerEvent) : Answers m (m.step L event) := by
  by_cases hevent : event = .closeAll
  · subst hevent
    exact fun _ _ _ hchange => absurd rfl hchange
  · exact (h.proper hevent).answers

theorem Keeps.trans {m'' : MCPServerManager} (h : Keeps m m') (h' : Keeps m' m'') :
    Keeps m m'' := by
  intro name k server hserver
  obtain ⟨client, hclient⟩ := h name k server hserver
  obtain ⟨client', hclient'⟩ := h' name k _ hclient
  exact ⟨client', hclient'⟩

theorem Sound.keeps (h : Sound m) {events : List ManagerEvent}
    (hevents : ∀ event ∈ events, event ≠ .closeAll) :
    Keeps m (run (MCPServerManager.step L) m events) := by
  induction events generalizing m with
  | nil => exact (Proper.refl h).keeps
  | cons event events ih =>
    obtain ⟨hevent, hrest⟩ := List.forall_mem_cons.mp hevents
    exact (h.proper hevent).keeps.trans (ih (h.step event) hrest)

/-- In every order of events: a server of a client that was made for resources alone has never heard
of tools, whether the client has come into the map or not, and the tools that the manager lists are
those of servers that were connected with them. -/
theorem resources_only_quiet (L : McpLib) (events : List ManagerEvent) :
    (∀ k server, (run (MCPServerManager.step L) {} events).heap k = some server →
      server.toolsEnabled = false → server.toolsCache = [] ∧ Quiet server.client) ∧
    ∀ name tool, (name, tool) ∈ (run (MCPServerManager.step L) {} events).listAllTools →
      ∃ k server, (name, k) ∈ (run (MCPServerManager.step L) {} events).servers ∧
        (run (MCPServerManager.step L) {} events).heap k = some server ∧
        server.toolsEnabled = true ∧ tool ∈ server.toolsCache := by
  have h : Sound (run (MCPServerManager.step L) {} events) :=
    run_invariant (fun _ event h _ => h.step event) sound_start allSteps_true
  refine ⟨h.apart, fun name tool hmem => ?_⟩
  simp only [MCPServerManager.listAllTools, List.mem_flatMap, List.mem_map, Prod.mk.injEq] at hmem
  obtain ⟨⟨n, k⟩, hentry, t, htool, rfl, rfl⟩ := hmem
  cases hserver : (run (MCPServerManager.step L) {} events).heap k with
  | none => simp [hserver] at htool
  | some server =>
    simp only [hserver, Option.elim] at htool
    refine ⟨k, server, hentry, hserver, ?_, htool⟩
    by_contra hmode
    have hnone := (h.apart k server hserver (by simpa using hmode)).1
    simp [hnone] at htool

/-- In every order of events: whoever is told that a server has been added finds a server of that
name in the map, in the mode asked for and behind its handshake, and until the map is cleared that
server stays, with its address, its mode and its tools. -/
theorem added_server_stays (L : McpLib) (events : List ManagerEvent) :
    AllSteps (MCPServerManager.step L) (fun m event => ∀ id name toolsEnabled,
      m.tasks id ≠ (m.step L event).tasks id →
      (m.step L event).tasks id = .added name toolsEnabled (.ok ()) →
      ∃ k server, (m.step L event).managed name = some (k, server) ∧
        server.toolsEnabled = toolsEnabled ∧ server.client.connected = true ∧
        ∀ later, (∀ event ∈ later, event ≠ .closeAll) →
          ∃ client, (run (MCPServerManager.step L) (m.step L event) later).managed name =
            some (k, { server with client := client })) {} events := by
  have hstep : ∀ m event, Sound m → True → Sound (m.step L event) := fun _ event h _ => h.step event
  apply allSteps_of_guarded hstep _ sound_start allSteps_true
  intro m event h _ id name toolsEnabled hchange hadded
  obtain ⟨k, server, hserver, hmode, hdone⟩ := h.answers event id name toolsEnabled hchange hadded
  exact ⟨k, server, hserver, hmode, hdone, fun later hlater =>
    (h.step event).keeps hlater name k server hserver⟩

end

end DeepseekScience.Mcp
