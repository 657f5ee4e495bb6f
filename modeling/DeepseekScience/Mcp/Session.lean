import DeepseekScience.Lib.Runs
import DeepseekScience.Mcp.Client

/-! What a server sees of a client, whatever is done with it: every message in the session that the
server has given last, request ids without repetition, and no question for resources before the
server has offered them. -/
namespace DeepseekScience.Mcp

open Runs Paging

inductive ClientOp where
  | connect
  | listTools
  | callTool (name : Text) (arguments : Json)
  | listResources
  | readResource (uri : Text)

/-- The client behind an operation, whatever the operation returns. -/
def MCPClient.step (L : McpLib) (peer : Peer) (c : MCPClient) : ClientOp → MCPClient
  | .connect => (c.connect L peer).2
  | .listTools => (c.listTools L peer).2
  | .callTool name arguments => (c.callTool L peer name arguments).2
  | .listResources => (c.listResources L peer).2
  | .readResource uri => (c.readResource L peer uri).2

/-- The session that the server has given last in front of a message. -/
def sessionAt (peer : Peer) (sent : List Message) : ℕ → Option Text
  | 0 => none
  | k + 1 => sessionBehind (sessionAt peer sent k) (peer (sent.take (k + 1)))

def NeedsResources (method : Text) : Prop :=
  method = "resources/list".toList ∨ method = "resources/read".toList

/-- In front of a message the server has accepted the handshake and offered resources in it. -/
def Advertised (L : McpLib) (peer : Peer) (sent : List Message) (k : ℕ) : Prop :=
  ∃ i request note id reply result metadata, i + 1 < k ∧ sent[i]? = some request ∧
    sent[i + 1]? = some note ∧ request.method = "initialize".toList ∧
    note.method = "notifications/initialized".toList ∧ request.id = some id ∧
    peer (sent.take (i + 1)) = .arrived reply ∧
    (Mcp.rpc L.json L.jsonError id request.session reply).1 = .ok result ∧
    metadataOf result = .ok metadata ∧ metadata.capabilities.resources = true

def MCPClient.knowsResources (c : MCPClient) : Bool := c.metadata.any (·.capabilities.resources)

/-- What holds of a client at any time. -/
structure Disciplined (L : McpLib) (peer : Peer) (c : MCPClient) : Prop where
  sessions : ∀ k m, c.sent[k]? = some m → m.session = sessionAt peer c.sent k
  current : c.sessionId = sessionAt peer c.sent c.sent.length
  positive : 0 < c.nextId
  ids : c.sent.filterMap Message.id = List.range' 1 (c.nextId - 1)
  gated : ∀ k m, c.sent[k]? = some m → NeedsResources m.method → Advertised L peer c.sent k
  known : c.knowsResources = true → Advertised L peer c.sent c.sent.length

variable {L : McpLib} {peer : Peer} {c : MCPClient} {sent : List Message} {m : Message} {k k' : ℕ}

theorem sessionAt_append (more : List Message) (h : k ≤ sent.length) :
    sessionAt peer (sent ++ more) k = sessionAt peer sent k := by
  induction k with
  | zero => rfl
  | succ k ih => rw [sessionAt, sessionAt, ih (by omega), List.take_append_of_le_length h]

theorem Advertised.append (h : Advertised L peer sent k) (more : List Message)
    (hk : k ≤ sent.length) : Advertised L peer (sent ++ more) k := by
  obtain ⟨i, request, note, id, reply, result, metadata, hi, hrequest, hnote, hrest⟩ := h
  refine ⟨i, request, note, id, reply, result, metadata, hi, ?_, ?_, ?_⟩
  · rwa [List.getElem?_append_left (by omega)]
  · rwa [List.getElem?_append_left (by omega)]
  · rwa [List.take_append_of_le_length (by omega)]

theorem Advertised.mono (h : Advertised L peer sent k) (hk : k ≤ k') : Advertised L peer sent k' := by
  obtain ⟨i, request, note, id, reply, result, metadata, hi, hrest⟩ := h
  exact ⟨i, request, note, id, reply, result, metadata, by omega, hrest⟩

theorem getElem?_concat_cases {α : Type*} {l : List α} {a b : α} (h : (l ++ [a])[k]? = some b) :
    k < l.length ∧ l[k]? = some b ∨ k = l.length ∧ b = a := by
  obtain hk | hk := Nat.lt_or_ge k l.length
  · exact Or.inl ⟨hk, by rwa [List.getElem?_append_left hk] at h⟩
  · obtain ⟨hlength, -⟩ := List.getElem?_eq_some_iff.mp h
    obtain rfl : k = l.length := by
      simp at hlength
      omega
    exact Or.inr ⟨rfl, by simpa [eq_comm] using h⟩

/-- A message in the session of the client, with the next id or none. -/
theorem Disciplined.exchanged (h : Disciplined L peer c) (hsession : m.session = c.sessionId)
    (hneeds : NeedsResources m.method → c.knowsResources = true) {nextId : ℕ}
    (hid : m.id = some c.nextId ∧ nextId = c.nextId + 1 ∨ m.id = none ∧ nextId = c.nextId) :
    Disciplined L peer { c.exchanged peer m with nextId := nextId } := by
  have hpositive := h.positive
  constructor
  · intro k m' hm'
    simp only [MCPClient.exchanged] at hm' ⊢
    obtain ⟨hk, hold⟩ | ⟨rfl, rfl⟩ := getElem?_concat_cases hm'
    · rw [sessionAt_append [m] hk.le]
      exact h.sessions k m' hold
    · rw [sessionAt_append [m'] le_rfl, hsession]
      exact h.current
  · simp only [MCPClient.exchanged, List.length_append, List.length_singleton, sessionAt]
    rw [sessionAt_append [m] le_rfl, ← h.current, List.take_of_length_le (by simp)]
  · show 0 < nextId
    omega
  · simp only [MCPClient.exchanged, List.filterMap_append, h.ids]
    obtain ⟨hsome, rfl⟩ | ⟨hnone, rfl⟩ := hid
    · have hnext : c.nextId + 1 - 1 = c.nextId - 1 + 1 := by omega
      have hlast : 1 + (c.nextId - 1) = c.nextId := by omega
      simp [hsome, hnext, List.range'_concat, hlast]
    · simp [hnone]
  · intro k m' hm' hmethod
    simp only [MCPClient.exchanged] at hm' ⊢
    obtain ⟨hk, hold⟩ | ⟨rfl, rfl⟩ := getElem?_concat_cases hm'
    · exact (h.gated k m' hold hmethod).append [m] hk.le
    · exact (h.known (hneeds hmethod)).append [m'] le_rfl
  · intro hknown
    simp only [MCPClient.exchanged]
    exact ((h.known hknown).append [m] le_rfl).mono (by simp)

theorem Disciplined.rpc (h : Disciplined L peer c) (method : Text) (params : Json)
    (hneeds : NeedsResources method → c.knowsResources = true) :
    Disciplined L peer (c.rpc L peer method params).2 :=
  h.exchanged rfl hneeds (Or.inl ⟨rfl, rfl⟩)

theorem Disciplined.notify (h : Disciplined L peer c) (method : Text) (params : Json)
    (hneeds : NeedsResources method → c.knowsResources = true) :
    Disciplined L peer (c.notify L peer method params).2 :=
  h.exchanged rfl hneeds (Or.inr ⟨rfl, rfl⟩)

theorem rpc_eq_ok {method : Text} {params result : Json}
    (h : (c.rpc L peer method params).1 = .ok result) :
    ∃ reply, peer (c.sent ++ [c.request method params]) = .arrived reply ∧
      (Mcp.rpc L.json L.jsonError c.nextId c.sessionId reply).1 = .ok result := by
  simp only [MCPClient.rpc] at h
  split at h
  · cases h
  · cases h
  · rename_i reply hreply
    refine ⟨reply, hreply, ?_⟩
    cases hanswer : (Mcp.rpc L.json L.jsonError c.nextId c.sessionId reply).1 with
    | error e =>
      rw [hanswer] at h
      cases h
    | ok value =>
      rw [hanswer] at h
      exact congrArg Except.ok (Except.ok.inj h)

theorem Disciplined.connect (h : Disciplined L peer c) :
    Disciplined L peer (c.connect L peer).2 := by
  have hother : ∀ {method : String}, method = "initialize" ∨ method = "notifications/initialized" →
      ¬ NeedsResources method.toList := by
    rintro method (rfl | rfl) <;> simp [NeedsResources]
  have hrequest := h.rpc "initialize".toList initializeParams
    fun hneeds => absurd hneeds (hother (Or.inl rfl))
  unfold MCPClient.connect
  split
  · rename_i heq
    rwa [heq] at hrequest
  rename_i result c₁ heq
  rw [heq] at hrequest
  split
  · exact hrequest
  rename_i metadata hmetadata
  have hnote := hrequest.notify "notifications/initialized".toList (.object [])
    fun hneeds => absurd hneeds (hother (Or.inr rfl))
  split <;> rename_i heq' <;> rw [heq'] at hnote
  · exact hnote
  rename_i c₂
  refine ⟨hnote.sessions, hnote.current, hnote.positive, hnote.ids, hnote.gated, fun hknown => ?_⟩
  obtain ⟨reply, hreply, hresult⟩ := rpc_eq_ok (congrArg Prod.fst heq)
  obtain rfl := congrArg Prod.snd heq
  obtain rfl := congrArg Prod.snd heq'
  have hresources : metadata.capabilities.resources = true := by
    simpa [MCPClient.knowsResources] using hknown
  let request := c.request "initialize".toList initializeParams
  let note : Message := ⟨none, "notifications/initialized".toList, .object [],
    (c.rpc L peer "initialize".toList initializeParams).2.sessionId⟩
  refine ⟨c.sent.length, request, note, c.nextId, reply, result, metadata, ?_, ?_, ?_, rfl, rfl, rfl,
    ?_, hresult, hmetadata, hresources⟩
  · show c.sent.length + 1 < (c.sent ++ [request] ++ [note]).length
    simp
  · show (c.sent ++ [request] ++ [note])[c.sent.length]? = some request
    simp
  · show (c.sent ++ [request] ++ [note])[c.sent.length + 1]? = some note
    simp
  · show peer ((c.sent ++ [request] ++ [note]).take (c.sent.length + 1)) = .arrived reply
    rwa [List.take_append_of_le_length (by simp), List.take_of_length_le (by simp)]

theorem listTools_state : (c.listTools L peer).2 =
    (c.rpc L peer "tools/list".toList (.object [])).2 := by
  unfold MCPClient.listTools
  split <;> rename_i heq <;> rw [heq]
  split
  · rfl
  · split <;> rfl

theorem callTool_state (name : Text) (arguments : Json) : (c.callTool L peer name arguments).2 =
    (c.rpc L peer "tools/call".toList
      (.object [("arguments".toList, arguments), ("name".toList, .string name)])).2 := by
  unfold MCPClient.callTool
  split <;> rename_i heq <;> rw [heq]

theorem readResource_state (uri : Text) : (c.readResource L peer uri).2 = c ∨
    c.requireResources = .ok () ∧ (c.readResource L peer uri).2 =
      (c.rpc L peer "resources/read".toList (.object [("uri".toList, .string uri)])).2 := by
  unfold MCPClient.readResource
  cases c.requireResources with
  | error e => exact Or.inl rfl
  | ok _ =>
    simp only
    split
    · exact Or.inl rfl
    · refine Or.inr ⟨trivial, ?_⟩
      split <;> rename_i heq <;> rw [heq]
      split
      · rfl
      · split <;> rfl

theorem listResources_state : (c.listResources L peer).2 = c ∨
    c.requireResources = .ok () ∧ (c.listResources L peer).2 = (c.followResources L peer).2 := by
  unfold MCPClient.listResources
  cases c.requireResources with
  | error e => exact Or.inl rfl
  | ok _ =>
    refine Or.inr ⟨rfl, ?_⟩
    simp only
    split <;> rename_i heq <;> rw [heq]

theorem knowsResources_of_required (h : c.requireResources = .ok ()) : c.knowsResources = true := by
  unfold MCPClient.requireResources at h
  unfold MCPClient.knowsResources
  split at h
  · rename_i metadata hmetadata
    rw [hmetadata]
    by_contra hno
    simp_all
  · cases h

theorem Disciplined.followResources (h : Disciplined L peer c) (hknown : c.knowsResources = true) :
    Disciplined L peer (c.followResources L peer).2 := by
  have hboth : Disciplined L peer (c.followResources L peer).2 ∧
      (c.followResources L peer).2.knowsResources = true := by
    unfold MCPClient.followResources
    apply Reader.follow_invariant (P := fun c => Disciplined L peer c ∧ c.knowsResources = true)
    · rintro cursor c ⟨h, hknown⟩
      exact ⟨h.rpc _ _ fun _ => hknown, hknown⟩
    · exact ⟨h, hknown⟩
  exact hboth.1

theorem Disciplined.step (h : Disciplined L peer c) (op : ClientOp) :
    Disciplined L peer (c.step L peer op) := by
  cases op with
  | connect => exact h.connect
  | listTools =>
    rw [MCPClient.step, listTools_state]
    exact h.rpc _ _ fun hneeds => by simp [NeedsResources] at hneeds
  | callTool name arguments =>
    rw [MCPClient.step, callTool_state]
    exact h.rpc _ _ fun hneeds => by simp [NeedsResources] at hneeds
  | listResources =>
    rw [MCPClient.step]
    obtain hsame | ⟨hrequire, hfollow⟩ := @listResources_state L peer c
    · rwa [hsame]
    · rw [hfollow]
      exact h.followResources (knowsResources_of_required hrequire)
  | readResource uri =>
    rw [MCPClient.step]
    obtain hsame | ⟨hrequire, hrpc⟩ := @readResource_state L peer c uri
    · rwa [hsame]
    · rw [hrpc]
      exact h.rpc _ _ fun _ => knowsResources_of_required hrequire

theorem disciplined_start (L : McpLib) (peer : Peer) : Disciplined L peer {} where
  sessions := by simp
  current := rfl
  positive := by decide
  ids := rfl
  gated := by simp
  known := by simp [MCPClient.knowsResources]

/-- Whatever is done with a client and however the server answers: each message bears the session
that the server has given last in front of it, the requests are numbered one by one, and resources
are asked for only behind a handshake in which the server has offered them. -/
theorem session_discipline (L : McpLib) (peer : Peer) (ops : List ClientOp) :
    (∀ k m, (run (MCPClient.step L peer) {} ops).sent[k]? = some m →
      m.session = sessionAt peer (run (MCPClient.step L peer) {} ops).sent k ∧
        (NeedsResources m.method →
          Advertised L peer (run (MCPClient.step L peer) {} ops).sent k)) ∧
    ∃ n, (run (MCPClient.step L peer) {} ops).sent.filterMap Message.id = List.range' 1 n := by
  have h : Disciplined L peer (run (MCPClient.step L peer) {} ops) :=
    run_invariant (fun _ op h _ => h.step op) (disciplined_start L peer) allSteps_true
  exact ⟨fun k m hm => ⟨h.sessions k m hm, h.gated k m hm⟩, _, h.ids⟩

end DeepseekScience.Mcp
