import DeepseekScience.Mcp.Client

/-! The resources of a server, page by page: what the client asks for, and when it has them all. -/
namespace DeepseekScience.Mcp

open Paging Reader

/-- The entries of a page. -/
def entriesOf (result : Json) : Option (List Json) :=
  (result.get? "resources".toList).bind Json.asArray

/-- The bytes of entries, as compact JSON. -/
def entryBytes (L : McpLib) (values : List Json) : ℕ :=
  (values.map fun value => byteLen (L.json.toText value)).sum

/-- The pages are read as these resources, within the limits of a listing. -/
def Listed (L : McpLib) (pages : List Json) (output : List McpResource) : Prop :=
  ∃ entries, pages.mapM entriesOf = some entries ∧
    entries.flatten.mapM parseResource = .ok output ∧ output.length ≤ maxResources ∧
    entryBytes L entries.flatten ≤ maxResourceListBytes

variable {L : McpLib} {peer : Peer} {c c' : MCPClient} {values : List Json} {pages : List Json}
  {output output' : List McpResource} {bytes bytes' : ℕ}

theorem mapM_cons_eq_ok {α β ε : Type*} {f : α → Except ε β} {a : α} {l : List α} {bs : List β} :
    (a :: l).mapM f = .ok bs ↔ ∃ b rest, f a = .ok b ∧ l.mapM f = .ok rest ∧ bs = b :: rest := by
  rw [List.mapM_cons]
  cases f a with
  | error e => simp [bind, Except.bind]
  | ok b =>
    cases l.mapM f with
    | error e => simp [bind, Except.bind]
    | ok rest => simp [bind, Except.bind, pure, Except.pure, eq_comm]

theorem mapM_append_eq_ok {α β ε : Type*} {f : α → Except ε β} {l l' : List α} {bs : List β} :
    (l ++ l').mapM f = .ok bs ↔
      ∃ front back, l.mapM f = .ok front ∧ l'.mapM f = .ok back ∧ bs = front ++ back := by
  induction l generalizing bs with
  | nil => simp [pure, Except.pure]
  | cons a l ih =>
    simp only [List.cons_append, mapM_cons_eq_ok, ih]
    constructor
    · rintro ⟨b, rest, hb, ⟨front, back, hfront, hback, rfl⟩, rfl⟩
      exact ⟨b :: front, back, ⟨b, front, hb, hfront, rfl⟩, hback, rfl⟩
    · rintro ⟨_, back, ⟨b, front, hb, hfront, rfl⟩, hback, rfl⟩
      exact ⟨b, front ++ back, hb, ⟨front, back, hfront, hback, rfl⟩, rfl⟩

/-- A page is read as a whole, or not at all. -/
theorem readResources_eq_ok (hcount : output.length ≤ maxResources)
    (hbytes : bytes ≤ maxResourceListBytes) :
    readResources L output bytes values = .ok (output', bytes') ↔
      ∃ resources, values.mapM parseResource = .ok resources ∧ output' = output ++ resources ∧
        bytes' = bytes + entryBytes L values ∧ output'.length ≤ maxResources ∧
        bytes' ≤ maxResourceListBytes := by
  induction values generalizing output bytes with
  | nil =>
    simp only [readResources, List.mapM_nil, pure, Except.pure, Except.ok.injEq, Prod.mk.injEq]
    constructor
    · rintro ⟨rfl, rfl⟩
      exact ⟨[], rfl, by simp, by simp [entryBytes], hcount, hbytes⟩
    · rintro ⟨_, rfl, rfl, rfl, -, -⟩
      simp
  | cons value rest ih =>
    rw [readResources]
    have hsum : entryBytes L (value :: rest) = byteLen (L.json.toText value) + entryBytes L rest := by
      simp [entryBytes]
    by_cases hfull : maxResources ≤ output.length
    · simp only [if_pos hfull, reduceCtorEq, false_iff]
      rintro ⟨resources, hread, rfl, -, hlimit, -⟩
      obtain ⟨resource, others, -, -, rfl⟩ := mapM_cons_eq_ok.mp hread
      simp at hlimit
      omega
    simp only [if_neg hfull, checkedResourceListTotal]
    by_cases hlarge : bytes + byteLen (L.json.toText value) ≤ maxResourceListBytes
    · simp only [if_pos hlarge]
      cases hparse : parseResource value with
      | error e =>
        simp only [reduceCtorEq, false_iff]
        rintro ⟨resources, hread, -⟩
        obtain ⟨resource, others, hresource, -, -⟩ := mapM_cons_eq_ok.mp hread
        rw [hparse] at hresource
        cases hresource
      | ok resource =>
        have hroom : (output ++ [resource]).length ≤ maxResources := by
          simp
          omega
        simp only [ih hroom hlarge, mapM_cons_eq_ok, hparse, hsum]
        constructor
        · rintro ⟨resources, hread, rfl, rfl, hlimit, hbound⟩
          exact ⟨resource :: resources, ⟨resource, resources, rfl, hread, rfl⟩, by simp, by omega,
            by simpa using hlimit, by omega⟩
        · rintro ⟨_, ⟨_, resources, hresource, hread, rfl⟩, rfl, rfl, hlimit, hbound⟩
          cases hresource
          exact ⟨resources, hread, by simp, by omega, by simpa using hlimit, by omega⟩
    · simp only [if_neg hlarge, reduceCtorEq, false_iff]
      rintro ⟨resources, -, -, rfl, -, hlimit⟩
      omega

theorem accept_none {acc : List McpResource × ℕ} {page : Json} (h : entriesOf page = none) :
    (MCPClient.resourcePages L peer).accept acc page =
      .error (invalid "resources/list result.resources not array") := by
  unfold entriesOf at h
  simp only [MCPClient.resourcePages, h]

theorem accept_some {acc : List McpResource × ℕ} {page : Json} {values : List Json}
    (h : entriesOf page = some values) :
    (MCPClient.resourcePages L peer).accept acc page = readResources L acc.1 acc.2 values := by
  unfold entriesOf at h
  simp only [MCPClient.resourcePages, h]

theorem acceptAll_eq_ok (hcount : output.length ≤ maxResources)
    (hbytes : bytes ≤ maxResourceListBytes) :
    (MCPClient.resourcePages L peer).acceptAll (output, bytes) pages = .ok (output', bytes') ↔
      ∃ entries resources, pages.mapM entriesOf = some entries ∧
        entries.flatten.mapM parseResource = .ok resources ∧ output' = output ++ resources ∧
        bytes' = bytes + entryBytes L entries.flatten ∧ output'.length ≤ maxResources ∧
        bytes' ≤ maxResourceListBytes := by
  induction pages generalizing output bytes with
  | nil =>
    simp only [Reader.acceptAll, Except.ok.injEq, Prod.mk.injEq, List.mapM_nil]
    constructor
    · rintro ⟨rfl, rfl⟩
      exact ⟨[], [], rfl, rfl, by simp, by simp [entryBytes], hcount, hbytes⟩
    · rintro ⟨_, _, ⟨⟩, ⟨⟩, rfl, rfl, -, -⟩
      simp
  | cons page pages ih =>
    rw [Reader.acceptAll, List.mapM_cons]
    cases hentries : entriesOf page with
    | none =>
      rw [accept_none hentries]
      simp
    | some values =>
      rw [accept_some hentries]
      cases hread : readResources L output bytes values with
      | error e =>
        simp only [reduceCtorEq, false_iff]
        rintro ⟨entries, resources, hlisted, hresources, rfl, rfl, hlimit, hbound⟩
        obtain ⟨others, -, rfl⟩ : ∃ others, pages.mapM entriesOf = some others ∧
            values :: others = entries := by simpa [Option.bind_eq_some_iff] using hlisted
        obtain ⟨front, back, hfront, -, rfl⟩ := mapM_append_eq_ok.mp hresources
        have hsum : entryBytes L (values :: others).flatten =
            entryBytes L values + entryBytes L others.flatten := by simp [entryBytes]
        have hok := (@readResources_eq_ok L values output _ bytes _ hcount hbytes).mpr
          ⟨front, hfront, rfl, rfl, by simp at hlimit ⊢; omega, by omega⟩
        rw [hread] at hok
        cases hok
      | ok acc =>
        obtain ⟨output₁, bytes₁⟩ := acc
        obtain ⟨front, hfront, rfl, rfl, hcount₁, hbytes₁⟩ :=
          (readResources_eq_ok hcount hbytes).mp hread
        simp only [ih hcount₁ hbytes₁]
        constructor
        · rintro ⟨entries, resources, hlisted, hresources, rfl, rfl, hlimit, hbound⟩
          refine ⟨values :: entries, front ++ resources, by simp [hlisted], ?_, by simp, ?_, hlimit,
            hbound⟩
          · exact mapM_append_eq_ok.mpr ⟨front, resources, hfront, hresources, rfl⟩
          · simp [entryBytes, Nat.add_assoc]
        · rintro ⟨entries, resources, hlisted, hresources, rfl, rfl, hlimit, hbound⟩
          obtain ⟨others, hothers, rfl⟩ : ∃ others, pages.mapM entriesOf = some others ∧
              values :: others = entries := by simpa [Option.bind_eq_some_iff] using hlisted
          obtain ⟨front', back, hfront', hback, rfl⟩ := mapM_append_eq_ok.mp hresources
          obtain rfl : front = front' := Except.ok.inj (hfront.symm.trans hfront')
          exact ⟨others, back, hothers, hback, by simp, by simp [entryBytes, Nat.add_assoc], hlimit,
            hbound⟩

/-- What the client has asked for. -/
def MCPClient.calls (c : MCPClient) : List (Text × Json) := c.sent.map fun m => (m.method, m.params)

theorem fetch_calls (L : McpLib) (peer : Peer) (cursor : Option Text) (c : MCPClient) :
    ((MCPClient.resourcePages L peer).fetch cursor c).2.calls =
      c.calls ++ [("resources/list".toList, pageParams cursor)] := by
  show (c.sent ++ [c.request "resources/list".toList (pageParams cursor)]).map _ = _
  rw [List.map_append]
  rfl

theorem followResources_eq_ok : c.followResources L peer = (.ok (output, bytes), c') ↔
    ∃ pages cursors, (MCPClient.resourcePages L peer).Chain none c pages cursors c' ∧
      pages.length ≤ maxResourcePages ∧ cursors.Nodup ∧
      (MCPClient.resourcePages L peer).acceptAll ([], 0) pages = .ok (output, bytes) := by
  simp [MCPClient.followResources, follow_eq_ok]

theorem listed_iff (peer : Peer) : Listed L pages output ↔
    ∃ bytes, (MCPClient.resourcePages L peer).acceptAll ([], 0) pages = .ok (output, bytes) := by
  have hcount : ([] : List McpResource).length ≤ maxResources := Nat.zero_le _
  simp only [acceptAll_eq_ok hcount (Nat.zero_le _), List.nil_append, Nat.zero_add]
  constructor
  · rintro ⟨entries, hentries, hread, hlimit, hbytes⟩
    exact ⟨_, entries, output, hentries, hread, rfl, rfl, hlimit, hbytes⟩
  · rintro ⟨_, entries, _, hentries, hread, rfl, rfl, hlimit, hbytes⟩
    exact ⟨entries, hentries, hread, hlimit, hbytes⟩

theorem listResources_eq_ok : c.listResources L peer = (.ok output, c') ↔
    c.requireResources = .ok () ∧ ∃ bytes, c.followResources L peer = (.ok (output, bytes), c') := by
  unfold MCPClient.listResources
  cases c.requireResources with
  | error e => simp
  | ok _ =>
    simp only [true_and]
    cases hfollow : c.followResources L peer with
    | mk result after =>
      cases result with
      | error e => simp
      | ok found =>
        obtain ⟨found, bytes⟩ := found
        simp

/-- Whatever the server answers: the client asks for the first page, then for each page by a cursor
that it has not used yet, for 32 pages at most; and it returns a listing if and only if the pages
end within these, all that they list can be read, and it all is within the limits. -/
theorem listResources_spec (L : McpLib) (peer : Peer) (c : MCPClient) :
    (∀ output c', c.listResources L peer = (.ok output, c') ↔
      c.requireResources = .ok () ∧ ∃ pages cursors,
        (MCPClient.resourcePages L peer).Chain none c pages cursors c' ∧
          pages.length ≤ maxResourcePages ∧ cursors.Nodup ∧ Listed L pages output) ∧
    ∃ asked : List (Option Text),
      (c.listResources L peer).2.calls =
        c.calls ++ asked.map (fun cursor => ("resources/list".toList, pageParams cursor)) ∧
      asked.length ≤ maxResourcePages ∧
      (asked = [] ∨ ∃ cursors : List Text, asked = none :: cursors.map some ∧ cursors.Nodup) := by
  constructor
  · intro output c'
    simp only [listResources_eq_ok, followResources_eq_ok, listed_iff peer]
    constructor
    · rintro ⟨hrequire, bytes, pages, cursors, hchain, hlength, hnodup, hall⟩
      exact ⟨hrequire, pages, cursors, hchain, hlength, hnodup, bytes, hall⟩
    · rintro ⟨hrequire, pages, cursors, hchain, hlength, hnodup, bytes, hall⟩
      exact ⟨hrequire, bytes, pages, cursors, hchain, hlength, hnodup, hall⟩
  · unfold MCPClient.listResources
    split
    · exact ⟨[], by simp, by simp, Or.inl rfl⟩
    · obtain ⟨asked, hasked, hlength, hcases⟩ := follow_asked MCPClient.calls
        (fun cursor => ("resources/list".toList, pageParams cursor)) (fetch_calls L peer)
        maxResourcePages [] none ([], 0) c
      refine ⟨asked, ?_, hlength, ?_⟩
      · rw [← hasked]
        split <;> rename_i heq <;> rw [← MCPClient.followResources, heq]
      · obtain hnone | ⟨cursors, hcursors, hnodup, -⟩ := hcases
        · exact Or.inl hnone
        · exact Or.inr ⟨cursors, hcursors, hnodup⟩

end DeepseekScience.Mcp
