import DeepseekScience.Net.Fetch

/-! Whatever the resolvers answer and wherever redirects lead: a page is only requested from public
addresses of its own host. -/
namespace DeepseekScience.Net

open Tools Traces Traced

/-- Where the addresses of a request come from: they are all of a literal, of the answer of the
system's resolver, or of the answers of the secure one to a host that the system's resolver gives
synthetic addresses only. -/
inductive AddressSource (lib : NetLibrary) (w : Hop) (host : Text) (port : ℕ)
    (ips : List IpAddr) : Prop where
  | literal (ip : IpAddr) (hliteral : parseIpLiteral host = some ip) (hips : ips = [ip])
  | system (answer : List IpAddr) (hdomain : parseIpLiteral host = none)
      (hlookup : w.lookup host port = .resolved answer) (hips : ∀ ip, ip ∈ ips ↔ ip ∈ answer)
  | secure (answer a aaaa : List IpAddr) (client : PinnedClient)
      (hdomain : parseIpLiteral host = none)
      (hlookup : w.lookup host port = .resolved answer) (hne : answer ≠ [])
      (hsynthetic : ∀ ip ∈ answer, classifyIp ip = .proxySynthetic)
      (ha : dohAnswer lib (w.doh ⟨client, host, "A".toList⟩) = .ok a)
      (haaaa : dohAnswer lib (w.doh ⟨client, host, "AAAA".toList⟩) = .ok aaaa)
      (hips : ∀ ip, ip ∈ ips ↔ ip ∈ a ++ aaaa)

/-- A client for a URL that reaches nothing but public addresses of the host of the URL. -/
structure PinnedPublic (lib : NetLibrary) (w : Hop) (url : Url) (client : PinnedClient) : Prop where
  host : url.host = some client.host
  notLocalhost : isLocalhostName client.host = false
  nonempty : client.addresses ≠ []
  isPublic : ∀ a ∈ client.addresses, classifyIp a.ip = .isPublic
  port : ∃ port, url.portOrKnownDefault = some port ∧ (∀ a ∈ client.addresses, a.port = port) ∧
    AddressSource lib w client.host port (client.addresses.map SocketAddr.ip)

/-- A query to the secure resolver: for a domain, to the resolver's own public addresses. -/
structure SecureQuery (url : Url) (query : DohQuery) : Prop where
  host : url.host = some query.name
  domain : parseIpLiteral query.name = none
  notLocalhost : isLocalhostName query.name = false
  isPublic : ∀ a ∈ query.client.addresses, classifyIp a.ip = .isPublic

/-- What may be sent in order to resolve the host of a URL: a host that is an address is not. -/
def Resolving (url : Url) : NetEvent → Prop
  | .doh _ asked query => asked = url ∧ SecureQuery url query ∧ url.ip = none
  | .page .. => False

/-- What may be sent at a hop. -/
def Sendable (lib : NetLibrary) (world : ℕ → Hop) : NetEvent → Prop
  | .doh _ url query => SecureQuery url query ∧ url.ip = none
  | .page hop url client => url.isHttp = true ∧ PinnedPublic lib (world hop) url client

def isPage : NetEvent → Bool
  | .doh .. => false
  | .page .. => true

/-- The URL library tells addresses from domains: the host of a URL that denotes an address is a
literal of it. -/
structure Documented (lib : NetLibrary) : Prop where
  parsed : ∀ t url, lib.parseUrl t = .ok url → url.HostReadsBack
  joined : ∀ url location next, lib.join url location = .ok next → next.HostReadsBack

section
variable (lib : NetLibrary) (w : Hop) (world : ℕ → Hop) (hop : ℕ) {url : Url} {host : Text}
  {port : ℕ}

variable {w} in
theorem pinnedHttpClient_ok {addresses : List SocketAddr} {client : PinnedClient}
    (h : pinnedHttpClient w host addresses = .ok client) :
    client = ⟨host, addresses⟩ ∧ addresses ≠ [] ∧
      ∀ a ∈ addresses, classifyIp a.ip = .isPublic := by
  unfold pinnedHttpClient at h
  split_ifs at h with hclass
  have hpublic := (classifyAddresses_eq (by decide)).mp (not_not.mp hclass)
  cases hbuild : w.buildError with
  | some e =>
    rw [hbuild] at h
    cases h
  | none =>
    rw [hbuild] at h
    exact ⟨(Except.ok.inj h).symm, hpublic⟩

theorem map_ip_map (ips : List IpAddr) :
    (ips.map fun ip => (⟨ip, port⟩ : SocketAddr)).map SocketAddr.ip = ips := by
  rw [List.map_map]
  exact List.map_id ips

variable {w} in
/-- The answer of the system's resolver is taken as a whole. -/
theorem lookupHost_ok {addresses : List SocketAddr} (h : lookupHost w host port = .ok addresses) :
    ∃ answer, w.lookup host port = .resolved answer ∧ (∀ a ∈ addresses, a.port = port) ∧
      ∀ ip, ip ∈ addresses.map SocketAddr.ip ↔ ip ∈ answer := by
  unfold lookupHost at h
  cases hlookup : w.lookup host port with
  | timedOut =>
    rw [hlookup] at h
    cases h
  | failed e =>
    rw [hlookup] at h
    cases h
  | resolved answer =>
    rw [hlookup] at h
    dsimp only at h
    split_ifs at h with hmany
    have hwhole : answer.take (maxResolvedAddresses + 1) = answer := by
      apply List.take_of_length_le
      rw [List.length_take] at hmany
      omega
    rw [hwhole] at h
    obtain rfl := Except.ok.inj h
    refine ⟨answer, rfl, fun a ha => ?_, fun ip => ?_⟩
    · obtain ⟨ip, -, rfl⟩ := List.mem_map.mp ha
      rfl
    · rw [map_ip_map, mem_sortIps]

theorem validateDohIps_ok {ips : List IpAddr} {addresses : List SocketAddr}
    (h : validateDohIps ips port = .ok addresses) :
    (∀ a ∈ addresses, a.port = port) ∧ ∀ ip, ip ∈ addresses.map SocketAddr.ip ↔ ip ∈ ips := by
  unfold validateDohIps at h
  split_ifs at h
  obtain rfl := Except.ok.inj h
  refine ⟨fun a ha => ?_, fun ip => ?_⟩
  · obtain ⟨ip, -, rfl⟩ := List.mem_map.mp ha
    rfl
  · rw [map_ip_map, mem_sortIps]

variable {w} in
theorem cloudflareDohClient_ok {client : PinnedClient} (h : cloudflareDohClient w = .ok client) :
    ∀ a ∈ client.addresses, classifyIp a.ip = .isPublic := by
  unfold cloudflareDohClient at h
  cases hbuild : w.buildError with
  | some e =>
    rw [hbuild] at h
    cases h
  | none =>
    rw [hbuild] at h
    obtain rfl := Except.ok.inj h
    decide

/-- The secure resolver is asked twice, and both of its answers are taken as a whole. -/
theorem resolveWithCloudflareDoh_spec (hhost : url.host = some host)
    (hdomain : parseIpLiteral host = none) (hlocal : isLocalhostName host = false)
    (hip : url.ip = none) :
    Emits (Resolving url)
      (fun addresses => (∀ a ∈ addresses, a.port = port) ∧ ∃ client a aaaa,
        dohAnswer lib (w.doh ⟨client, host, "A".toList⟩) = .ok a ∧
        dohAnswer lib (w.doh ⟨client, host, "AAAA".toList⟩) = .ok aaaa ∧
        ∀ ip, ip ∈ addresses.map SocketAddr.ip ↔ ip ∈ a ++ aaaa)
      (resolveWithCloudflareDoh lib w hop url host port) := by
  have hquery : ∀ (client : PinnedClient) (recordType : Text),
      (∀ a ∈ client.addresses, classifyIp a.ip = .isPublic) →
      Emits (Resolving url)
        (fun ips => dohAnswer lib (w.doh ⟨client, host, recordType⟩) = .ok ips)
        (queryCloudflareDoh lib w hop url client host recordType) := fun client recordType hclient =>
    emits_bind (Q := fun _ => True)
      (emits_emit ⟨rfl, ⟨hhost, hdomain, hlocal, hclient⟩, hip⟩ trivial)
      fun _ _ => emits_lift fun _ h => h
  refine emits_bind (emits_lift fun _ h => cloudflareDohClient_ok h) fun client hclient => ?_
  refine emits_bind (hquery client _ hclient) fun a ha => ?_
  refine emits_bind (hquery client _ hclient) fun aaaa haaaa => ?_
  apply emits_lift
  intro addresses h
  obtain ⟨hport, hips⟩ := validateDohIps_ok h
  exact ⟨hport, client, a, aaaa, ha, haaaa, hips⟩

/-- The client for a hop is pinned to public addresses of the hop's host. -/
theorem publicHttpClient_spec (hreads : url.HostReadsBack) :
    Emits (Resolving url) (PinnedPublic lib w url) (publicHttpClient lib w hop url) := by
  unfold publicHttpClient
  cases hhost : url.host with
  | none => exact emits_throw _
  | some host =>
    dsimp only
    split_ifs with hlocal
    · exact emits_throw _
    · have hlocal' : isLocalhostName host = false := Bool.not_eq_true _ ▸ hlocal
      cases hport : url.portOrKnownDefault with
      | none => exact emits_throw _
      | some port =>
        have hpinned : ∀ addresses, (∀ a ∈ addresses, a.port = port) →
            AddressSource lib w host port (addresses.map SocketAddr.ip) →
            Emits (Resolving url) (PinnedPublic lib w url)
              (lift (pinnedHttpClient w host addresses)) := by
          intro addresses hports hsource
          apply emits_lift
          intro client h
          obtain ⟨rfl, hne, hpublic⟩ := pinnedHttpClient_ok h
          exact ⟨hhost, hlocal', hne, hpublic, port, hport, hports, hsource⟩
        cases hliteral : parseIpLiteral host with
        | some ip =>
          dsimp only
          cases resolutionAction host (classifyIp ip) with
          | useResolved =>
            apply hpinned
            · intro a ha
              rw [List.mem_singleton.mp ha]
            · exact .literal ip hliteral rfl
          | useCloudflareDoh => exact emits_throw _
          | block => exact emits_throw _
        | none =>
          have hip : url.ip = none := by
            cases hip : url.ip with
            | none => rfl
            | some ip =>
              obtain ⟨host', hhost', hliteral'⟩ := hreads ip hip
              obtain rfl := Option.some.inj (hhost.symm.trans hhost')
              rw [hliteral] at hliteral'
              cases hliteral'
          refine emits_bind (emits_lift fun _ h => h) fun addresses haddresses => ?_
          obtain ⟨answer, hlookup, hports, hips⟩ := lookupHost_ok haddresses
          cases haction : resolutionAction host (classifyAddresses addresses) with
          | useResolved =>
            exact hpinned addresses hports (.system answer hliteral hlookup hips)
          | block => exact emits_throw _
          | useCloudflareDoh =>
            have hclass : classifyAddresses addresses = .proxySynthetic := by
              cases hclass : classifyAddresses addresses with
              | isPublic =>
                rw [hclass] at haction
                cases haction
              | proxySynthetic => rfl
              | blocked =>
                rw [hclass] at haction
                cases haction
            obtain ⟨hne, hall⟩ := (classifyAddresses_eq (by decide)).mp hclass
            have hne' : answer ≠ [] := by
              rintro rfl
              obtain ⟨a, ha⟩ := List.exists_mem_of_ne_nil _ hne
              exact absurd ((hips a.ip).mp (List.mem_map_of_mem ha)) List.not_mem_nil
            have hsynthetic : ∀ ip ∈ answer, classifyIp ip = .proxySynthetic := by
              intro ip hip
              obtain ⟨a, ha, rfl⟩ := List.mem_map.mp ((hips ip).mpr hip)
              exact hall a ha
            refine emits_bind (resolveWithCloudflareDoh_spec lib w hop hhost hliteral hlocal' hip)
              fun dohAddresses hdoh => ?_
            obtain ⟨hdohPorts, client, a, aaaa, ha, haaaa, hdohIps⟩ := hdoh
            exact hpinned dohAddresses hdohPorts
              (.secure answer a aaaa client hliteral hlookup hne' hsynthetic ha haaaa hdohIps)

theorem sendable_of_resolving {e : NetEvent} (h : Resolving url e) : Sendable lib world e := by
  cases e with
  | doh hop asked query =>
    obtain ⟨rfl, hquery, hip⟩ := h
    exact ⟨hquery, hip⟩
  | page hop asked client => exact h.elim

variable {lib} in
/-- What follows a request sends nothing by itself: it ends the loop, or goes on with a URL that
the library has joined. -/
theorem followResponse_cases (hlib : Documented lib) (goOn : Url → Fetch Fetched) (current : Url)
    (sent : Except Text HttpResponse) :
    (followResponse lib goOn current sent).events = [] ∨
      ∃ next, next.isHttp = true ∧ next.HostReadsBack ∧
        followResponse lib goOn current sent = goOn next := by
  unfold followResponse
  cases sent with
  | error e => exact Or.inl rfl
  | ok response =>
    dsimp only
    split_ifs
    · exact Or.inl rfl
    · cases response.location with
      | none => exact Or.inl rfl
      | some location =>
        dsimp only
        cases hjoin : lib.join current location with
        | error e => exact Or.inl rfl
        | ok next =>
          dsimp only
          split_ifs with hnext
          · exact Or.inl rfl
          · exact Or.inr ⟨next, by simpa using hnext, hlib.joined current location next hjoin, rfl⟩

variable {lib} in
/-- Every hop of the loop sends what may be sent. -/
theorem fetchLoop_spec (hlib : Documented lib) (fuel : ℕ) {current : Url}
    (hhttp : current.isHttp = true) (hreads : current.HostReadsBack) :
    Emits (Sendable lib world) (fun _ => True) (fetchLoop lib world fuel hop current) := by
  induction fuel generalizing hop current with
  | zero => exact emits_throw _
  | succ fuel ih =>
    have hclient := emits_mono (publicHttpClient_spec lib (world hop) hop hreads)
      (fun e => sendable_of_resolving lib world) fun _ h => h
    refine emits_bind hclient fun client hclient => ?_
    refine emits_bind (Q := fun _ => True) (emits_emit ⟨hhttp, hclient⟩ trivial) fun _ _ => ?_
    rcases followResponse_cases hlib (fetchLoop lib world fuel (hop + 1)) current
      ((world hop).page current client) with hnone | ⟨next, hnext, hreads', heq⟩
    · refine ⟨fun e he => ?_, fun _ _ => trivial⟩
      rw [hnone] at he
      exact absurd he List.not_mem_nil
    · rw [heq]
      exact ih (hop + 1) hnext hreads'

theorem countP_isPage_resolving {x : Fetch PinnedClient} (h : ∀ e ∈ x.events, Resolving url e) :
    x.events.countP isPage ≤ 0 := by
  rw [Nat.le_zero, List.countP_eq_zero]
  intro e he
  cases e with
  | doh hop asked query => exact Bool.false_ne_true
  | page hop asked client => exact (h _ he).elim

variable {lib} in
/-- Every hop of the loop requests one page at most. -/
theorem fetchLoop_pages (hlib : Documented lib) (fuel : ℕ) {current : Url}
    (hreads : current.HostReadsBack) :
    (fetchLoop lib world fuel hop current).events.countP isPage ≤ fuel := by
  induction fuel generalizing hop current with
  | zero => exact Nat.le_refl 0
  | succ fuel ih =>
    have hresolving := countP_isPage_resolving (publicHttpClient_spec lib (world hop) hop hreads).1
    have hpage : ∀ client, (emit (.page hop current client) : Fetch Unit).events.countP isPage ≤
        1 := fun _ => le_refl 1
    have hrest : ∀ client, (followResponse lib (fetchLoop lib world fuel (hop + 1)) current
        ((world hop).page current client)).events.countP isPage ≤ fuel := by
      intro client
      rcases followResponse_cases hlib (fetchLoop lib world fuel (hop + 1)) current
        ((world hop).page current client) with hnone | ⟨next, -, hreads', heq⟩
      · rw [hnone]
        exact Nat.zero_le fuel
      · rw [heq]
        exact ih (hop + 1) hreads'
    have hhop := countP_bind_le 0 (1 + fuel) hresolving fun client =>
      countP_bind_le 1 fuel (hpage client) fun _ => hrest client
    exact hhop.trans (by omega)

/-- Whatever resolvers and servers answer, at each hop differently: every page is requested from
public addresses of the host and port of the URL, only domains are asked of the secure resolver,
no more than six pages are requested, and the two tests for public addresses are one. -/
theorem fetchUrl_reaches_public_only (hlib : Documented lib) (args : FetchArgs) :
    (∀ e ∈ (fetchUrl lib world args).events, Sendable lib world e) ∧
      (fetchUrl lib world args).events.countP isPage ≤ 6 ∧
      ∀ ip, classifyIp ip = .isPublic ↔ isPublicRegistryIp ip = true := by
  have hfinish : ∀ maxChars fetched, (finishFetch lib maxChars fetched).events = [] := by
    intro maxChars fetched
    cases fetched with
    | response response => rfl
    | refused output => rfl
  unfold fetchUrl
  generalize max 200 (min (args.maxChars.getD 8000) 50000) = maxChars
  dsimp only
  cases hparse : lib.parseUrl args.url with
  | error e => exact ⟨fun e he => absurd he List.not_mem_nil, Nat.zero_le 6, classifyIp_isPublic⟩
  | ok parsed =>
    dsimp only
    split_ifs with hhttp
    · exact ⟨fun e he => absurd he List.not_mem_nil, Nat.zero_le 6, classifyIp_isPublic⟩
    · have hreads := hlib.parsed args.url parsed hparse
      have hrest : ∀ fetched, True → Emits (Sendable lib world) (fun _ => True)
          (finishFetch lib maxChars fetched) := by
        intro fetched _
        refine ⟨fun e he => ?_, fun _ _ => trivial⟩
        rw [hfinish maxChars fetched] at he
        exact absurd he List.not_mem_nil
      have hnone : ∀ fetched, (finishFetch lib maxChars fetched).events.countP isPage ≤ 0 := by
        intro fetched
        rw [hfinish maxChars fetched]
        exact Nat.le_refl 0
      have hsends := emits_bind (fetchLoop_spec world 0 hlib 6 (by simpa using hhttp) hreads) hrest
      exact ⟨hsends.1, countP_bind_le 6 0 (fetchLoop_pages world 0 hlib 6 hreads) hnone,
        classifyIp_isPublic⟩

end

/-! A sample: a URL that spells an address as a number, and one of a public page. -/

def sampleParse (t : Text) : Except Text Url :=
  if t = "http://2130706433/".toList then
    .ok { scheme := "http".toList, host := some "127.0.0.1".toList, ip := some (.v4 ⟨127, 0, 0, 1⟩) }
  else if t = "https://example.com/".toList then
    .ok { scheme := "https".toList, host := some "example.com".toList }
  else .error "relative URL without a base".toList

def sampleLibrary : NetLibrary where
  parseUrl := sampleParse
  join := fun _ location => sampleParse location
  parseDns := fun _ => .error []
  debugText := id
  htmlToText := fun _ _ => []

theorem sampleParse_reads {t : Text} {url : Url} (h : sampleParse t = .ok url) :
    url.HostReadsBack := by
  unfold sampleParse at h
  split_ifs at h
  · obtain rfl := Except.ok.inj h
    intro ip hip
    obtain rfl := Option.some.inj hip
    exact ⟨_, rfl, by decide⟩
  · obtain rfl := Except.ok.inj h
    intro ip hip
    cases hip

/-- The page leads to the number. -/
def sampleWorld (_ : ℕ) : Hop where
  lookup := fun _ _ => .resolved [.v4 ⟨93, 184, 215, 14⟩]
  doh := fun _ => .error []
  page := fun _ _ => .ok
    { status := "302 Found".toList
      isSuccess := false
      isRedirection := true
      location := some "http://2130706433/".toList
      contentLength := none
      chunks := [] }

theorem fetchUrl_reaches_public_only_redirect :
    (∀ e ∈ (fetchUrl sampleLibrary sampleWorld ⟨"https://example.com/".toList, none⟩).events,
        Sendable sampleLibrary sampleWorld e) ∧
      (fetchUrl sampleLibrary sampleWorld ⟨"https://example.com/".toList, none⟩).events.countP
        isPage ≤ 6 ∧ ∀ ip, classifyIp ip = .isPublic ↔ isPublicRegistryIp ip = true :=
  fetchUrl_reaches_public_only sampleLibrary sampleWorld
    ⟨fun _ _ h => sampleParse_reads h, fun _ _ _ h => sampleParse_reads h⟩ _

example : (fetchUrl sampleLibrary sampleWorld ⟨"https://example.com/".toList, none⟩).events.length =
    1 := by decide +kernel

end DeepseekScience.Net
