import DeepseekScience.Lib.Traced
import DeepseekScience.Net.Url
import DeepseekScience.Tools.Router

/-! Fetching a page: the host of every hop is resolved and judged before the request, and the
request is pinned to the judged addresses. -/
namespace DeepseekScience.Net

open Tools Traces Traced

abbrev Bytes := List UInt8

def dohResponseCap : ℕ := 64 * 1024

def fetchResponseCap : ℕ := 256 * 1024

def maxResolvedAddresses : ℕ := 64

def blockedHostMessage : Text :=
  "local, private, reserved, and mixed public/private hosts are blocked".toList

def blockedHostError : ToolError := .invalidArgs blockedHostMessage

/-- What the system's resolver answers. -/
inductive LookupAnswer where
  | timedOut
  | failed (error : Text)
  | resolved (ips : List IpAddr)

structure HttpResponse where
  status : Text
  isSuccess : Bool
  isRedirection : Bool
  /-- The `Location` header, when it is text. -/
  location : Option Text
  contentLength : Option ℕ
  chunks : List (Except Text Bytes)

/-- A client whose connections for a host go to the given addresses only. -/
structure PinnedClient where
  host : Text
  addresses : List SocketAddr
  deriving DecidableEq

structure DohQuery where
  client : PinnedClient
  name : Text
  recordType : Text

structure DnsJsonAnswer where
  recordType : ℕ
  data : Text

structure DnsJsonResponse where
  status : ℕ
  truncated : Bool := false
  answers : Option (List DnsJsonAnswer)

/-- The libraries that read URLs, DNS answers and pages. -/
structure NetLibrary where
  parseUrl : Text → Except Text Url
  join : Url → Text → Except Text Url
  parseDns : Bytes → Except Text DnsJsonResponse
  debugText : Text → Text
  /-- The text of a page, cut to a number of characters. -/
  htmlToText : Bytes → ℕ → Text

/-- The world that one request meets: it may answer differently at every hop. -/
structure Hop where
  lookup : Text → ℕ → LookupAnswer
  doh : DohQuery → Except Text HttpResponse
  page : Url → PinnedClient → Except Text HttpResponse
  buildError : Option Text := none

inductive NetEvent where
  | doh (hop : ℕ) (url : Url) (query : DohQuery)
  | page (hop : ℕ) (url : Url) (client : PinnedClient)

abbrev Fetch := Traced NetEvent ToolError

/-- Runs of equal elements, once. -/
def dedupAdjacent {α : Type} [DecidableEq α] : List α → List α
  | [] => []
  | [a] => [a]
  | a :: b :: rest => if a = b then dedupAdjacent (b :: rest) else a :: dedupAdjacent (b :: rest)

theorem mem_dedupAdjacent {α : Type} [DecidableEq α] {a : α} {l : List α} :
    a ∈ dedupAdjacent l ↔ a ∈ l := by
  induction l using dedupAdjacent.induct with
  | case1 => rfl
  | case2 b => rfl
  | case3 b rest ih => simp [dedupAdjacent, ih]
  | case4 b c rest hne ih => rw [dedupAdjacent, if_neg hne, List.mem_cons, ih, ← List.mem_cons]

/-- `sort_unstable` and `dedup`. -/
def sortIps (ips : List IpAddr) : List IpAddr :=
  dedupAdjacent (ips.mergeSort fun a b => decide (a.rank ≤ b.rank))

theorem mem_sortIps {ip : IpAddr} {ips : List IpAddr} : ip ∈ sortIps ips ↔ ip ∈ ips := by
  rw [sortIps, mem_dedupAdjacent, List.mem_mergeSort]

def trimEndDots (t : Text) : Text := (t.reverse.dropWhile (· == '.')).reverse

def isLocalhostName (host : Text) : Bool :=
  let canonicalHost := toAsciiLowercase (trimEndDots host)
  canonicalHost == "localhost".toList || ".localhost".toList.isSuffixOf canonicalHost

inductive ResolutionAction where
  | useResolved | useCloudflareDoh | block
  deriving DecidableEq

def resolutionAction (host : Text) (cls : AddressClass) : ResolutionAction :=
  match cls with
  | .isPublic => .useResolved
  | .proxySynthetic => if (parseIpLiteral host).isNone then .useCloudflareDoh else .block
  | .blocked => .block

def pinnedHttpClient (w : Hop) (host : Text) (addresses : List SocketAddr) :
    Except ToolError PinnedClient :=
  if classifyAddresses addresses ≠ .isPublic then .error blockedHostError
  else
    match w.buildError with
    | some e => .error (.other ("build http client: ".toList ++ e))
    | none => .ok ⟨host, addresses⟩

def cloudflareDohHost : Text := "cloudflare-dns.com".toList

/-- The client of the secure resolver is pinned to its two addresses. -/
def cloudflareDohClient (w : Hop) : Except ToolError PinnedClient :=
  match w.buildError with
  | some e => .error (.other ("build secure DNS client: ".toList ++ e))
  | none => .ok ⟨cloudflareDohHost, [⟨.v4 ⟨1, 1, 1, 1⟩, 443⟩, ⟨.v4 ⟨1, 0, 0, 1⟩, 443⟩]⟩

/-- Read a body up to a cap. -/
def readBody {ε : Type} (cap : ℕ) (tooLarge : ε) (failed : Text → ε) :
    Bytes → List (Except Text Bytes) → Except ε Bytes
  | body, [] => .ok body
  | _, .error e :: _ => .error (failed e)
  | body, .ok chunk :: rest =>
    if cap < body.length + chunk.length then .error tooLarge
    else readBody cap tooLarge failed (body ++ chunk) rest

section
variable (lib : NetLibrary)

def dohIps : List DnsJsonAnswer → Except Text (List IpAddr)
  | [] => .ok []
  | answer :: rest =>
    if answer.recordType ≠ 1 ∧ answer.recordType ≠ 28 then dohIps rest
    else
      match parseIpAddr answer.data with
      | none =>
        .error ("malformed address record ".toList ++ lib.debugText answer.data ++
          ": invalid IP address syntax".toList)
      | some ip =>
        let isV4 := match ip with
          | .v4 _ => true
          | .v6 _ => false
        if isV4 != decide (answer.recordType = 1) then
          .error ("address record type does not match ".toList ++ lib.debugText answer.data)
        else
          match dohIps rest with
          | .ok ips => .ok (ip :: ips)
          | .error e => .error e

def parseDohIps (body : Bytes) : Except Text (List IpAddr) :=
  match lib.parseDns body with
  | .error e => .error ("invalid JSON: ".toList ++ e)
  | .ok response =>
    if response.status ≠ 0 then .error ("DNS status ".toList ++ natText response.status)
    else if response.truncated then .error "truncated DNS response".toList
    else dohIps lib (response.answers.getD [])

def dohTooLarge : ToolError := .other "secure DNS response too large; URL blocked".toList

/-- The addresses in the answer to one query. -/
def dohAnswer (sent : Except Text HttpResponse) : Except ToolError (List IpAddr) :=
  match sent with
  | .error e => .error (.other ("secure DNS lookup failed; URL blocked: ".toList ++ e))
  | .ok response =>
    if !response.isSuccess then
      .error (.other ("secure DNS HTTP ".toList ++ response.status ++ "; URL blocked".toList))
    else if response.contentLength.any fun length => decide (dohResponseCap < length) then
      .error dohTooLarge
    else
      match readBody dohResponseCap dohTooLarge
        (fun e => .other ("secure DNS response failed; URL blocked: ".toList ++ e)) []
        response.chunks with
      | .error e => .error e
      | .ok body =>
        match parseDohIps lib body with
        | .error e => .error (.other ("invalid secure DNS response; URL blocked: ".toList ++ e))
        | .ok ips => .ok ips

def queryCloudflareDoh (w : Hop) (hop : ℕ) (url : Url) (client : PinnedClient)
    (host recordType : Text) : Fetch (List IpAddr) := do
  emit (.doh hop url ⟨client, host, recordType⟩)
  lift (dohAnswer lib (w.doh ⟨client, host, recordType⟩))

def validateDohIps (ips : List IpAddr) (port : ℕ) : Except ToolError (List SocketAddr) :=
  if ips.isEmpty then
    .error (.invalidArgs "secure DNS returned no A/AAAA records; URL blocked".toList)
  else if maxResolvedAddresses < ips.length then
    .error (.invalidArgs "secure DNS returned too many addresses; URL blocked".toList)
  else if ips.any fun ip => decide (classifyIp ip ≠ .isPublic) then
    .error (.invalidArgs ("secure DNS returned local, private, reserved, synthetic, or mixed " ++
      "addresses; URL blocked").toList)
  else .ok ((sortIps ips).map fun ip => ⟨ip, port⟩)

def resolveWithCloudflareDoh (w : Hop) (hop : ℕ) (url : Url) (host : Text) (port : ℕ) :
    Fetch (List SocketAddr) := do
  let client ← lift (cloudflareDohClient w)
  let ips ← queryCloudflareDoh lib w hop url client host "A".toList
  let more ← queryCloudflareDoh lib w hop url client host "AAAA".toList
  lift (validateDohIps (ips ++ more) port)

/-- The addresses that the system's resolver has for a host. -/
def lookupHost (w : Hop) (host : Text) (port : ℕ) : Except ToolError (List SocketAddr) :=
  match w.lookup host port with
  | .timedOut => .error (.other "DNS lookup timed out; URL blocked".toList)
  | .failed e => .error (.other ("DNS lookup failed; URL blocked: ".toList ++ e))
  | .resolved ips =>
    if maxResolvedAddresses < (ips.take (maxResolvedAddresses + 1)).length then
      .error (.invalidArgs "DNS returned too many addresses; URL blocked".toList)
    else .ok ((sortIps (ips.take (maxResolvedAddresses + 1))).map fun ip => ⟨ip, port⟩)

/-- A client for one request, pinned to public addresses of its host. -/
def publicHttpClient (w : Hop) (hop : ℕ) (url : Url) : Fetch PinnedClient :=
  match url.host with
  | none => throw (.invalidArgs "URL must include a host".toList)
  | some host =>
    if isLocalhostName host then throw blockedHostError
    else
      match url.portOrKnownDefault with
      | none => throw (.invalidArgs "URL port is unknown".toList)
      | some port =>
        match parseIpLiteral host with
        | some ip =>
          match resolutionAction host (classifyIp ip) with
          | .useResolved => lift (pinnedHttpClient w host [⟨ip, port⟩])
          | .useCloudflareDoh => throw blockedHostError
          | .block => throw blockedHostError
        | none => do
          let addresses ← lift (lookupHost w host port)
          match resolutionAction host (classifyAddresses addresses) with
          | .useResolved => lift (pinnedHttpClient w host addresses)
          | .useCloudflareDoh => do
            let dohAddresses ← resolveWithCloudflareDoh lib w hop url host port
            lift (pinnedHttpClient w host dohAddresses)
          | .block => throw blockedHostError

/-- How the loop over the redirects ends: with a page, or with an error for the model. -/
inductive Fetched where
  | response (response : HttpResponse)
  | refused (output : ToolOutput)

/-- Take a page, or go on where a redirect leads. -/
def followResponse (goOn : Url → Fetch Fetched) (current : Url) (sent : Except Text HttpResponse) :
    Fetch Fetched :=
  match sent with
  | .error e => throw (.other ("fetch_url request failed: ".toList ++ e))
  | .ok response =>
    if !response.isRedirection then pure (.response response)
    else
      match response.location with
      | none => throw (.other "redirect missing Location header".toList)
      | some location =>
        match lib.join current location with
        | .error e => throw (.other ("invalid redirect URL: ".toList ++ e))
        | .ok next =>
          if !next.isHttp then
            pure (.refused ⟨"redirect to non-http(s) URL blocked".toList, true⟩)
          else goOn next

/-- The loop over the redirects, with the requests that it may still send. -/
def fetchLoop (world : ℕ → Hop) : ℕ → ℕ → Url → Fetch Fetched
  | 0, _, _ => throw (.other "too many redirects (max 5)".toList)
  | fuel + 1, hop, current => do
    let client ← publicHttpClient lib (world hop) hop current
    emit (.page hop current client)
    followResponse lib (fetchLoop world fuel (hop + 1)) current
      ((world hop).page current client)

structure FetchArgs where
  url : Text
  maxChars : Option ℕ := none

/-- Read the page and cut it. -/
def pageOutput (response : HttpResponse) (maxChars : ℕ) : Except ToolError ToolOutput :=
  match response.contentLength.filter fun n => decide (fetchResponseCap < n) with
  | some n =>
    .ok ⟨"response too large (".toList ++ natText n ++ " bytes > ".toList ++
      natText fetchResponseCap ++ " cap)".toList, true⟩
  | none =>
    match readBody fetchResponseCap
      (Except.ok ⟨"response too large (stream exceeded ".toList ++ natText fetchResponseCap ++
        " byte cap)".toList, true⟩)
      (fun e => Except.error (ToolError.other ("fetch_url read body: ".toList ++ e))) []
      response.chunks with
    | .error e => e
    | .ok body =>
      if !response.isSuccess then .ok ⟨"fetch_url HTTP ".toList ++ response.status, true⟩
      else .ok ⟨lib.htmlToText body maxChars, false⟩

def finishFetch (maxChars : ℕ) : Fetched → Fetch ToolOutput
  | .response response => lift (pageOutput lib response maxChars)
  | .refused output => pure output

/-- `FetchUrlTool::call`. -/
def fetchUrl (world : ℕ → Hop) (args : FetchArgs) : Fetch ToolOutput :=
  let maxChars := max 200 (min (args.maxChars.getD 8000) 50000)
  match lib.parseUrl args.url with
  | .error e => throw (.invalidArgs ("invalid url: ".toList ++ e))
  | .ok parsed =>
    if !parsed.isHttp then
      pure ⟨"only http/https allowed, got ".toList ++ parsed.scheme, true⟩
    else fetchLoop lib world 6 0 parsed >>= finishFetch lib maxChars

end
end DeepseekScience.Net
