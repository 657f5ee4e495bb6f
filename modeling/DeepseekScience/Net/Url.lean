import DeepseekScience.Net.Ip

/-! What the program reads out of a parsed URL. -/
namespace DeepseekScience.Net

structure Url where
  scheme : Text
  /-- `Url::host_str`. -/
  host : Option Text
  /-- The address, where the host is one: `Url::host` tells it from a domain. -/
  ip : Option IpAddr := none
  port : Option ℕ := none
  path : Text := []
  username : Text := []
  password : Option Text := none
  query : Option Text := none
  fragment : Option Text := none
  deriving DecidableEq

namespace Url

def defaultPort (scheme : Text) : Option ℕ :=
  if scheme = "http".toList ∨ scheme = "ws".toList then some 80
  else if scheme = "https".toList ∨ scheme = "wss".toList then some 443
  else if scheme = "ftp".toList then some 21
  else none

/-- `Url::port_or_known_default`. -/
def portOrKnownDefault (url : Url) : Option ℕ := url.port.or (defaultPort url.scheme)

def isHttp (url : Url) : Bool := url.scheme == "http".toList || url.scheme == "https".toList

/-- However an address was spelled in a URL, its host is a literal of the address. -/
def HostReadsBack (url : Url) : Prop :=
  ∀ ip, url.ip = some ip → ∃ host, url.host = some host ∧ parseIpLiteral host = some ip

end Url
end DeepseekScience.Net
