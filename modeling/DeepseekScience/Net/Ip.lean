import DeepseekScience.Text

/-! Internet addresses, the reading of their literals, and the two tests of the program for an
address of the public network: they agree on every address. -/
namespace DeepseekScience.Net

structure Ipv4Addr where
  o0 : UInt8
  o1 : UInt8
  o2 : UInt8
  o3 : UInt8
  deriving DecidableEq, Repr

structure Ipv6Addr where
  s0 : UInt16
  s1 : UInt16
  s2 : UInt16
  s3 : UInt16
  s4 : UInt16
  s5 : UInt16
  s6 : UInt16
  s7 : UInt16
  deriving DecidableEq, Repr

inductive IpAddr where
  | v4 (ip : Ipv4Addr)
  | v6 (ip : Ipv6Addr)
  deriving DecidableEq, Repr

namespace Ipv4Addr

def isPrivate (ip : Ipv4Addr) : Bool :=
  ip.o0 == 10 || (ip.o0 == 172 && (decide (16 ≤ ip.o1) && decide (ip.o1 ≤ 31))) ||
    (ip.o0 == 192 && ip.o1 == 168)

def isLoopback (ip : Ipv4Addr) : Bool := ip.o0 == 127

def isLinkLocal (ip : Ipv4Addr) : Bool := ip.o0 == 169 && ip.o1 == 254

def isMulticast (ip : Ipv4Addr) : Bool := decide (224 ≤ ip.o0) && decide (ip.o0 ≤ 239)

def isBroadcast (ip : Ipv4Addr) : Bool := ip == ⟨255, 255, 255, 255⟩

def isUnspecified (ip : Ipv4Addr) : Bool := ip == ⟨0, 0, 0, 0⟩

/-- The value as an unsigned number of 32 bits. -/
def rank (ip : Ipv4Addr) : ℕ :=
  ((ip.o0.toNat * 256 + ip.o1.toNat) * 256 + ip.o2.toNat) * 256 + ip.o3.toNat

end Ipv4Addr

namespace Ipv6Addr

def isLoopback (ip : Ipv6Addr) : Bool := ip == ⟨0, 0, 0, 0, 0, 0, 0, 1⟩

def isUnspecified (ip : Ipv6Addr) : Bool := ip == ⟨0, 0, 0, 0, 0, 0, 0, 0⟩

def isMulticast (ip : Ipv6Addr) : Bool := ip.s0 &&& 0xff00 == 0xff00

def isUniqueLocal (ip : Ipv6Addr) : Bool := ip.s0 &&& 0xfe00 == 0xfc00

def isUnicastLinkLocal (ip : Ipv6Addr) : Bool := ip.s0 &&& 0xffc0 == 0xfe80

/-- An address that embeds one of version 4, mapped or compatible. -/
def toIpv4 (ip : Ipv6Addr) : Option Ipv4Addr :=
  if ip.s0 == 0 && ip.s1 == 0 && ip.s2 == 0 && ip.s3 == 0 && ip.s4 == 0 &&
      (ip.s5 == 0 || ip.s5 == 0xffff) then
    some ⟨(ip.s6 >>> 8).toUInt8, ip.s6.toUInt8, (ip.s7 >>> 8).toUInt8, ip.s7.toUInt8⟩
  else none

/-- The value as an unsigned number of 128 bits. -/
def rank (ip : Ipv6Addr) : ℕ :=
  [ip.s0, ip.s1, ip.s2, ip.s3, ip.s4, ip.s5, ip.s6, ip.s7].foldl
    (fun n s => n * 65536 + s.toNat) 0

end Ipv6Addr

/-- The order of addresses: those of version 4 come first. -/
def IpAddr.rank : IpAddr → ℕ
  | .v4 ip => ip.rank
  | .v6 ip => 2 ^ 32 + ip.rank

/-! The reading of a literal. Every reader takes a prefix, and leaves the rest. -/

def digitValue (radix : ℕ) (c : Char) : Option ℕ :=
  let n := c.toNat
  if 48 ≤ n ∧ n ≤ 57 then some (n - 48)
  else if radix = 16 ∧ 65 ≤ n ∧ n ≤ 70 then some (n - 55)
  else if radix = 16 ∧ 97 ≤ n ∧ n ≤ 102 then some (n - 87)
  else none

/-- The digits at the start of a text, at most as many as given: their number, value and rest. -/
def readDigits (radix : ℕ) : ℕ → ℕ → ℕ → Text → ℕ × ℕ × Text
  | 0, count, value, t => (count, value, t)
  | _ + 1, count, value, [] => (count, value, [])
  | fuel + 1, count, value, c :: t =>
    match digitValue radix c with
    | some d => readDigits radix fuel (count + 1) (value * radix + d) t
    | none => (count, value, c :: t)

/-- `Parser::read_number`: a number too long, too large or with a forbidden leading zero is
none. -/
def readNumber (radix maxDigits bound : ℕ) (allowZeroPrefix : Bool) (t : Text) :
    Option (ℕ × Text) :=
  let (count, value, rest) := readDigits radix (maxDigits + 1) 0 0 t
  if count = 0 ∨ maxDigits < count ∨ bound ≤ value then none
  else if !allowZeroPrefix && t.head? == some '0' && decide (1 < count) then none
  else some (value, rest)

def readGivenChar (c : Char) : Text → Option Text
  | d :: t => if d = c then some t else none
  | [] => none

/-- `Parser::read_separator`: the separator stands in front of all items but the first. -/
def readSeparator {α : Type} (sep : Char) (index : ℕ) (read : Text → Option (α × Text))
    (t : Text) : Option (α × Text) :=
  if index = 0 then read t else (readGivenChar sep t).bind read

def readOctet (index : ℕ) (t : Text) : Option (UInt8 × Text) :=
  readSeparator '.' index
    (fun t => (readNumber 10 3 256 false t).map fun (n, rest) => (UInt8.ofNat n, rest)) t

def readIpv4Addr (t : Text) : Option (Ipv4Addr × Text) := do
  let (o0, t) ← readOctet 0 t
  let (o1, t) ← readOctet 1 t
  let (o2, t) ← readOctet 2 t
  let (o3, t) ← readOctet 3 t
  pure (⟨o0, o1, o2, o3⟩, t)

def segments (ip : Ipv4Addr) : List UInt16 :=
  [ip.o0.toUInt16 * 256 + ip.o1.toUInt16, ip.o2.toUInt16 * 256 + ip.o3.toUInt16]

/-- `read_groups`: at most `fuel` groups from the given index on, and whether they end with an
embedded address of version 4, which needs two of them. -/
def readGroups : ℕ → ℕ → Text → List UInt16 × Bool × Text
  | 0, _, t => ([], false, t)
  | fuel + 1, index, t =>
    match if fuel = 0 then none else readSeparator ':' index readIpv4Addr t with
    | some (ip, rest) => (segments ip, true, rest)
    | none =>
      match readSeparator ':' index (readNumber 16 4 65536 true) t with
      | some (group, rest) =>
        let (groups, embedded, rest) := readGroups fuel (index + 1) rest
        (UInt16.ofNat group :: groups, embedded, rest)
      | none => ([], false, t)

def ofSegments : List UInt16 → Option Ipv6Addr
  | [s0, s1, s2, s3, s4, s5, s6, s7] => some ⟨s0, s1, s2, s3, s4, s5, s6, s7⟩
  | _ => none

def readIpv6Addr (t : Text) : Option (Ipv6Addr × Text) :=
  let (head, embedded, rest) := readGroups 8 0 t
  if head.length = 8 then (ofSegments head).map fun ip => (ip, rest)
  else if embedded then none
  else do
    let rest ← readGivenChar ':' rest
    let rest ← readGivenChar ':' rest
    let (tail, _, rest) := readGroups (8 - (head.length + 1)) 0 rest
    let zeros := List.replicate (8 - head.length - tail.length) 0
    let ip ← ofSegments (head ++ zeros ++ tail)
    pure (ip, rest)

/-- `str::parse::<IpAddr>`. -/
def parseIpAddr (t : Text) : Option IpAddr :=
  match readIpv4Addr t with
  | some (ip, []) => some (.v4 ip)
  | _ =>
    match readIpv6Addr t with
    | some (ip, []) => some (.v6 ip)
    | _ => none

/-- An address of version 6 stands in brackets in a host. -/
def parseIpLiteral (host : Text) : Option IpAddr :=
  parseIpAddr
    (match host with
      | '[' :: t => if t.getLast? = some ']' then t.dropLast else host
      | _ => host)

/-! The classes of addresses. -/

inductive AddressClass where
  | isPublic
  /-- 198.18.0.0/15 is used by proxies that answer every name with an address of their own. -/
  | proxySynthetic
  | blocked
  deriving DecidableEq, Repr

def classifyIpv4 (ip : Ipv4Addr) : AddressClass :=
  if ip.o0 == 198 && (ip.o1 == 18 || ip.o1 == 19) then .proxySynthetic
  else if ip.isPrivate || ip.isLoopback || ip.isLinkLocal || ip.isMulticast || ip.isBroadcast ||
      ip.isUnspecified || ip.o0 == 0 ||
      (ip.o0 == 100 && (decide (64 ≤ ip.o1) && decide (ip.o1 ≤ 127))) ||
      (ip.o0 == 192 && ip.o1 == 0 && ip.o2 == 0) || (ip.o0 == 192 && ip.o1 == 0 && ip.o2 == 2) ||
      (ip.o0 == 192 && ip.o1 == 88 && ip.o2 == 99) ||
      (ip.o0 == 198 && ip.o1 == 51 && ip.o2 == 100) ||
      (ip.o0 == 203 && ip.o1 == 0 && ip.o2 == 113) || decide (240 ≤ ip.o0) then .blocked
  else .isPublic

def classifyIp : IpAddr → AddressClass
  | .v4 ip => classifyIpv4 ip
  | .v6 ip =>
    match ip.toIpv4 with
    | some v4 => classifyIpv4 v4
    | none =>
      let allocatedGlobalUnicast := ip.s0 &&& 0xe000 == 0x2000
      if !allocatedGlobalUnicast || ip.isLoopback || ip.isUnspecified || ip.isMulticast ||
          ip.isUniqueLocal || ip.isUnicastLinkLocal || ip.s0 &&& 0xffc0 == 0xfec0 ||
          (ip.s0 == 0x2001 && decide (ip.s1 ≤ 0x01ff)) ||
          (ip.s0 == 0x2001 && ip.s1 == 0x0db8) || ip.s0 == 0x2002 || ip.s0 == 0x3ffe ||
          (ip.s0 == 0x3fff && ip.s1 &&& 0xf000 == 0) then .blocked
      else .isPublic

def isPublicRegistryIpv4 (ip : Ipv4Addr) : Bool :=
  !(ip.isPrivate || ip.isLoopback || ip.isLinkLocal || ip.isMulticast || ip.isBroadcast ||
    ip.isUnspecified || ip.o0 == 0 ||
    (ip.o0 == 100 && (decide (64 ≤ ip.o1) && decide (ip.o1 ≤ 127))) ||
    (ip.o0 == 192 && ip.o1 == 0 && ip.o2 == 0) || (ip.o0 == 192 && ip.o1 == 0 && ip.o2 == 2) ||
    (ip.o0 == 192 && ip.o1 == 88 && ip.o2 == 99) ||
    (ip.o0 == 198 && (ip.o1 == 18 || ip.o1 == 19)) ||
    (ip.o0 == 198 && ip.o1 == 51 && ip.o2 == 100) ||
    (ip.o0 == 203 && ip.o1 == 0 && ip.o2 == 113) || decide (240 ≤ ip.o0))

/-- The test of the A2A client. -/
def isPublicRegistryIp : IpAddr → Bool
  | .v4 ip => isPublicRegistryIpv4 ip
  | .v6 ip =>
    match ip.toIpv4 with
    | some v4 => isPublicRegistryIpv4 v4
    | none =>
      let allocatedGlobalUnicast := ip.s0 &&& 0xe000 == 0x2000
      allocatedGlobalUnicast && !ip.isLoopback && !ip.isUnspecified && !ip.isMulticast &&
        !ip.isUniqueLocal && !ip.isUnicastLinkLocal && !(ip.s0 &&& 0xffc0 == 0xfec0) &&
        !(ip.s0 == 0x2001 && decide (ip.s1 ≤ 0x01ff)) &&
        !(ip.s0 == 0x2001 && ip.s1 == 0x0db8) && !(ip.s0 == 0x2002) && !(ip.s0 == 0x3ffe) &&
        !(ip.s0 == 0x3fff && ip.s1 &&& 0xf000 == 0)

theorem ite_blocked_eq {b : Bool} :
    (if b then AddressClass.blocked else .isPublic) = .isPublic ↔ b = false := by
  cases b <;> simp

theorem classifyIpv4_isPublic (ip : Ipv4Addr) :
    classifyIpv4 ip = .isPublic ↔ isPublicRegistryIpv4 ip = true := by
  unfold classifyIpv4 isPublicRegistryIpv4
  cases hsynthetic : ip.o0 == 198 && (ip.o1 == 18 || ip.o1 == 19) with
  | true => simp
  | false =>
    rw [if_neg Bool.false_ne_true, ite_blocked_eq, Bool.or_false, Bool.not_eq_true']

/-- The two tests agree on every address. -/
theorem classifyIp_isPublic (ip : IpAddr) :
    classifyIp ip = .isPublic ↔ isPublicRegistryIp ip = true := by
  cases ip with
  | v4 ip => exact classifyIpv4_isPublic ip
  | v6 ip =>
    simp only [classifyIp, isPublicRegistryIp]
    cases ip.toIpv4 with
    | some v4 => exact classifyIpv4_isPublic v4
    | none =>
      dsimp only
      rw [ite_blocked_eq]
      simp only [Bool.or_eq_false_iff, Bool.and_eq_true, Bool.not_eq_true', Bool.not_eq_false']

/-! Sets of addresses. -/

structure SocketAddr where
  ip : IpAddr
  port : ℕ
  deriving DecidableEq, Repr

/-- The class of a set of addresses: blocked unless all have one class. -/
def classifyAddresses : List SocketAddr → AddressClass
  | [] => .blocked
  | first :: rest =>
    let cls := classifyIp first.ip
    if cls = .blocked || rest.any fun addr => classifyIp addr.ip != cls then .blocked else cls

/-- `validate_registry_public_addresses`, the same decision in the A2A client. -/
def validateRegistryPublicAddresses (addresses : List SocketAddr) : Except Text Unit :=
  if addresses.isEmpty then
    .error "Registry endpoint DNS resolution returned no addresses".toList
  else if addresses.any fun address => !isPublicRegistryIp address.ip then
    .error "Registry endpoint did not resolve exclusively to public addresses".toList
  else .ok ()

/-- A class other than blocked is that of every address, and there is one. -/
theorem classifyAddresses_eq {addresses : List SocketAddr} {cls : AddressClass}
    (hcls : cls ≠ .blocked) :
    classifyAddresses addresses = cls ↔
      addresses ≠ [] ∧ ∀ a ∈ addresses, classifyIp a.ip = cls := by
  cases addresses with
  | nil => simp [classifyAddresses, hcls.symm]
  | cons first rest =>
    have hmixed : (rest.any fun addr => classifyIp addr.ip != classifyIp first.ip) = false ↔
        ∀ a ∈ rest, classifyIp a.ip = classifyIp first.ip := by
      simp only [List.any_eq_false, bne_iff_ne, ne_eq, not_not]
    unfold classifyAddresses
    dsimp only
    cases hany : rest.any fun addr => classifyIp addr.ip != classifyIp first.ip with
    | true =>
      rw [Bool.or_true, if_pos rfl]
      refine ⟨fun h => absurd h.symm hcls, fun h => ?_⟩
      have hall : ∀ a ∈ rest, classifyIp a.ip = classifyIp first.ip := fun a ha =>
        (h.2 a (List.mem_cons_of_mem _ ha)).trans (h.2 first List.mem_cons_self).symm
      rw [hmixed.mpr hall] at hany
      cases hany
    | false =>
      have hall := hmixed.mp hany
      rw [Bool.or_false]
      split_ifs with hblocked
      · refine ⟨fun h => absurd h.symm hcls, fun h => ?_⟩
        have hfirst := h.2 first List.mem_cons_self
        exact absurd (hfirst.symm.trans (of_decide_eq_true hblocked)) hcls
      · constructor
        · intro h
          refine ⟨List.cons_ne_nil _ _, fun a ha => ?_⟩
          rcases List.mem_cons.mp ha with rfl | ha
          · exact h
          · exact (hall a ha).trans h
        · exact fun h => h.2 first List.mem_cons_self

end DeepseekScience.Net
