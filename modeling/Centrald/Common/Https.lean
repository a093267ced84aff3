import Mathlib.Init

/-!
# `Centrald.Common.Https`: the redirects the update clients follow

The model of `centrald-common/src/https.rs` and of the redirect policy
that the two update clients share (`http_client` of the broker,
`check_release_manifest` of the server). The address predicates are
those of `std::net`. The check looks a host name up, and the HTTP
library looks it up once more when it connects; a `Redirect` carries
both answers. The port is left out, since it only goes to the lookups.
-/

set_option autoImplicit false

namespace Centrald.Common

/-- The four octets of an IPv4 address. -/
structure Ipv4Addr where
  a : UInt8
  b : UInt8
  c : UInt8
  d : UInt8
  deriving DecidableEq

namespace Ipv4Addr

variable (ip : Ipv4Addr)

def isLoopback : Bool := ip.a == 127

def isPrivate : Bool :=
  ip.a == 10 || ip.a == 172 && 16 ≤ ip.b && ip.b ≤ 31 || ip.a == 192 && ip.b == 168

def isLinkLocal : Bool := ip.a == 169 && ip.b == 254

def isUnspecified : Bool := ip == ⟨0, 0, 0, 0⟩

def isBroadcast : Bool := ip == ⟨255, 255, 255, 255⟩

def isDocumentation : Bool :=
  [(192, 0, 2), (198, 51, 100), (203, 0, 113)].contains (ip.a, ip.b, ip.c)

end Ipv4Addr

/-- An address of eight segments. -/
structure Ipv6Addr where
  (s0 s1 s2 s3 s4 s5 s6 s7 : UInt16)
  deriving DecidableEq

namespace Ipv6Addr

variable (ip : Ipv6Addr)

def isLoopback : Bool := ip == ⟨0, 0, 0, 0, 0, 0, 0, 1⟩

def isUniqueLocal : Bool := ip.s0 &&& 0xfe00 == 0xfc00

def isUnicastLinkLocal : Bool := ip.s0 &&& 0xffc0 == 0xfe80

def isUnspecified : Bool := ip == ⟨0, 0, 0, 0, 0, 0, 0, 0⟩

def toIpv4Mapped : Option Ipv4Addr :=
  if [ip.s0, ip.s1, ip.s2, ip.s3, ip.s4, ip.s5] = [0, 0, 0, 0, 0, 0xffff] then
    some ⟨(ip.s6 >>> 8).toUInt8, ip.s6.toUInt8, (ip.s7 >>> 8).toUInt8, ip.s7.toUInt8⟩
  else none

end Ipv6Addr

/-- An address literal of either family. -/
inductive IpAddr where
  | v4 (ip : Ipv4Addr)
  | v6 (ip : Ipv6Addr)

/-- The host of a parsed URL. The parser has turned every textual form
of an address into the address. -/
inductive Host where
  | domain (name : String)
  | ip (ip : IpAddr)

/-- What the checks read of a parsed URL. -/
structure Url where
  scheme : String
  host : Option Host

def ipv4IsNonPublic (ip : Ipv4Addr) : Bool :=
  ip.isLoopback || ip.isPrivate || ip.isLinkLocal || ip.isUnspecified || ip.isBroadcast
    || ip.isDocumentation

def ipIsNonPublic : IpAddr → Bool
  | .v4 ip => ipv4IsNonPublic ip
  | .v6 ip =>
    match ip.toIpv4Mapped with
    | some mapped => ipv4IsNonPublic mapped
    | none => ip.isLoopback || ip.isUniqueLocal || ip.isUnicastLinkLocal || ip.isUnspecified

/-- A redirect that a response asks for. `checked` and `connected` are
what the resolver answers, if its host is a name, to the check and to
the library. A failed lookup of the check answers nothing. -/
structure Redirect where
  url : Url
  checked : Option (List IpAddr)
  connected : List IpAddr

def hostIsNonPublicLiteral (r : Redirect) : Bool :=
  match r.url.host with
  | some (.ip ip) => ipIsNonPublic ip
  | some (.domain _) =>
    match r.checked with
    | some addrs => addrs.any ipIsNonPublic || addrs.isEmpty
    | none => true
  | none => true

def httpsRedirectIsAllowed (r : Redirect) : Except String Unit :=
  if r.url.scheme ≠ "https" then .error "refusing non-HTTPS redirect"
  else if hostIsNonPublicLiteral r then
    .error "refusing redirect to a private or local address"
  else .ok ()

/-- What the redirect policy tells the HTTP client to do. -/
inductive RedirectAction where
  | follow
  | stop
  | error (reason : String)

/-- The policy of both clients, after `previous` requests. -/
def redirectPolicy (previous : Nat) (r : Redirect) : RedirectAction :=
  if previous ≥ 3 then .stop
  else match httpsRedirectIsAllowed r with
    | .ok () => .follow
    | .error reason => .error reason

/-- The redirects of a chain that a client follows. -/
def followed (previous : Nat) : List Redirect → List Redirect
  | [] => []
  | r :: rest =>
    match redirectPolicy previous r with
    | .follow => r :: followed (previous + 1) rest
    | _ => []

/-- The addresses that the library may connect to for a redirect. -/
def Redirect.addresses (r : Redirect) : List IpAddr :=
  match r.url.host with
  | some (.ip ip) => [ip]
  | some (.domain _) => r.connected
  | none => []

end Centrald.Common
