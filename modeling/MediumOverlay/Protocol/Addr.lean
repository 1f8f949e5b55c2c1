import MediumOverlay.Lib.Str
import MediumOverlay.Transport.Packet

/-!
# Addresses in text

Nodes and the control plane keep addresses as text and look into them with the
parsers of the standard library.  Those are parameters (`AddrText`).  What they
find is classified here.
-/

namespace MediumOverlay

/-- `std::net::IpAddr`. -/
inductive IpAddr where
  | v4 (ip : UInt32)
  | v6 (ip : BitVec 128)
deriving DecidableEq, Repr

def SocketAddr.ip : SocketAddr → IpAddr
  | .v4 ip _ => .v4 ip
  | .v6 ip _ _ _ => .v6 ip

def SocketAddr.port : SocketAddr → Nat
  | .v4 _ port => port.toNat
  | .v6 _ port _ _ => port.toNat

/-- `parse::<SocketAddr>()`, `parse::<IpAddr>()` and `to_string` of an `IpAddr`. -/
structure AddrText where
  parseSocketAddr : String → Option SocketAddr
  parseIpAddr : String → Option IpAddr
  display : IpAddr → String

namespace IpAddr

/-- An octet of an IPv4 address, the first one is 0. -/
def octet (ip : UInt32) (i : Nat) : Nat := ip.toNat / 256 ^ (3 - i) % 256

/-- The leading bits of an IPv6 address. -/
def leading (ip : BitVec 128) (bits : Nat) : Nat := ip.toNat / 2 ^ (128 - bits)

def isUnspecified : IpAddr → Bool
  | .v4 ip => ip = 0
  | .v6 ip => ip = 0

def isLoopback : IpAddr → Bool
  | .v4 ip => octet ip 0 = 127
  | .v6 ip => ip = 1

/-- `is_link_local` and `is_unicast_link_local`. -/
def isLinkLocal : IpAddr → Bool
  | .v4 ip => octet ip 0 = 169 ∧ octet ip 1 = 254
  | .v6 ip => leading ip 10 = 0x3fa

/-- `Ipv4Addr::is_private` and `is_ipv6_unique_local`. -/
def isPrivate : IpAddr → Bool
  | .v4 ip => octet ip 0 = 10 ∨ (octet ip 0 = 172 ∧ 16 ≤ octet ip 1 ∧ octet ip 1 ≤ 31)
      ∨ (octet ip 0 = 192 ∧ octet ip 1 = 168)
  | .v6 ip => leading ip 7 = 0x7e

def isMulticast : IpAddr → Bool
  | .v4 ip => 224 ≤ octet ip 0 ∧ octet ip 0 ≤ 239
  | .v6 ip => leading ip 8 = 0xff

end IpAddr

/-! ### Texts of the standard library

An IPv6 address is written here as `::` and a number, which the standard library does with
those below 10. -/

def dottedQuad (ip : UInt32) : String :=
  toString (IpAddr.octet ip 0) ++ "." ++ (toString (IpAddr.octet ip 1) ++ "."
    ++ (toString (IpAddr.octet ip 2) ++ "." ++ toString (IpAddr.octet ip 3)))

/-- A decimal number without zeros in front. -/
def parseOctet (octet : String) : Option Nat :=
  (Str.parseUnsigned 255 octet).toOption.filter fun n => toString n = octet

def parseDottedQuad (addr : String) : Option UInt32 := do
  let (first, rest) ← Str.splitOnce '.' addr
  let (second, rest) ← Str.splitOnce '.' rest
  let (third, fourth) ← Str.splitOnce '.' rest
  return .ofNat ((((← parseOctet first) * 256 + (← parseOctet second)) * 256
    + (← parseOctet third)) * 256 + (← parseOctet fourth))

def dottedDisplay : IpAddr → String
  | .v4 ip => dottedQuad ip
  | .v6 ip => "::" ++ toString ip.toNat

def dottedIp (addr : String) : Option IpAddr :=
  match Str.stripPrefix "::" addr with
  | some n => (Str.parseUnsigned (2 ^ 128 - 1) n).toOption.map fun ip => .v6 (.ofNat 128 ip)
  | none => (parseDottedQuad addr).map .v4

def dottedSocketAddr (addr : String) : Option SocketAddr :=
  match Str.stripPrefix "[" addr with
  | some rest => (Str.splitOnce ']' rest).bind fun parts =>
    (Str.stripPrefix ":" parts.2).bind fun port => build parts.1 port
  | none => (Str.splitOnce ':' addr).bind fun parts => build parts.1 parts.2
where
  build (ip port : String) : Option SocketAddr :=
    match dottedIp ip, (Str.parseUnsigned 65535 port).toOption with
    | some (.v4 ip), some port => some (.v4 ip (.ofNat port))
    | some (.v6 ip), some port => some (.v6 ip (.ofNat port) 0 0)
    | _, _ => none

def dottedText : AddrText := ⟨dottedSocketAddr, dottedIp, dottedDisplay⟩

end MediumOverlay
