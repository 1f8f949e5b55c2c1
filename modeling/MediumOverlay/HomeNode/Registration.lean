import MediumOverlay.Lib.Str
import MediumOverlay.Protocol.Addr
import MediumOverlay.Protocol.Messages

/-!
# The registration of a node

A node registers its TCP proxy, the addresses at which its UDP socket may be
reached, and the services that its configuration enables.
-/

namespace MediumOverlay

/-- `ServiceConfig`. -/
structure ServiceConfig where
  id : String
  kind : String
  label : Option String
  target : String
  userName : Option String
  enabled : Bool
deriving DecidableEq, Repr

/-- `NodeConfig`, with the fields that a registration and the proxy read. -/
structure NodeConfig where
  nodeId : String
  nodeLabel : Option String
  bindAddr : String
  iceBindAddr : String
  publicAddr : Option String
  icePublicAddr : Option String
  iceHostAddrs : List String
  services : List ServiceConfig
deriving DecidableEq, Repr

namespace NodeConfig

variable (text : AddrText)

/-- `ice_bind_port`. -/
def iceBindPort (addr : String) : Option Nat :=
  match text.parseSocketAddr addr with
  | some socketAddr => some socketAddr.port
  | none => (Str.rsplitOnce ':' addr).bind fun parts => (Str.parseUnsigned 65535 parts.2).toOption

/-- `addr_host`. -/
def addrHost (addr : String) : Option String :=
  match text.parseSocketAddr addr with
  | some socketAddr => some (text.display socketAddr.ip)
  | none => (Str.rsplitOnce ':' addr).map fun parts =>
    Str.trimMatches (fun c => c = '[' ∨ c = ']') parts.1

/-- `format_host_port`. -/
def formatHostPort (host : String) (port : Nat) : String :=
  match text.parseIpAddr host with
  | some (.v6 _) => "[" ++ host ++ "]:" ++ toString port
  | _ => host ++ ":" ++ toString port

/-- `effective_ice_public_addr`. -/
def effectiveIcePublicAddr (cfg : NodeConfig) : String :=
  match cfg.icePublicAddr with
  | some addr => addr
  | none =>
    match cfg.publicAddr, iceBindPort text cfg.iceBindAddr with
    | some publicAddr, some port =>
      match addrHost text publicAddr with
      | some host => formatHostPort text host port
      | none => cfg.iceBindAddr
    | _, _ => cfg.iceBindAddr

/-- `is_usable_host_ip`. -/
def isUsableHostIp : IpAddr → Bool
  | .v4 ip => !(IpAddr.v4 ip).isUnspecified && !(IpAddr.v4 ip).isLoopback
      && !(IpAddr.v4 ip).isLinkLocal
      && !(IpAddr.octet ip 0 = 198 ∧ (IpAddr.octet ip 1 = 18 ∨ IpAddr.octet ip 1 = 19))
  | .v6 ip => !(IpAddr.v6 ip).isUnspecified && !(IpAddr.v6 ip).isLoopback
      && !(IpAddr.v6 ip).isLinkLocal && !(IpAddr.v6 ip).isMulticast

/-- `discover_local_ice_addrs`, on the addresses of the interfaces. -/
def discoverLocalIceAddrs (localIps : List IpAddr) (port : Nat) : List String :=
  (localIps.filter isUsableHostIp).map fun ip => formatHostPort text (text.display ip) port

/-- `push_ice_endpoint`.  The addresses that were seen are those of the endpoints. -/
def pushIceEndpoint (endpoints : List NodeEndpoint) (addr : String) (priority : Int32) :
    List NodeEndpoint :=
  if addr ∈ endpoints.map NodeEndpoint.addr then endpoints
  else endpoints ++ [⟨.iceUdp, 1, addr, priority⟩]

/-- `build_ice_udp_endpoints`. -/
def buildIceUdpEndpoints (localIps : List IpAddr) (cfg : NodeConfig) : List NodeEndpoint :=
  let port := (iceBindPort text cfg.iceBindAddr).getD 17002
  let endpoints := cfg.iceHostAddrs.foldl (fun es addr => pushIceEndpoint es addr 300) []
  let endpoints := (discoverLocalIceAddrs text localIps port).foldl
    (fun es addr => pushIceEndpoint es addr 250) endpoints
  pushIceEndpoint endpoints (effectiveIcePublicAddr text cfg) 100

/-- The kind a service is registered with. -/
def publishedKind (kind : String) : ServiceKind :=
  if kind = "http" then .http
  else if kind = "https" then .https
  else if kind = "ssh" then .ssh
  else .https

/-- `normalize_target_addr`. -/
def normalizeTargetAddr (target : String) : String := target

/-- `build_registration`. -/
def buildRegistration (localIps : List IpAddr) (cfg : NodeConfig) : RegisterNodeRequest where
  nodeId := cfg.nodeId
  nodeLabel := cfg.nodeLabel.getD cfg.nodeId
  endpoints := ⟨.tcpProxy, 1, cfg.publicAddr.getD cfg.bindAddr, 10⟩
    :: buildIceUdpEndpoints text localIps cfg
  services := (cfg.services.filter (·.enabled)).map fun svc =>
    ⟨svc.id, publishedKind svc.kind, 1, svc.label, normalizeTargetAddr svc.target, svc.userName⟩

end NodeConfig

end MediumOverlay
