import Mathlib

/-!
# Messages of the control plane

The records that a node sends to register, those of the catalogue, and those of a
session that a client opens.  Times are nanoseconds since the epoch.
-/

namespace MediumOverlay

inductive ServiceKind where
  | http
  | https
  | ssh
deriving DecidableEq, Repr

def ServiceKind.asStr : ServiceKind → String
  | .http => "http"
  | .https => "https"
  | .ssh => "ssh"

inductive EndpointKind where
  | tcpProxy
  | iceUdp
deriving DecidableEq, Repr

def EndpointKind.asStr : EndpointKind → String
  | .tcpProxy => "tcp_proxy"
  | .iceUdp => "ice_udp"

structure PublishedService where
  id : String
  kind : ServiceKind
  schemaVersion : UInt32
  label : Option String
  target : String
  userName : Option String
deriving DecidableEq, Repr

structure NodeEndpoint where
  kind : EndpointKind
  schemaVersion : UInt32
  addr : String
  priority : Int32
deriving DecidableEq, Repr

structure RegisterNodeRequest where
  nodeId : String
  nodeLabel : String
  endpoints : List NodeEndpoint
  services : List PublishedService
deriving DecidableEq, Repr

structure SshEndpoint where
  serviceId : String
  host : String
  port : Nat
  user : String
deriving DecidableEq, Repr

structure DeviceRecord where
  id : String
  name : String
  ssh : Option SshEndpoint
  services : List PublishedService
deriving DecidableEq, Repr

@[ext]
structure DeviceCatalogResponse where
  devices : List DeviceRecord
deriving DecidableEq, Repr

/-! ## Sessions -/

inductive CandidateKind where
  | directTcp
  | relayTcp
  | wssRelay
deriving DecidableEq, Repr

def CandidateKind.asStr : CandidateKind → String
  | .directTcp => "direct_tcp"
  | .relayTcp => "relay_tcp"
  | .wssRelay => "wss_relay"

structure SessionOpenRequest where
  serviceId : String
  requesterDeviceId : String
  nodeId : Option String
deriving DecidableEq, Repr

structure PeerCandidate where
  kind : CandidateKind
  addr : String
  priority : Int32
deriving DecidableEq, Repr

inductive IceCandidateKind where
  | host
  | srflx
  | relay
deriving DecidableEq, Repr

def IceCandidateKind.asStr : IceCandidateKind → String
  | .host => "host"
  | .srflx => "srflx"
  | .relay => "relay"

structure IceCandidate where
  foundation : String
  component : Nat
  transport : String
  priority : UInt32
  addr : String
  port : Nat
  kind : IceCandidateKind
  relatedAddr : Option String
  relatedPort : Option Nat
deriving DecidableEq, Repr

structure IceCredentials where
  ufrag : String
  pwd : String
  expiresAt : Int
deriving DecidableEq, Repr

structure IceSessionGrant where
  credentials : IceCredentials
  candidates : List IceCandidate
deriving DecidableEq, Repr

structure SessionAuthorization where
  token : String
  expiresAt : Int
  candidates : List PeerCandidate
  ice : Option IceSessionGrant
deriving DecidableEq, Repr

structure SessionOpenGrant where
  sessionId : String
  serviceId : String
  nodeId : String
  relayHint : Option String
  authorization : SessionAuthorization
deriving DecidableEq, Repr

/-! ## SSH certificates -/

structure SshCertificateRequest where
  serviceId : String
  nodeId : Option String
  requesterDeviceId : String
  publicKey : String
  clientSecret : String
deriving DecidableEq, Repr

structure SshCertificateResponse where
  certificate : String
  userName : String
  validSeconds : Nat
deriving DecidableEq, Repr

/-! ## Service certificates and invites -/

structure ServiceCertificateRequest where
  nodeId : String
  hostnames : List String
  sharedSecret : String
deriving DecidableEq, Repr

structure ServiceCertificateResponse where
  certPem : String
  keyPem : String
deriving DecidableEq, Repr

structure BootstrapInviteResponse where
  code : String
  invite : String
  bootstrapToken : String
  security : String
  controlPin : String
  expiresAt : Option String
deriving DecidableEq, Repr

end MediumOverlay
