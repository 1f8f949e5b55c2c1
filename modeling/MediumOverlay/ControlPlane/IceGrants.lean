import MediumOverlay.ControlPlane.Sessions

/-!
# The ICE section of a grant

A grant lists TCP candidates, and for UDP it has a section of ICE candidates.  The
addresses of that section come from the registration of the node and from the
configuration of the control plane, and neither of them was checked.  One that is not of
the form `host:port` makes `build_ice_grant` fail, and with it the whole grant.

`Parses` says that an address is of that form.  The section is what the addresses that
parse give (`parsedCandidates`) if there is a grant at all (`buildIceGrant_eq_ok`), and
there is one exactly if all of them parse (`exists_buildIceGrant_iff`).
-/

namespace MediumOverlay

open Table

variable {text : AddrText}

/-- An address of the form `host:port`. -/
def Parses (text : AddrText) (addr : String) : Prop :=
  ∃ parts, parseHostPort text addr = .ok parts

/-- The candidates of the addresses that parse. -/
def parsedCandidates (text : AddrText) (endpoints : List ServiceEndpoint)
    (relayAddr : Option String) : List IceCandidate :=
  (endpoints.zipIdx.filterMap fun e => (nodeCandidate text e.1 e.2).toOption)
    ++ relayAddr.toList.filterMap fun addr => (relayCandidate text addr).toOption

/-- The candidates of an ICE section. -/
def iceCandidates (ice : Option IceSessionGrant) : List IceCandidate :=
  (ice.map IceSessionGrant.candidates).getD []

theorem exists_nodeCandidate_iff {endpoint : ServiceEndpoint} {index : Nat} :
    (∃ candidate, nodeCandidate text endpoint index = .ok candidate)
      ↔ Parses text endpoint.addr := by
  rw [nodeCandidate, Parses]
  cases parseHostPort text endpoint.addr with
  | error error => simp
  | ok parts => simp

theorem exists_relayCandidate_iff {addr : String} :
    (∃ candidate, relayCandidate text addr = .ok candidate) ↔ Parses text addr := by
  rw [relayCandidate, Parses]
  cases parseHostPort text addr with
  | error error => simp
  | ok parts => simp

/-- What comes out of a list of results that are all there. -/
theorem eq_filterMap_of_mapM {α β : Type} {f : α → Except AnyhowError β} {l : List α}
    {out : List β} (h : l.mapM f = .ok out) : out = l.filterMap fun a => (f a).toOption := by
  have hout := mapM_eq_ok_iff.mp h
  clear h
  induction hout with
  | nil => rfl
  | @cons a b l out hok _ ih =>
    rw [List.filterMap_cons, hok]
    exact congrArg (b :: ·) ih

theorem exists_mapM_iff {α β : Type} {f : α → Except AnyhowError β} {l : List α} :
    (∃ out, l.mapM f = .ok out) ↔ ∀ a ∈ l, ∃ b, f a = .ok b := by
  simp only [mapM_eq_ok_iff]
  exact exists_forall₂_iff

section Build

variable {draw : GrantDraw} {endpoints : List ServiceEndpoint} {relayAddr : Option String}

/-- The section has the candidates of the node and then that of the relay. -/
theorem iceCandidates_of_buildIceGrant {ice : Option IceSessionGrant}
    (h : buildIceGrant text draw endpoints relayAddr = .ok ice) :
    ∃ nodes relays, endpoints.zipIdx.mapM (fun e => nodeCandidate text e.1 e.2) = .ok nodes
      ∧ relayAddr.toList.mapM (relayCandidate text) = .ok relays
      ∧ iceCandidates ice = nodes ++ relays := by
  obtain ⟨nodes, hnodes, h⟩ := Fallible.bind_eq_ok_iff.mp h
  obtain ⟨relays, hrelays, h⟩ := Fallible.bind_eq_ok_iff.mp h
  refine ⟨nodes, relays, hnodes, hrelays, ?_⟩
  dsimp only at h
  split at h
  next hempty =>
    cases h
    exact (List.isEmpty_iff.mp hempty).symm
  next =>
    cases h
    rfl

/-- The section has the candidates of the addresses that parse. -/
theorem buildIceGrant_eq_ok {ice : Option IceSessionGrant}
    (h : buildIceGrant text draw endpoints relayAddr = .ok ice) :
    iceCandidates ice = parsedCandidates text endpoints relayAddr := by
  obtain ⟨nodes, relays, hnodes, hrelays, hice⟩ := iceCandidates_of_buildIceGrant h
  rw [parsedCandidates, hice, ← eq_filterMap_of_mapM hnodes, ← eq_filterMap_of_mapM hrelays]

theorem exists_buildIceGrant_iff :
    (∃ ice, buildIceGrant text draw endpoints relayAddr = .ok ice)
      ↔ (∀ endpoint ∈ endpoints, Parses text endpoint.addr)
        ∧ ∀ addr ∈ relayAddr, Parses text addr := by
  have hnodes : (∃ nodes, endpoints.zipIdx.mapM (fun e => nodeCandidate text e.1 e.2) = .ok nodes)
      ↔ ∀ endpoint ∈ endpoints, Parses text endpoint.addr := by
    simp only [exists_mapM_iff, exists_nodeCandidate_iff]
    constructor
    · intro h endpoint hmem
      obtain ⟨index, hindex⟩ := List.getElem?_of_mem hmem
      exact h (endpoint, index) (List.mem_zipIdx_iff_getElem?.mpr hindex)
    · intro h e hmem
      exact h e.1 (List.mem_of_getElem? (List.mem_zipIdx_iff_getElem?.mp hmem))
  have hrelays : (∃ relays, relayAddr.toList.mapM (relayCandidate text) = .ok relays)
      ↔ ∀ addr ∈ relayAddr, Parses text addr := by
    simp only [exists_mapM_iff, exists_relayCandidate_iff, Option.mem_toList, Option.mem_def]
  rw [← hnodes, ← hrelays]
  constructor
  · rintro ⟨ice, h⟩
    obtain ⟨nodes, hnodes, h⟩ := Fallible.bind_eq_ok_iff.mp h
    obtain ⟨relays, hrelays, -⟩ := Fallible.bind_eq_ok_iff.mp h
    exact ⟨⟨nodes, hnodes⟩, relays, hrelays⟩
  · rintro ⟨⟨nodes, hnodes⟩, relays, hrelays⟩
    rw [buildIceGrant, hnodes]
    dsimp only [bind, Except.bind]
    rw [hrelays]
    dsimp only
    split
    · exact ⟨none, rfl⟩
    · exact ⟨_, rfl⟩

end Build

/-- With a route, there is a grant if and only if its ICE section can be built. -/
theorem issueSessionGrant_of_route {codec : TokenCodec} {draw : GrantDraw}
    {settings : SessionSettings} {request : SessionOpenRequest} {route : ServiceRoute}
    (resolved : resolveRoute settings.registry request = .ok route) {grant : SessionOpenGrant} :
    issueSessionGrant codec text draw settings request = .ok grant
      ↔ ∃ ice, buildIceGrant text draw route.iceUdpEndpoints
          (settings.iceRelayAddr.or settings.relayAddr) = .ok ice
        ∧ grant = ⟨"sess_" ++ draw.sessionUuid, request.serviceId, route.nodeId,
          settings.relayAddr, issueSessionToken codec settings.sharedSecret
            ("sess_" ++ draw.sessionUuid) request.serviceId route.nodeId draw.tokenTime,
          draw.grantTime + minutes SESSION_TOKEN_TTL_MINUTES, peerCandidates settings route,
          ice⟩ := by
  rw [issueSessionGrant, resolved]
  dsimp only [bind, Except.bind]
  cases buildIceGrant text draw route.iceUdpEndpoints
    (settings.iceRelayAddr.or settings.relayAddr) with
  | error error => simp
  | ok ice => simp [pure, Except.pure, eq_comm]

/-- The parsed addresses are those of the candidates. -/
theorem addrs_parsedCandidates (endpoints : List ServiceEndpoint) (relayAddr : Option String) :
    (parsedCandidates text endpoints relayAddr).map (fun c => (c.addr, c.port))
      = (endpoints.map ServiceEndpoint.addr ++ relayAddr.toList).filterMap fun addr =>
        (parseHostPort text addr).toOption := by
  have hnode : ∀ e : ServiceEndpoint × Nat,
      (nodeCandidate text e.1 e.2).toOption.map (fun c => (c.addr, c.port))
        = (parseHostPort text e.1.addr).toOption := by
    intro e
    rw [nodeCandidate]
    cases parseHostPort text e.1.addr <;> rfl
  have hrelay : ∀ addr, (relayCandidate text addr).toOption.map (fun c => (c.addr, c.port))
      = (parseHostPort text addr).toOption := by
    intro addr
    rw [relayCandidate]
    cases parseHostPort text addr <;> rfl
  rw [parsedCandidates, List.map_append, List.map_filterMap, List.map_filterMap,
    List.filterMap_append]
  simp only [hnode, hrelay]
  congr 1
  rw [List.filterMap_map, ← List.zipIdx_map_fst 0 endpoints, List.filterMap_map,
    List.zipIdx_map_fst]
  rfl

/-- A request for a service with a route gets the direct candidate, those of the TCP relay and
of the WSS relay that are configured, and the ICE candidates of the addresses that parse, exactly
if all of those addresses do. -/
theorem grant_with_parsed_ice_iff {codec : TokenCodec} {draw : GrantDraw}
    {settings : SessionSettings} {request : SessionOpenRequest} {route : ServiceRoute}
    (resolved : resolveRoute settings.registry request = .ok route) :
    (∃ grant, issueSessionGrant codec text draw settings request = .ok grant
        ∧ grant.authorization.candidates
          = [⟨.directTcp, route.tcpAddr, 100⟩]
            ++ (settings.relayAddr.toList.map fun addr => ⟨.relayTcp, addr, 10⟩)
            ++ (settings.wssRelayUrl.toList.map fun url => ⟨.wssRelay, url, 10⟩)
        ∧ iceCandidates grant.authorization.ice = parsedCandidates text route.iceUdpEndpoints
          (settings.iceRelayAddr.or settings.relayAddr)
        ∧ (iceCandidates grant.authorization.ice).map (fun c => (c.addr, c.port))
          = (route.iceUdpEndpoints.map ServiceEndpoint.addr
            ++ (settings.iceRelayAddr.or settings.relayAddr).toList).filterMap fun addr =>
              (parseHostPort text addr).toOption)
      ↔ (∀ endpoint ∈ route.iceUdpEndpoints, Parses text endpoint.addr)
        ∧ ∀ addr ∈ settings.iceRelayAddr.or settings.relayAddr, Parses text addr := by
  rw [← exists_buildIceGrant_iff]
  simp only [issueSessionGrant_of_route resolved]
  constructor
  · rintro ⟨grant, ⟨ice, hice, -⟩, -⟩
    exact ⟨ice, hice⟩
  · rintro ⟨ice, hice⟩
    have hparsed := buildIceGrant_eq_ok hice
    refine ⟨_, ⟨ice, hice, rfl⟩, rfl, hparsed, ?_⟩
    rw [hparsed, addrs_parsedCandidates]

/-! ### An address without a port -/

/-- The control plane of the sample with a relay for TCP and one for WSS. -/
def relaySettings : SessionSettings :=
  { sampleSettings with
    relayAddr := some "relay.test:7001", wssRelayUrl := some "wss://relay.test/wss" }

theorem grant_with_parsed_ice_iff_sample :
    ∃ grant, issueSessionGrant sampleTokenCodec dottedText sampleDraw relaySettings
        ⟨"svc_web", "device-1", some "node-1"⟩ = .ok grant
      ∧ grant.authorization.candidates = [⟨.directTcp, "192.0.2.1:17001", 100⟩,
        ⟨.relayTcp, "relay.test:7001", 10⟩, ⟨.wssRelay, "wss://relay.test/wss", 10⟩]
      ∧ (iceCandidates grant.authorization.ice).map (fun c => (c.addr, c.port))
        = [("192.0.2.1", 17002), ("relay.test", 7001)] := by
  have hroute : resolveRoute relaySettings.registry ⟨"svc_web", "device-1", some "node-1"⟩
      = .ok ⟨"node-1", "192.0.2.1:17001", [⟨"192.0.2.1:17002", 100⟩], none⟩ := by
    decide +kernel
  have hnode : parseHostPort dottedText "192.0.2.1:17002" = .ok ("192.0.2.1", 17002) := rfl
  have hrelay : parseHostPort dottedText "relay.test:7001" = .ok ("relay.test", 7001) := by
    decide +kernel
  obtain ⟨grant, hgrant, hcandidates, -, hice⟩ :=
    (grant_with_parsed_ice_iff hroute).mpr
      ⟨by simpa using ⟨_, hnode⟩, fun addr haddr => by cases haddr; exact ⟨_, hrelay⟩⟩
  refine ⟨grant, hgrant, hcandidates, hice.trans ?_⟩
  simp [relaySettings, sampleSettings, hnode, hrelay, Except.toOption]

/-- The node of the sample, with an address of its own that has no port. -/
def portlessConfig : NodeConfig := { sampleConfig with iceHostAddrs := ["192.0.2.1"] }

def portlessSettings : SessionSettings :=
  { sampleSettings with
    registry := (Registry.empty.registerNode
      (portlessConfig.buildRegistration dottedText [])).2 }

/-- The service is registered and has a route, and there is no session for it. -/
theorem no_grant_for_portless_node :
    (Registry.empty.registerNode (portlessConfig.buildRegistration dottedText [])).1 = .ok ()
      ∧ resolveRoute portlessSettings.registry ⟨"svc_web", "device-1", some "node-1"⟩
        = .ok ⟨"node-1", "192.0.2.1:17001", [⟨"192.0.2.1", 300⟩, ⟨"192.0.2.1:17002", 100⟩], none⟩
      ∧ issueSessionGrant sampleTokenCodec dottedText sampleDraw portlessSettings
          ⟨"svc_web", "device-1", some "node-1"⟩
        = .error (.message "ICE relay address must be host:port") := by
  decide +kernel

end MediumOverlay
