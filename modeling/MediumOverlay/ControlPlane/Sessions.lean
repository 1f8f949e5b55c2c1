import MediumOverlay.ControlPlane.Registry
import MediumOverlay.HomeNode.Access
import MediumOverlay.Lib.Fallible

/-!
# Opening a session

A client asks the control plane for a session with a service.  The control plane
finds a node that publishes the service, issues a token for it, and lists the
addresses at which the node may be reached.

The node then decides on the token by itself, from its own configuration.
`grant_honoured` says that it decides as the control plane did: the rows that the
route was found in come from the node's registration, and that was made from the
same configuration as the node's table of services.
-/

namespace MediumOverlay

open Table

/-! ## Routes -/

structure ServiceEndpoint where
  addr : String
  priority : Int32
deriving DecidableEq, Repr

structure ServiceRoute where
  nodeId : String
  tcpAddr : String
  iceUdpEndpoints : List ServiceEndpoint
  userName : Option String
deriving DecidableEq, Repr

namespace Registry

/-- The row of a route: the best proxy of a node with a service. -/
def routeRow (db : Registry) (wanted : ServiceRow → Bool) : Option (ServiceRow × EndpointRow) :=
  (orderBy (fun x => x.2.rank) (db.joined.filter fun x => wanted x.1 && x.2.isTcpProxy)).head?

/-- `endpoints`: those of a node with a kind. -/
def endpointsOfKind (db : Registry) (nodeId kind : String) : List ServiceEndpoint :=
  (orderBy EndpointRow.rank (db.endpoints.rows.filter fun e =>
    e.nodeId = nodeId ∧ e.kind = kind ∧ e.schemaVersion = 1)).map
      fun e => ⟨e.addr, .ofInt e.priority⟩

/-- The route of a row. -/
def route (db : Registry) (row : Option (ServiceRow × EndpointRow)) :
    Except AnyhowError ServiceRoute :=
  match row with
  | none => .error (.message SqlError.rowNotFound.display)
  | some (service, endpoint) =>
    .ok ⟨service.nodeId, endpoint.addr, db.endpointsOfKind service.nodeId "ice_udp",
      service.userName⟩

/-- `resolve_service_route`. -/
def resolveServiceRoute (db : Registry) (serviceId : String) : Except AnyhowError ServiceRoute :=
  db.route (db.routeRow fun s => s.id = serviceId)

/-- `resolve_node_service_route`. -/
def resolveNodeServiceRoute (db : Registry) (nodeId serviceId : String) :
    Except AnyhowError ServiceRoute :=
  db.route (db.routeRow fun s => s.nodeId = nodeId ∧ s.id = serviceId)

/-- A route leads to a node with a row for the service. -/
theorem exists_of_route {db : Registry} {wanted : ServiceRow → Bool} {r : ServiceRoute}
    (h : db.route (db.routeRow wanted) = .ok r) :
    ∃ service ∈ db.services.rows, wanted service = true ∧ r.nodeId = service.nodeId := by
  cases hrow : db.routeRow wanted with
  | none =>
    rw [hrow] at h
    cases h
  | some row =>
    rw [hrow] at h
    cases h
    have hmem := (orderBy_perm _ _).mem_iff.mp (List.mem_of_head? hrow)
    obtain ⟨hjoined, hwanted⟩ := List.mem_filter.mp hmem
    have hproduct := List.mem_product.mp (List.mem_of_mem_filter hjoined)
    simp only [Bool.and_eq_true] at hwanted
    exact ⟨row.1, hproduct.1, hwanted.1, rfl⟩

end Registry

/-! ## Grants -/

/-- `SessionSettings`. -/
structure SessionSettings where
  registry : Registry
  sharedSecret : String
  relayAddr : Option String
  wssRelayUrl : Option String
  iceRelayAddr : Option String

/-- What a grant takes from its surroundings: fresh ids, and the time at each
reading of the clock. -/
structure GrantDraw where
  sessionUuid : String
  ufragUuid : String
  pwdUuid : String
  tokenTime : Int
  iceTime : Int
  grantTime : Int

/-- `parse_host_port`. -/
def parseHostPort (text : AddrText) (value : String) : Except AnyhowError (String × Nat) :=
  match text.parseSocketAddr value with
  | some addr => .ok (text.display addr.ip, addr.port)
  | none =>
    match Str.rsplitOnce ':' value with
    | none => .error (.message "ICE relay address must be host:port")
    | some (host, port) =>
      if Str.trim host = "" then .error (.message "ICE relay host must not be empty")
      else
        match Str.parseUnsigned 65535 port with
        | .error error => .error (.message error)
        | .ok port => .ok (Str.trimMatches (fun c => c = '[' ∨ c = ']') host, port)

/-- `classify_node_udp_candidate`. -/
def classifyNodeUdpCandidate (text : AddrText) (addr : String) : IceCandidateKind :=
  match text.parseIpAddr addr with
  | none => .srflx
  | some ip =>
    if ip.isPrivate || ip.isLoopback || ip.isLinkLocal || ip.isUnspecified then .host else .srflx

/-- The candidate of an endpoint of the node. -/
def nodeCandidate (text : AddrText) (endpoint : ServiceEndpoint) (index : Nat) :
    Except AnyhowError IceCandidate :=
  match parseHostPort text endpoint.addr with
  | .error error => .error error
  | .ok (addr, port) =>
    let kind := classifyNodeUdpCandidate text addr
    .ok ⟨kind.asStr ++ "-udp-" ++ toString (index + 1), 1, "udp",
      .ofNat endpoint.priority.toInt.toNat, addr, port, kind, none, none⟩

/-- The candidate of the relay. -/
def relayCandidate (text : AddrText) (relayAddr : String) : Except AnyhowError IceCandidate :=
  match parseHostPort text relayAddr with
  | .error error => .error error
  | .ok (addr, port) => .ok ⟨"relay-udp-1", 1, "udp", 10, addr, port, .relay, none, none⟩

/-- `build_ice_grant`. -/
def buildIceGrant (text : AddrText) (draw : GrantDraw) (endpoints : List ServiceEndpoint)
    (relayAddr : Option String) : Except AnyhowError (Option IceSessionGrant) := do
  let nodes ← endpoints.zipIdx.mapM fun e => nodeCandidate text e.1 e.2
  let relays ← relayAddr.toList.mapM (relayCandidate text)
  let candidates := nodes ++ relays
  if candidates.isEmpty then .ok none
  else .ok (some ⟨⟨"m" ++ draw.ufragUuid, "m" ++ draw.pwdUuid,
    draw.iceTime + minutes SESSION_TOKEN_TTL_MINUTES⟩, candidates⟩)

/-- The addresses of TCP candidates. -/
def peerCandidates (settings : SessionSettings) (route : ServiceRoute) : List PeerCandidate :=
  [⟨.directTcp, route.tcpAddr, 100⟩] ++ settings.relayAddr.toList.map (⟨.relayTcp, ·, 10⟩)
    ++ settings.wssRelayUrl.toList.map (⟨.wssRelay, ·, 10⟩)

/-- The route of a request, for the node it names or for any. -/
def resolveRoute (db : Registry) (request : SessionOpenRequest) : Except AnyhowError ServiceRoute :=
  match request.nodeId with
  | some nodeId => db.resolveNodeServiceRoute nodeId request.serviceId
  | none => db.resolveServiceRoute request.serviceId

/-- `issue_session_grant`. -/
def issueSessionGrant (codec : TokenCodec) (text : AddrText) (draw : GrantDraw)
    (settings : SessionSettings) (request : SessionOpenRequest) :
    Except AnyhowError SessionOpenGrant := do
  let route ← resolveRoute settings.registry request
  let sessionId := "sess_" ++ draw.sessionUuid
  let token := issueSessionToken codec settings.sharedSecret sessionId request.serviceId
    route.nodeId draw.tokenTime
  let ice ← buildIceGrant text draw route.iceUdpEndpoints
    (settings.iceRelayAddr.or settings.relayAddr)
  return {
    sessionId := sessionId
    serviceId := request.serviceId
    nodeId := route.nodeId
    relayHint := settings.relayAddr
    authorization := {
      token := token
      expiresAt := draw.grantTime + minutes SESSION_TOKEN_TTL_MINUTES
      candidates := peerCandidates settings route
      ice := ice } }

/-- The node that a grant names has a row for the service, and the token is for that
node. -/
theorem issueSessionGrant_ok {codec : TokenCodec} {text : AddrText} {draw : GrantDraw}
    {settings : SessionSettings} {request : SessionOpenRequest} {grant : SessionOpenGrant}
    (h : issueSessionGrant codec text draw settings request = .ok grant) :
    grant.serviceId = request.serviceId
      ∧ grant.authorization.token = issueSessionToken codec settings.sharedSecret grant.sessionId
        grant.serviceId grant.nodeId draw.tokenTime
      ∧ ∃ service ∈ settings.registry.services.rows, service.id = request.serviceId
        ∧ service.nodeId = grant.nodeId ∧ ∀ nodeId ∈ request.nodeId, service.nodeId = nodeId := by
  unfold issueSessionGrant at h
  obtain ⟨route, hroute, h⟩ := Fallible.bind_eq_ok_iff.mp h
  obtain ⟨ice, -, h⟩ := Fallible.bind_eq_ok_iff.mp h
  cases h
  refine ⟨rfl, rfl, ?_⟩
  unfold resolveRoute at hroute
  cases hnode : request.nodeId with
  | none =>
    rw [hnode] at hroute
    obtain ⟨service, hmem, hwanted, hid⟩ := Registry.exists_of_route hroute
    exact ⟨service, hmem, by simpa using hwanted, hid.symm, by simp⟩
  | some nodeId =>
    rw [hnode] at hroute
    obtain ⟨service, hmem, hwanted, hid⟩ := Registry.exists_of_route hroute
    simp only [decide_eq_true_eq] at hwanted
    exact ⟨service, hmem, hwanted.2, hid.symm, by simpa using hwanted.1⟩

/-- A service of a registration is one that the configuration enables. -/
theorem exists_enabled {text : AddrText} {localIps : List IpAddr} {cfg : NodeConfig}
    {sequence : Nat} {service : ServiceRow}
    (h : service ∈ (Registry.rowsFor sequence (cfg.buildRegistration text localIps)).services) :
    ∃ svc ∈ cfg.services, svc.enabled = true ∧ svc.id = service.id := by
  obtain ⟨published, hpublished, rfl⟩ := List.mem_map.mp h
  obtain ⟨svc, hsvc, rfl⟩ := List.mem_map.mp hpublished
  obtain ⟨hmem, henabled⟩ := List.mem_filter.mp hsvc
  exact ⟨svc, hmem, henabled, rfl⟩

/-- A grant that the control plane issues for a node that has registered passes the
node's checks until fifteen minutes after its token was issued. -/
theorem grant_honoured {codec : TokenCodec} {text : AddrText} {localIps : List IpAddr}
    {serverTls : ServiceConfig → Except AnyhowError ServerConfig} {cfg : NodeConfig}
    {start : Registry} {requests log : List RegisterNodeRequest} {settings : SessionSettings}
    {request : SessionOpenRequest} {draw : GrantDraw} {grant : SessionOpenGrant}
    {services : ProxyServices} {now : Int}
    (run : requests.foldl Registry.register (start, []) = (settings.registry, log))
    (registered : Registry.latest log cfg.nodeId = some (cfg.buildRegistration text localIps))
    (asked : request.nodeId = some cfg.nodeId ∨ request.nodeId = none
      ∧ ∀ s ∈ settings.registry.services.rows, s.id = request.serviceId → s.nodeId = cfg.nodeId)
    (issued : issueSessionGrant codec text draw settings request = .ok grant)
    (exact : codec.ExactOn settings.sharedSecret ⟨grant.sessionId, grant.serviceId, grant.nodeId,
      draw.tokenTime + minutes SESSION_TOKEN_TTL_MINUTES⟩)
    (prepared : proxyServicesFromConfig serverTls cfg = .ok services)
    (hnow : now ≤ draw.tokenTime + minutes 15) (transport : Option String) :
    ∃ service, authorizeSession codec services cfg.nodeId settings.sharedSecret
      ⟨grant.authorization.token, grant.serviceId, transport⟩ now = .ok service := by
  obtain ⟨hservice, htoken, row, hrow, hid, hnode, hasked⟩ := issueSessionGrant_ok issued
  -- the row of the route is a row of this node
  have hown : row.nodeId = cfg.nodeId := by
    rcases asked with hthis | ⟨-, honly⟩
    · exact hasked _ hthis
    · exact honly row hrow hid
  obtain ⟨sequence, hrows⟩ := Registry.rowsOf_latest run registered
  have hmem : row ∈ (settings.registry.rowsOf cfg.nodeId).services :=
    List.mem_filter.mpr ⟨hrow, by simpa using hown⟩
  rw [hrows] at hmem
  obtain ⟨svc, hsvc, henabled, hsvcId⟩ := exists_enabled hmem
  obtain ⟨service, hlookup⟩ := Option.isSome_iff_exists.mp (isSome_lookup prepared hsvc henabled)
  have hclaims := verifySessionToken_issue exact hnow
  rw [← htoken] at hclaims
  refine ⟨service, authorizeSession_eq_ok_iff.mpr ⟨⟨_, hclaims, rfl, hnode.symm.trans hown⟩, ?_⟩⟩
  dsimp only
  rw [hservice, ← hid, ← hsvcId]
  exact hlookup

/-! ### A grant for the sample token -/

def sampleDraw : GrantDraw where
  sessionUuid := "1"
  ufragUuid := "2"
  pwdUuid := "3"
  tokenTime := sampleIssued
  iceTime := sampleIssued + 1000
  grantTime := sampleIssued + 2000

def sampleSettings : SessionSettings where
  registry := (Registry.empty.registerNode (sampleConfig.buildRegistration dottedText [])).2
  sharedSecret := sampleSecret
  relayAddr := none
  wssRelayUrl := none
  iceRelayAddr := none

theorem grant_honoured_sample :
    ∃ grant services service, issueSessionGrant sampleTokenCodec dottedText sampleDraw
        sampleSettings ⟨"svc_web", "device-1", some "node-1"⟩ = .ok grant
      ∧ proxyServicesFromConfig sampleServerTls sampleConfig = .ok services
      ∧ authorizeSession sampleTokenCodec services "node-1" sampleSecret
        ⟨grant.authorization.token, grant.serviceId, none⟩ (sampleIssued + minutes 15)
        = .ok service := by
  have hregistered : (Registry.empty.registerNode
      (sampleConfig.buildRegistration dottedText [])).1 = .ok () := by
    decide +kernel
  have hrun : [sampleConfig.buildRegistration dottedText []].foldl Registry.register
      (Registry.empty, []) = (sampleSettings.registry,
        [sampleConfig.buildRegistration dottedText []]) := by
    rw [List.foldl_cons, List.foldl_nil, Registry.register_of_ok hregistered]
    rfl
  have hissued : ((issueSessionGrant sampleTokenCodec dottedText sampleDraw sampleSettings
      ⟨"svc_web", "device-1", some "node-1"⟩).map fun grant =>
        (grant.sessionId, grant.serviceId, grant.nodeId)).toOption
      = some ("sess_1", "svc_web", "node-1") := by
    decide +kernel
  have hprepared : (proxyServicesFromConfig sampleServerTls sampleConfig).toOption.isSome
      = true := by
    decide +kernel
  cases hgrant : issueSessionGrant sampleTokenCodec dottedText sampleDraw sampleSettings
      ⟨"svc_web", "device-1", some "node-1"⟩ with
  | error error =>
    rw [hgrant] at hissued
    cases hissued
  | ok grant =>
    cases hservices : proxyServicesFromConfig sampleServerTls sampleConfig with
    | error error =>
      rw [hservices] at hprepared
      cases hprepared
    | ok services =>
      rw [hgrant] at hissued
      obtain ⟨hsession, hids⟩ := Prod.mk.inj (Option.some.inj hissued)
      obtain ⟨hservice, hnode⟩ := Prod.mk.inj hids
      have hlatest : Registry.latest [sampleConfig.buildRegistration dottedText []]
          sampleConfig.nodeId = some (sampleConfig.buildRegistration dottedText []) := rfl
      have hexact : sampleTokenCodec.ExactOn sampleSettings.sharedSecret ⟨grant.sessionId,
          grant.serviceId, grant.nodeId,
          sampleDraw.tokenTime + minutes SESSION_TOKEN_TTL_MINUTES⟩ := by
        rw [hsession, hservice, hnode]
        exact sampleTokenCodec_exactOn
      obtain ⟨service, hok⟩ := grant_honoured hrun hlatest (.inl rfl) hgrant hexact hservices
        (le_refl _) none
      exact ⟨grant, services, service, rfl, rfl, hok⟩

end MediumOverlay
