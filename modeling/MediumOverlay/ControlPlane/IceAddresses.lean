import MediumOverlay.ControlPlane.IceGrants
import MediumOverlay.MediumSession.Candidates

/-!
# The way of an ICE address

An address at which the UDP socket of a node may be reached goes through three programs.  The
node formats it and registers it with a priority.  The control plane keeps it as a row of a
table, reads the rows back by priority, and splits each address for a grant.  A client puts
the two parts together again.

The node pushes its addresses in groups, those of the configuration before those that it
finds and the public one last, and leaves out what it has pushed already
(`firstOfEach_buildIceUdpEndpoints`).  Since the priorities of the groups go down, the order of
the query is the order in which they were pushed (`endpointsOfKind_iceUdp`).

What an address text stands for (`Names`) is the same at the end, if formatting and parsing of
addresses are inverse (`AddrText.Inverse`).
-/

namespace MediumOverlay

open Table

/-! ## Addresses in text -/

/-- Formatting and parsing are inverse. -/
structure AddrText.Inverse (text : AddrText) : Prop where
  ip : ∀ ip, text.parseIpAddr (text.display ip) = some ip
  v4 : ∀ (ip : UInt32) (port : UInt16),
    text.parseSocketAddr (text.display (.v4 ip) ++ ":" ++ toString port.toNat)
      = some (.v4 ip port)
  v6 : ∀ (ip : BitVec 128) (port : UInt16),
    text.parseSocketAddr ("[" ++ text.display (.v6 ip) ++ "]:" ++ toString port.toNat)
      = some (.v6 ip port 0 0)

/-- The text is one of an IP address and a port. -/
def AddrText.Names (text : AddrText) (addr : String) (ip : IpAddr) (port : Nat) : Prop :=
  ∃ socketAddr, text.parseSocketAddr addr = some socketAddr ∧ socketAddr.ip = ip
    ∧ socketAddr.port = port

variable {text : AddrText}

theorem SocketAddr.port_lt (addr : SocketAddr) : addr.port < 65536 := by
  cases addr with
  | v4 ip port => exact port.toNat_lt
  | v6 ip port flowinfo scopeId => exact port.toNat_lt

namespace NodeConfig

variable {port : Nat}

theorem names_formatHostPort (inverse : text.Inverse) (ip : IpAddr) (hport : port < 65536) :
    text.Names (formatHostPort text (text.display ip) port) ip port := by
  have hnat : (UInt16.ofNat port).toNat = port := UInt16.toNat_ofNat_of_lt' hport
  rw [formatHostPort, inverse.ip]
  cases ip with
  | v4 ip =>
    have hparse := inverse.v4 ip (.ofNat port)
    rw [hnat] at hparse
    exact ⟨_, hparse, rfl, hnat⟩
  | v6 ip =>
    have hparse := inverse.v6 ip (.ofNat port)
    rw [hnat] at hparse
    exact ⟨_, hparse, rfl, hnat⟩

variable {addr : String}

theorem iceBindPort_lt (h : iceBindPort text addr = some port) : port < 65536 := by
  unfold iceBindPort at h
  split at h
  next socketAddr _ =>
    cases h
    exact socketAddr.port_lt
  next =>
    obtain ⟨parts, -, h⟩ := Option.bind_eq_some_iff.mp h
    exact Nat.lt_succ_of_le (Str.le_of_parseUnsigned (Fallible.toOption_eq_some_iff.mp h))

/-- The addresses of the configuration are texts of IP addresses and ports.  Without an
address for ICE, the public address of the node gets the port of the UDP socket. -/
structure HasIpAddrs (text : AddrText) (cfg : NodeConfig) : Prop where
  hosts : ∀ addr ∈ cfg.iceHostAddrs, ∃ ip port, text.Names addr ip port
  icePublic : ∀ addr ∈ cfg.icePublicAddr, ∃ ip port, text.Names addr ip port
  publicHost : cfg.icePublicAddr = none → ∀ addr ∈ cfg.publicAddr,
    (∃ ip port, text.Names addr ip port) ∧ (iceBindPort text cfg.iceBindAddr).isSome
  bind : cfg.icePublicAddr = none → cfg.publicAddr = none →
    ∃ ip port, text.Names cfg.iceBindAddr ip port

variable {cfg : NodeConfig} {localIps : List IpAddr}

theorem names_effectiveIcePublicAddr (inverse : text.Inverse) (addrs : cfg.HasIpAddrs text) :
    ∃ ip port, text.Names (effectiveIcePublicAddr text cfg) ip port := by
  unfold effectiveIcePublicAddr
  cases hice : cfg.icePublicAddr with
  | some addr => exact addrs.icePublic addr hice
  | none =>
    cases hpublic : cfg.publicAddr with
    | none => exact addrs.bind hice hpublic
    | some publicAddr =>
      obtain ⟨⟨ip, port, socketAddr, hparse, -, -⟩, hbind⟩ :=
        addrs.publicHost hice publicAddr hpublic
      obtain ⟨bindPort, hbind⟩ := Option.isSome_iff_exists.mp hbind
      simp only [hbind, addrHost, hparse]
      exact ⟨_, _, names_formatHostPort inverse _ (iceBindPort_lt hbind)⟩

theorem names_discoverLocalIceAddrs (inverse : text.Inverse) (hport : port < 65536)
    (h : addr ∈ discoverLocalIceAddrs text localIps port) : ∃ ip port, text.Names addr ip port := by
  obtain ⟨ip, -, rfl⟩ := List.mem_map.mp h
  exact ⟨_, _, names_formatHostPort inverse ip hport⟩

/-! ## The endpoints of a node -/

/-- The addresses that a node pushes, with the priorities of their groups. -/
def rankedIceAddrs (text : AddrText) (localIps : List IpAddr) (cfg : NodeConfig) :
    List (String × Int32) :=
  cfg.iceHostAddrs.map (·, 300)
    ++ (discoverLocalIceAddrs text localIps ((iceBindPort text cfg.iceBindAddr).getD 17002)).map
      (·, 250)
    ++ [(effectiveIcePublicAddr text cfg, 100)]

/-- The endpoints are the first of each address, in order. -/
structure FirstOfEach (ranked : List (String × Int32)) (endpoints : List NodeEndpoint) : Prop where
  addrs : endpoints.map NodeEndpoint.addr = (ranked.map Prod.fst).eraseDups
  distinct : (endpoints.map NodeEndpoint.addr).Nodup
  first : ∀ endpoint ∈ endpoints,
    ranked.find? (fun r => r.1 = endpoint.addr) = some (endpoint.addr, endpoint.priority)

/-- Push addresses, one behind the other. -/
def pushIceEndpoints (ranked : List (String × Int32)) : List NodeEndpoint :=
  ranked.foldl (fun endpoints r => pushIceEndpoint endpoints r.1 r.2) []

theorem buildIceUdpEndpoints_eq :
    buildIceUdpEndpoints text localIps cfg
      = pushIceEndpoints (rankedIceAddrs text localIps cfg) := by
  simp only [buildIceUdpEndpoints, pushIceEndpoints, rankedIceAddrs, List.foldl_append,
    List.foldl_map, List.foldl_cons, List.foldl_nil]

theorem pushIceEndpoints_concat (ranked : List (String × Int32)) (r : String × Int32) :
    pushIceEndpoints (ranked ++ [r]) = pushIceEndpoint (pushIceEndpoints ranked) r.1 r.2 :=
  List.foldl_concat _ _ _ _

theorem eraseDups_concat (l : List String) (a : String) :
    (l ++ [a]).eraseDups = if a ∈ l then l.eraseDups else l.eraseDups ++ [a] := by
  rw [List.eraseDups_append]
  by_cases h : a ∈ l <;> simp [List.removeAll, h, List.eraseDups_cons]

theorem firstOfEach_pushIceEndpoints (ranked : List (String × Int32)) :
    FirstOfEach ranked (pushIceEndpoints ranked) := by
  induction ranked using List.reverseRecOn with
  | nil => exact ⟨rfl, .nil, by simp [pushIceEndpoints]⟩
  | append_singleton ranked r ih =>
    obtain ⟨addrs, distinct, first⟩ := ih
    have hfirst : ∀ endpoint ∈ pushIceEndpoints ranked,
        (ranked ++ [r]).find? (fun r => r.1 = endpoint.addr)
          = some (endpoint.addr, endpoint.priority) := by
      intro endpoint hmem
      rw [List.find?_append, first endpoint hmem, Option.some_or]
    have hseen : r.1 ∈ (pushIceEndpoints ranked).map NodeEndpoint.addr
        ↔ r.1 ∈ ranked.map Prod.fst := by
      rw [addrs, List.mem_eraseDups]
    rw [pushIceEndpoints_concat, pushIceEndpoint]
    split
    next h =>
      refine ⟨?_, distinct, hfirst⟩
      rw [List.map_append, List.map_singleton, eraseDups_concat, if_pos (hseen.mp h), addrs]
    next h =>
      have hnew := mt hseen.mpr h
      refine ⟨?_, ?_, List.forall_mem_append.mpr ⟨hfirst, ?_⟩⟩
      · rw [List.map_append, List.map_append, List.map_singleton, List.map_singleton,
          eraseDups_concat, if_neg hnew, addrs]
      · rw [List.map_append]
        exact distinct.append (List.nodup_singleton _) (List.disjoint_singleton.mpr h)
      · have hnone : ranked.find? (fun r' => r'.1 = r.1) = none := by
          refine List.find?_eq_none.mpr fun r' hr' => ?_
          simp only [decide_eq_true_eq]
          intro heq
          exact hnew (heq ▸ List.mem_map_of_mem hr')
        simp only [List.mem_singleton, forall_eq, List.find?_append, hnone, Option.none_or]
        simp

/-- The endpoint of an address with its priority. -/
def iceEndpoint (r : String × Int32) : NodeEndpoint := ⟨.iceUdp, 1, r.1, r.2⟩

theorem pushIceEndpoints_sublist (ranked : List (String × Int32)) :
    (pushIceEndpoints ranked).Sublist (ranked.map iceEndpoint) := by
  induction ranked using List.reverseRecOn with
  | nil => exact .slnil
  | append_singleton ranked r ih =>
    rw [pushIceEndpoints_concat, pushIceEndpoint, List.map_append]
    split
    · exact ih.trans (List.sublist_append_left _ _)
    · exact ih.append (.refl _)

theorem rankedIceAddrs_pairwise :
    (rankedIceAddrs text localIps cfg).Pairwise fun r s => s.2 ≤ r.2 := by
  have hgroup : ∀ (l : List String) (p : Int32),
      (l.map fun addr => (addr, p)).Pairwise fun r s => s.2 ≤ r.2 := by
    intro l p
    refine List.pairwise_of_forall_mem_list fun r hr s hs => ?_
    obtain ⟨_, -, rfl⟩ := List.mem_map.mp hr
    obtain ⟨_, -, rfl⟩ := List.mem_map.mp hs
    exact Int32.le_refl p
  refine List.pairwise_append.mpr ⟨List.pairwise_append.mpr ⟨hgroup _ _, hgroup _ _, ?_⟩,
    List.pairwise_singleton _ _, ?_⟩
  · intro r hr s hs
    obtain ⟨_, -, rfl⟩ := List.mem_map.mp hr
    obtain ⟨_, -, rfl⟩ := List.mem_map.mp hs
    exact (by decide : (250 : Int32) ≤ 300)
  · intro r hr s hs
    rw [List.mem_singleton.mp hs]
    rcases List.mem_append.mp hr with hr | hr
    · obtain ⟨_, -, rfl⟩ := List.mem_map.mp hr
      exact (by decide : (100 : Int32) ≤ 300)
    · obtain ⟨_, -, rfl⟩ := List.mem_map.mp hr
      exact (by decide : (100 : Int32) ≤ 250)

/-- The first of an address has the highest priority. -/
theorem le_of_find? {ranked : List (String × Int32)} (h : ranked.Pairwise fun r s => s.2 ≤ r.2)
    {priority : Int32} (hfind : ranked.find? (fun r => r.1 = addr) = some (addr, priority))
    {r : String × Int32} (hr : r ∈ ranked) (haddr : r.1 = addr) : r.2 ≤ priority := by
  obtain ⟨-, before, after, rfl, hbefore⟩ := List.find?_eq_some_iff_append.mp hfind
  rcases List.mem_append.mp hr with hr | hr
  · simpa [haddr] using hbefore r hr
  · rcases List.mem_cons.mp hr with rfl | hr
    · exact Int32.le_refl _
    · exact (List.pairwise_cons.mp (List.pairwise_append.mp h).2.1).1 r hr

/-- The endpoints go down in priority. -/
theorem buildIceUdpEndpoints_pairwise :
    (buildIceUdpEndpoints text localIps cfg).Pairwise fun e f => f.priority ≤ e.priority := by
  rw [buildIceUdpEndpoints_eq]
  exact (List.pairwise_map.mpr rankedIceAddrs_pairwise).sublist (pushIceEndpoints_sublist _)

variable {endpoint : NodeEndpoint}

theorem exists_of_mem_buildIceUdpEndpoints (h : endpoint ∈ buildIceUdpEndpoints text localIps cfg) :
    ∃ r ∈ rankedIceAddrs text localIps cfg, iceEndpoint r = endpoint := by
  rw [buildIceUdpEndpoints_eq] at h
  exact List.mem_map.mp ((pushIceEndpoints_sublist _).mem h)

theorem names_of_mem_buildIceUdpEndpoints (inverse : text.Inverse) (addrs : cfg.HasIpAddrs text)
    (h : endpoint ∈ buildIceUdpEndpoints text localIps cfg) :
    ∃ ip port, text.Names endpoint.addr ip port := by
  obtain ⟨r, hr, rfl⟩ := exists_of_mem_buildIceUdpEndpoints h
  rcases List.mem_append.mp hr with hr | hr
  · rcases List.mem_append.mp hr with hr | hr
    · obtain ⟨addr, haddr, rfl⟩ := List.mem_map.mp hr
      exact addrs.hosts addr haddr
    · obtain ⟨addr, haddr, rfl⟩ := List.mem_map.mp hr
      refine names_discoverLocalIceAddrs inverse ?_ haddr
      cases hbind : iceBindPort text cfg.iceBindAddr with
      | none => decide
      | some port => exact iceBindPort_lt hbind
  · rw [List.mem_singleton.mp hr]
    exact names_effectiveIcePublicAddr inverse addrs

/-- What a priority is for the control plane. -/
theorem priority_of_mem_buildIceUdpEndpoints
    (h : endpoint ∈ buildIceUdpEndpoints text localIps cfg) :
    ((UInt32.ofNat endpoint.priority.toInt.toNat).toNat : Int) = endpoint.priority.toInt := by
  obtain ⟨r, hr, rfl⟩ := exists_of_mem_buildIceUdpEndpoints h
  simp only [rankedIceAddrs, List.mem_append, List.mem_map, List.mem_singleton] at hr
  rcases hr with (⟨_, _, rfl⟩ | ⟨_, _, rfl⟩) | rfl <;> rfl

end NodeConfig

/-! ## The rows of the node -/

namespace Registry

theorem pairwise_rank {endpoints : List NodeEndpoint}
    (h : endpoints.Pairwise fun e f => f.priority ≤ e.priority) (sequence : Nat)
    (nodeId : String) :
    (endpoints.mapIdx fun i e => endpointRow (sequence + (i + 1) + 1) nodeId e).Pairwise
      fun a b => a.rank < b.rank := by
  rw [List.pairwise_iff_getElem] at h ⊢
  intro i j hi hj hij
  rw [List.length_mapIdx] at hi hj
  have hle := Int32.le_iff_toInt_le.mp (h i j hi hj hij)
  rw [List.getElem_mapIdx, List.getElem_mapIdx, EndpointRow.rank, EndpointRow.rank,
    Prod.Lex.toLex_lt_toLex]
  simp only [endpointRow]
  omega

/-- The query gives the addresses in the order in which the node has pushed them. -/
theorem endpointsOfKind_iceUdp {db : Registry} {cfg : NodeConfig} {localIps : List IpAddr}
    {sequence : Nat}
    (rows : db.rowsOf cfg.nodeId = rowsFor sequence (cfg.buildRegistration text localIps)) :
    db.endpointsOfKind cfg.nodeId "ice_udp"
      = (cfg.buildIceUdpEndpoints text localIps).map fun e => ⟨e.addr, e.priority⟩ := by
  have hown : db.endpoints.rows.filter (fun e =>
        e.nodeId = cfg.nodeId ∧ e.kind = "ice_udp" ∧ e.schemaVersion = 1)
      = (db.rowsOf cfg.nodeId).endpoints.filter fun e =>
        e.kind = "ice_udp" ∧ e.schemaVersion = 1 := by
    rw [rowsOf, List.filter_filter]
    refine List.filter_congr fun e _ => ?_
    rw [← Bool.decide_and]
    exact decide_eq_decide.mpr and_comm
  have hkept : (db.rowsOf cfg.nodeId).endpoints.filter
        (fun e => e.kind = "ice_udp" ∧ e.schemaVersion = 1)
      = (cfg.buildIceUdpEndpoints text localIps).mapIdx fun i e =>
        endpointRow (sequence + (i + 1) + 1) cfg.nodeId e := by
    rw [rows, rowsFor, NodeConfig.buildRegistration, List.mapIdx_cons, List.filter_cons_of_neg
      (by simp [endpointRow, EndpointKind.asStr])]
    refine List.filter_eq_self.mpr fun e he => ?_
    obtain ⟨i, hi, rfl⟩ := List.mem_mapIdx.mp he
    obtain ⟨r, -, hr⟩ := NodeConfig.exists_of_mem_buildIceUdpEndpoints (List.getElem_mem hi)
    rw [← hr]
    rfl
  have hpriority : (cfg.buildIceUdpEndpoints text localIps).Pairwise
      fun e f => f.priority ≤ e.priority := NodeConfig.buildIceUdpEndpoints_pairwise
  have hsorted := pairwise_rank hpriority sequence cfg.nodeId
  have hnodup := (List.pairwise_map.mpr hsorted).imp ne_of_lt
  rw [endpointsOfKind, hown, hkept, orderBy_eq (.refl _) (hsorted.imp le_of_lt) hnodup]
  refine List.ext_getElem (by simp) fun i hi hi' => ?_
  simp [endpointRow]

theorem iceUdpEndpoints_of_route {db : Registry} {row : Option (ServiceRow × EndpointRow)}
    {route : ServiceRoute} (h : db.route row = .ok route) :
    route.iceUdpEndpoints = db.endpointsOfKind route.nodeId "ice_udp" := by
  cases row with
  | none => cases h
  | some row =>
    cases h
    rfl

end Registry

/-! ## The candidates of a grant -/

/-- The section of a grant is that of the endpoints of its node. -/
theorem buildIceGrant_of_issued {codec : TokenCodec} {draw : GrantDraw}
    {settings : SessionSettings} {request : SessionOpenRequest} {grant : SessionOpenGrant}
    (h : issueSessionGrant codec text draw settings request = .ok grant) :
    buildIceGrant text draw (settings.registry.endpointsOfKind grant.nodeId "ice_udp")
      (settings.iceRelayAddr.or settings.relayAddr) = .ok grant.authorization.ice := by
  obtain ⟨route, hroute, -⟩ := Fallible.bind_eq_ok_iff.mp h
  obtain ⟨ice, hice, rfl⟩ := (issueSessionGrant_of_route hroute).mp h
  have hendpoints : route.iceUdpEndpoints
      = settings.registry.endpointsOfKind route.nodeId "ice_udp" := by
    unfold resolveRoute at hroute
    split at hroute
    · exact Registry.iceUdpEndpoints_of_route hroute
    · exact Registry.iceUdpEndpoints_of_route hroute
  rw [hendpoints] at hice
  exact hice

theorem classifyNodeUdpCandidate_ne_relay (addr : String) :
    classifyNodeUdpCandidate text addr ≠ .relay := by
  unfold classifyNodeUdpCandidate
  split
  · decide
  · split <;> decide

/-- A candidate of the node names what the endpoint does. -/
theorem nodeCandidate_names (inverse : text.Inverse) {endpoint : ServiceEndpoint} {index : Nat}
    {candidate : IceCandidate} (h : nodeCandidate text endpoint index = .ok candidate)
    {ip : IpAddr} {port : Nat} (names : text.Names endpoint.addr ip port) :
    candidate.kind ≠ .relay ∧ candidate.priority = .ofNat endpoint.priority.toInt.toNat
      ∧ text.Names (MediumSession.iceCandidateAddr text candidate) ip port := by
  obtain ⟨socketAddr, hparse, rfl, rfl⟩ := names
  rw [nodeCandidate, parseHostPort, hparse] at h
  cases h
  exact ⟨classifyNodeUdpCandidate_ne_relay _, rfl,
    NodeConfig.names_formatHostPort inverse _ socketAddr.port_lt⟩

theorem kind_of_relayCandidate {addr : String} {candidate : IceCandidate}
    (h : relayCandidate text addr = .ok candidate) : candidate.kind = .relay := by
  unfold relayCandidate at h
  split at h
  · cases h
  · cases h
    rfl

/-- The candidates of a section that are not the relay are those of the endpoints. -/
theorem buildIceGrant_names (inverse : text.Inverse) {draw : GrantDraw}
    {endpoints : List ServiceEndpoint} {relayAddr : Option String} {ice : Option IceSessionGrant}
    (h : buildIceGrant text draw endpoints relayAddr = .ok ice)
    (names : ∀ endpoint ∈ endpoints, ∃ ip port, text.Names endpoint.addr ip port) :
    List.Forall₂ (fun endpoint candidate =>
        candidate.priority = .ofNat endpoint.priority.toInt.toNat
        ∧ ∃ ip port, text.Names endpoint.addr ip port
          ∧ text.Names (MediumSession.iceCandidateAddr text candidate) ip port)
      endpoints ((iceCandidates ice).filter fun c => c.kind = .host ∨ c.kind = .srflx) := by
  obtain ⟨nodes, relays, hnodes, hrelays, hice⟩ := iceCandidates_of_buildIceGrant h
  have hown : List.Forall₂ (fun endpoint candidate => candidate.kind ≠ .relay
        ∧ candidate.priority = .ofNat endpoint.priority.toInt.toNat
        ∧ ∃ ip port, text.Names endpoint.addr ip port
          ∧ text.Names (MediumSession.iceCandidateAddr text candidate) ip port)
      endpoints nodes := by
    have hzip := mapM_eq_ok_iff.mp hnodes
    have hmem : ∀ e ∈ endpoints.zipIdx, e.1 ∈ endpoints := fun e he =>
      List.mem_of_getElem? (List.mem_zipIdx_iff_getElem?.mp he)
    rw [← List.zipIdx_map_fst 0 endpoints, List.forall₂_map_left_iff]
    refine ((List.forall₂_and_left _ _).mpr ⟨hmem, hzip⟩).imp fun e candidate he => ?_
    obtain ⟨ip, port, hnames⟩ := names e.1 he.1
    obtain ⟨hkind, hpriority, haddr⟩ := nodeCandidate_names inverse he.2 hnames
    exact ⟨hkind, hpriority, ip, port, hnames, haddr⟩
  have hnode : ∀ candidate ∈ nodes, candidate.kind = .host ∨ candidate.kind = .srflx := by
    intro candidate hmem
    obtain ⟨endpoint, -, hkind, -⟩ := exists_mem_of_forall₂ hown hmem
    cases hcandidate : candidate.kind with
    | host => exact .inl rfl
    | srflx => exact .inr rfl
    | relay => exact absurd hcandidate hkind
  have hrelay : ∀ candidate ∈ relays, ¬(candidate.kind = .host ∨ candidate.kind = .srflx) := by
    intro candidate hmem
    obtain ⟨addr, -, haddr⟩ := exists_mem_of_forall₂ (mapM_eq_ok_iff.mp hrelays) hmem
    rw [kind_of_relayCandidate haddr]
    decide
  rw [hice, List.filter_append, List.filter_eq_self.mpr (by simpa using hnode),
    List.filter_eq_nil_iff.mpr (by simpa using hrelay), List.append_nil]
  exact hown.imp fun _ _ h => h.2

/-- Once a node has registered, the candidates of a grant for it, but for the relay, are its
endpoints in their order, with their priorities, and a client reads the same IP addresses and
ports in them. -/
theorem ice_addresses_survive {codec : TokenCodec} {localIps : List IpAddr} {cfg : NodeConfig}
    {start : Registry} {requests log : List RegisterNodeRequest} {settings : SessionSettings}
    {request : SessionOpenRequest} {draw : GrantDraw} {grant : SessionOpenGrant}
    (inverse : text.Inverse) (addrs : cfg.HasIpAddrs text)
    (run : requests.foldl Registry.register (start, []) = (settings.registry, log))
    (registered : Registry.latest log cfg.nodeId = some (cfg.buildRegistration text localIps))
    (issued : issueSessionGrant codec text draw settings request = .ok grant)
    (node : grant.nodeId = cfg.nodeId) :
    NodeConfig.FirstOfEach (cfg.rankedIceAddrs text localIps)
        (cfg.buildIceUdpEndpoints text localIps)
      ∧ (∀ endpoint ∈ cfg.buildIceUdpEndpoints text localIps,
        ∀ r ∈ cfg.rankedIceAddrs text localIps, r.1 = endpoint.addr → r.2 ≤ endpoint.priority)
      ∧ List.Forall₂ (fun endpoint candidate =>
          (candidate.priority.toNat : Int) = endpoint.priority.toInt
          ∧ ∃ ip port, text.Names endpoint.addr ip port
            ∧ text.Names (MediumSession.iceCandidateAddr text candidate) ip port)
        (cfg.buildIceUdpEndpoints text localIps)
        ((iceCandidates grant.authorization.ice).filter
          fun c => c.kind = .host ∨ c.kind = .srflx) := by
  have hfirst : NodeConfig.FirstOfEach (cfg.rankedIceAddrs text localIps)
      (cfg.buildIceUdpEndpoints text localIps) := by
    rw [NodeConfig.buildIceUdpEndpoints_eq]
    exact NodeConfig.firstOfEach_pushIceEndpoints _
  refine ⟨hfirst, fun endpoint hmem r hr haddr => ?_, ?_⟩
  · exact NodeConfig.le_of_find? NodeConfig.rankedIceAddrs_pairwise
      (hfirst.first endpoint hmem) hr haddr
  · -- the endpoints of the route are those of the node
    obtain ⟨sequence, hrows⟩ := Registry.rowsOf_latest run registered
    have hice := buildIceGrant_of_issued issued
    rw [node, Registry.endpointsOfKind_iceUdp hrows] at hice
    have hnames := buildIceGrant_names inverse hice fun endpoint hmem => by
      obtain ⟨e, he, rfl⟩ := List.mem_map.mp hmem
      exact NodeConfig.names_of_mem_buildIceUdpEndpoints inverse addrs he
    rw [List.forall₂_map_left_iff] at hnames
    have hown : ∀ endpoint ∈ cfg.buildIceUdpEndpoints text localIps,
        endpoint ∈ cfg.buildIceUdpEndpoints text localIps := fun _ h => h
    refine ((List.forall₂_and_left _ _).mpr ⟨hown, hnames⟩).imp fun endpoint candidate h => ?_
    obtain ⟨hmem, hpriority, haddr⟩ := h
    rw [hpriority]
    exact ⟨NodeConfig.priority_of_mem_buildIceUdpEndpoints hmem, haddr⟩

/-! ### Addresses as the standard library writes them -/

theorem notMem_toString {c : Char} (hc : c.isDigit = false) (n : Nat) :
    c ∉ (toString n).toList := by
  intro hmem
  rw [Str.isDigit_toString hmem] at hc
  cases hc

theorem stripPrefix_toString {pattern : String} {c : Char} {cs : List Char}
    (hpattern : pattern.toList = c :: cs) (hc : c.isDigit = false) (n : Nat) (rest : String) :
    Str.stripPrefix pattern (toString n ++ rest) = none := by
  cases h : Str.stripPrefix pattern (toString n ++ rest) with
  | none => rfl
  | some s =>
    have heq := congrArg String.toList (Str.stripPrefix_eq_some_iff.mp h)
    rw [String.toList_append, String.toList_append, hpattern] at heq
    cases hdigits : (toString n).toList with
    | nil => exact absurd hdigits (Str.toString_ne_nil n)
    | cons d digits =>
      rw [hdigits] at heq
      have hd : d.isDigit = true := Str.isDigit_toString (hdigits ▸ List.mem_cons_self)
      rw [(List.cons.inj heq).1, hc] at hd
      cases hd

theorem parseOctet_octet (ip : UInt32) (i : Nat) :
    parseOctet (toString (IpAddr.octet ip i)) = some (IpAddr.octet ip i) := by
  have hle : IpAddr.octet ip i ≤ 255 := Nat.le_of_lt_succ (Nat.mod_lt _ (by decide))
  rw [parseOctet, Str.parseUnsigned_toString hle]
  simp [Except.toOption]

theorem parseDottedQuad_dottedQuad (ip : UInt32) : parseDottedQuad (dottedQuad ip) = some ip := by
  have hsplit : ∀ (n : Nat) (rest : String),
      Str.splitOnce '.' (toString n ++ "." ++ rest) = some (toString n, rest) :=
    fun n rest => Str.splitOnce_append (notMem_toString (by decide) n) rest
  have hlt : ip.toNat < 2 ^ 32 := ip.toNat_lt
  have hoctets : ((IpAddr.octet ip 0 * 256 + IpAddr.octet ip 1) * 256 + IpAddr.octet ip 2) * 256
      + IpAddr.octet ip 3 = ip.toNat := by
    simp only [IpAddr.octet]
    omega
  unfold parseDottedQuad dottedQuad
  simp only [hsplit, parseOctet_octet, Option.bind_eq_bind, Option.bind_some, Option.pure_def]
  rw [hoctets, UInt32.ofNat_toNat]

theorem notMem_dottedQuad {c : Char} (hc : c.isDigit = false) (hdot : c ≠ '.') (ip : UInt32) :
    c ∉ (dottedQuad ip).toList := by
  have hsep : c ∉ ".".toList := by simpa using hdot
  simp only [dottedQuad, String.toList_append, List.mem_append, notMem_toString hc, hsep, or_self,
    not_false_eq_true]

theorem stripPrefix_dottedQuad {pattern : String} {c : Char} {cs : List Char}
    (hpattern : pattern.toList = c :: cs) (hc : c.isDigit = false) (ip : UInt32) (rest : String) :
    Str.stripPrefix pattern (dottedQuad ip ++ rest) = none := by
  rw [dottedQuad, String.append_assoc, String.append_assoc]
  exact stripPrefix_toString hpattern hc _ _

theorem dottedIp_display (ip : IpAddr) : dottedIp (dottedDisplay ip) = some ip := by
  unfold dottedIp dottedDisplay
  cases ip with
  | v4 ip =>
    have hnone : Str.stripPrefix "::" (dottedQuad ip ++ "") = none :=
      stripPrefix_dottedQuad rfl (by decide) ip ""
    rw [String.append_empty] at hnone
    dsimp only
    rw [hnone]
    dsimp only
    rw [parseDottedQuad_dottedQuad, Option.map_some]
  | v6 ip =>
    dsimp only
    rw [Str.stripPrefix_eq_some_iff.mpr rfl]
    dsimp only
    rw [Str.parseUnsigned_toString (Nat.le_sub_one_of_lt ip.isLt)]
    simp [Except.toOption]

theorem dottedText_inverse : dottedText.Inverse := by
  have hport : ∀ port : UInt16,
      (Str.parseUnsigned 65535 (toString port.toNat)).toOption = some port.toNat := by
    intro port
    rw [Str.parseUnsigned_toString (Nat.le_of_lt_succ port.toNat_lt)]
    rfl
  refine ⟨dottedIp_display, fun ip port => ?_, fun ip port => ?_⟩
  · have hnone : Str.stripPrefix "[" (dottedQuad ip ++ (":" ++ toString port.toNat)) = none :=
      stripPrefix_dottedQuad rfl (by decide) _ _
    have hsplit : Str.splitOnce ':' (dottedQuad ip ++ ":" ++ toString port.toNat)
        = some (dottedQuad ip, toString port.toNat) :=
      Str.splitOnce_append (notMem_dottedQuad (by decide) (by decide) ip) _
    have hip : dottedIp (dottedQuad ip) = some (.v4 ip) := dottedIp_display (.v4 ip)
    rw [← String.append_assoc] at hnone
    simp only [dottedText, dottedDisplay]
    rw [dottedSocketAddr, hnone]
    dsimp only
    rw [hsplit, Option.bind_some, dottedSocketAddr.build, hip, hport]
    simp
  · have hnotMem : ']' ∉ ("::" ++ toString ip.toNat).toList := by
      rw [String.toList_append, List.mem_append, not_or]
      exact ⟨by decide, notMem_toString (by decide) ip.toNat⟩
    have hsplit : Str.splitOnce ']'
          ("::" ++ toString ip.toNat ++ "]" ++ (":" ++ toString port.toNat))
        = some ("::" ++ toString ip.toNat, ":" ++ toString port.toNat) :=
      Str.splitOnce_append hnotMem _
    have hip : dottedIp ("::" ++ toString ip.toNat) = some (.v6 ip) := dottedIp_display (.v6 ip)
    have htext : "[" ++ ("::" ++ toString ip.toNat) ++ "]:" ++ toString port.toNat
        = "[" ++ ("::" ++ toString ip.toNat ++ "]" ++ (":" ++ toString port.toNat)) := by
      simp [← String.toList_inj]
    simp only [dottedText, dottedDisplay]
    rw [dottedSocketAddr, htext, Str.stripPrefix_eq_some_iff.mpr rfl]
    dsimp only
    rw [hsplit, Option.bind_some, Str.stripPrefix_eq_some_iff.mpr rfl, Option.bind_some,
      dottedSocketAddr.build, hip, hport]
    simp

/-- A node with two addresses of its own, the second of them twice, and a public address. -/
def dottedConfig : NodeConfig :=
  { sampleConfig with
    bindAddr := "0.0.0.0:17001"
    iceBindAddr := "0.0.0.0:17002"
    publicAddr := some "[::5]:17001"
    icePublicAddr := none
    iceHostAddrs := ["192.0.2.1:17002", "[::7]:17002", "[::7]:17002"] }

/-- The addresses that the node finds: `::7` and `10.0.0.9`. -/
def dottedIps : List IpAddr := [.v6 7, .v4 167772169]

def dottedRegistration : RegisterNodeRequest := dottedConfig.buildRegistration dottedText dottedIps

def dottedSettings : SessionSettings :=
  { sampleSettings with
    registry := (Registry.empty.registerNode dottedRegistration).2
    iceRelayAddr := some "192.0.2.2:7001" }

theorem ice_addresses_survive_sample :
    ∃ grant, issueSessionGrant sampleTokenCodec dottedText sampleDraw dottedSettings
        ⟨"svc_web", "device-1", some "node-1"⟩ = .ok grant
      ∧ dottedConfig.buildIceUdpEndpoints dottedText dottedIps
        = [⟨.iceUdp, 1, "192.0.2.1:17002", 300⟩, ⟨.iceUdp, 1, "[::7]:17002", 300⟩,
          ⟨.iceUdp, 1, "10.0.0.9:17002", 250⟩, ⟨.iceUdp, 1, "[::5]:17002", 100⟩]
      ∧ ((iceCandidates grant.authorization.ice).filter
        fun c => c.kind = .host ∨ c.kind = .srflx).length = 4 := by
  have haddrs : dottedConfig.HasIpAddrs dottedText := by
    have hhosts : ∀ addr ∈ ["192.0.2.1:17002", "[::7]:17002", "[::7]:17002"],
        ∃ ip port, dottedText.Names addr ip port := by
      simp only [List.forall_mem_cons]
      refine ⟨⟨_, _, .v4 3221225985 17002, ?_, rfl, rfl⟩, ⟨_, _, .v6 7 17002 0 0, ?_, rfl, rfl⟩,
        ⟨_, _, .v6 7 17002 0 0, ?_, rfl, rfl⟩, by simp⟩ <;> decide +kernel
    refine ⟨hhosts, by simp [dottedConfig], fun _ addr haddr => ?_, by simp [dottedConfig]⟩
    cases haddr
    refine ⟨⟨_, _, .v6 5 17001 0 0, ?_, rfl, rfl⟩, ?_⟩ <;> decide +kernel
  have hregistered : (Registry.empty.registerNode dottedRegistration).1 = .ok () := by
    decide +kernel
  have hrun : [dottedRegistration].foldl Registry.register (Registry.empty, [])
      = (dottedSettings.registry, [dottedRegistration]) := by
    rw [List.foldl_cons, List.foldl_nil, Registry.register_of_ok hregistered]
    rfl
  have hlatest : Registry.latest [dottedRegistration] dottedConfig.nodeId
      = some dottedRegistration := rfl
  have hissued : ((issueSessionGrant sampleTokenCodec dottedText sampleDraw dottedSettings
      ⟨"svc_web", "device-1", some "node-1"⟩).map SessionOpenGrant.nodeId).toOption
      = some "node-1" := by
    decide +kernel
  have hendpoints : dottedConfig.buildIceUdpEndpoints dottedText dottedIps
      = [⟨.iceUdp, 1, "192.0.2.1:17002", 300⟩, ⟨.iceUdp, 1, "[::7]:17002", 300⟩,
        ⟨.iceUdp, 1, "10.0.0.9:17002", 250⟩, ⟨.iceUdp, 1, "[::5]:17002", 100⟩] := by
    decide +kernel
  cases hgrant : issueSessionGrant sampleTokenCodec dottedText sampleDraw dottedSettings
      ⟨"svc_web", "device-1", some "node-1"⟩ with
  | error error =>
    rw [hgrant] at hissued
    cases hissued
  | ok grant =>
    rw [hgrant] at hissued
    obtain ⟨-, -, hcandidates⟩ := ice_addresses_survive dottedText_inverse haddrs hrun hlatest
      hgrant (Option.some.inj hissued)
    rw [hendpoints] at hcandidates
    exact ⟨grant, rfl, hendpoints, hcandidates.length_eq.symm⟩

end MediumOverlay
