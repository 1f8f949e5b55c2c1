import MediumOverlay.ControlPlane.Sessions

/-!
# Routes and the tables

A route is read off a join of the tables, in the order of the endpoints.  Each query
finds the best proxy of a node with the service, and the best of those where there
are several nodes (`routeRow_eq_some_iff`).  So it is the proxy that the catalogue
shows for SSH, and a node has a route exactly if it has a proxy.

A node registers again and again.  Its endpoints get new ids each time, and between
nodes the id decides where the priorities are equal.  A route stays where it was
under such a registration exactly if there is no tie (`route_kept_iff`).
-/

namespace MediumOverlay

open Table

namespace Registry

/-! ## The best proxy of a node -/

def proxies (db : Registry) (nodeId : String) : List EndpointRow :=
  (db.rowsOf nodeId).endpoints.filter EndpointRow.isTcpProxy

def bestProxy (db : Registry) (nodeId : String) : Option EndpointRow :=
  (orderBy EndpointRow.rank (db.proxies nodeId)).head?

variable {db : Registry} {nodeId : String} {endpoint : EndpointRow}

theorem mem_proxies :
    endpoint ∈ db.proxies nodeId
      ↔ endpoint ∈ db.endpoints.rows ∧ endpoint.nodeId = nodeId ∧ endpoint.isTcpProxy = true := by
  rw [proxies, rowsOf, List.mem_filter, List.mem_filter, decide_eq_true_eq, and_assoc]

theorem bestProxy_eq_some_iff :
    db.bestProxy nodeId = some endpoint ↔ endpoint ∈ db.proxies nodeId
      ∧ ∀ other ∈ db.proxies nodeId, endpoint.rank ≤ other.rank :=
  head?_orderBy ((db.rank_nodup nodeId).sublist (List.filter_sublist.map _))

theorem exists_bestProxy_iff :
    (∃ endpoint, db.bestProxy nodeId = some endpoint)
      ↔ ∃ endpoint, endpoint ∈ db.proxies nodeId := by
  constructor
  · rintro ⟨endpoint, h⟩
    exact ⟨endpoint, (bestProxy_eq_some_iff.mp h).1⟩
  · rintro ⟨endpoint, h⟩
    rw [← (orderBy_perm EndpointRow.rank _).mem_iff] at h
    exact ⟨_, List.head?_eq_some_head (List.ne_nil_of_mem h)⟩

/-! ## The row of a route -/

variable {x : ServiceRow × EndpointRow}

theorem mem_joined :
    x ∈ db.joined ↔ x.1 ∈ db.services.rows ∧ x.2 ∈ db.endpoints.rows ∧ x.2.nodeId = x.1.nodeId := by
  rw [joined, List.mem_filter, List.mem_product, decide_eq_true_eq, and_assoc]

variable {wanted : ServiceRow → Bool}

/-- A query for one service id has no two rows of one rank. -/
theorem route_rank_nodup (db : Registry) (serviceId : String)
    (hid : ∀ service, wanted service = true → service.id = serviceId) :
    ((db.joined.filter fun x => wanted x.1 && x.2.isTcpProxy).map fun x => x.2.rank).Nodup := by
  refine List.Nodup.map_on ?_
    (((db.services.nodup.of_map.product db.endpoints.nodup.of_map).filter _).filter _)
  rintro ⟨service, endpoint⟩ hx ⟨service', endpoint'⟩ hx' hrank
  obtain ⟨hjoined, hwanted⟩ := List.mem_filter.mp hx
  obtain ⟨hjoined', hwanted'⟩ := List.mem_filter.mp hx'
  obtain ⟨hservice, hendpoint, hnode⟩ := mem_joined.mp hjoined
  obtain ⟨hservice', hendpoint', hnode'⟩ := mem_joined.mp hjoined'
  obtain rfl : endpoint = endpoint' :=
    List.inj_on_of_nodup_map db.endpoints.nodup hendpoint hendpoint'
      (Prod.mk.inj (toLex.injective hrank)).2
  simp only [Bool.and_eq_true] at hwanted hwanted'
  have hkey : service.key = service'.key := by
    rw [ServiceRow.key, ServiceRow.key, ← hnode, ← hnode', hid _ hwanted.1, hid _ hwanted'.1]
  exact congrArg (·, endpoint) (List.inj_on_of_nodup_map db.services.nodup hservice hservice' hkey)

variable {service : ServiceRow}

/-- The row of a route is a service with the best proxy of its node, and no other
node with the service has a better one. -/
theorem routeRow_eq_some_iff (serviceId : String)
    (hid : ∀ service, wanted service = true → service.id = serviceId) :
    db.routeRow wanted = some (service, endpoint) ↔
      service ∈ db.services.rows ∧ wanted service = true
        ∧ db.bestProxy service.nodeId = some endpoint
        ∧ ∀ other ∈ db.services.rows, wanted other = true →
          ∀ rival ∈ db.bestProxy other.nodeId, endpoint.rank ≤ rival.rank := by
  rw [routeRow, head?_orderBy (db.route_rank_nodup serviceId hid)]
  simp only [List.mem_filter, mem_joined, Bool.and_eq_true, Prod.forall]
  constructor
  · rintro ⟨⟨⟨hservice, hendpoint, hnode⟩, hwanted, hproxy⟩, hleast⟩
    refine ⟨hservice, hwanted, bestProxy_eq_some_iff.mpr ⟨?_, ?_⟩, ?_⟩
    · exact mem_proxies.mpr ⟨hendpoint, hnode, hproxy⟩
    · intro other hother
      obtain ⟨hmem, hown, hproxy'⟩ := mem_proxies.mp hother
      exact hleast service other ⟨⟨hservice, hmem, hown⟩, hwanted, hproxy'⟩
    · intro other hother hwanted' rival hrival
      obtain ⟨hmem, hown, hproxy'⟩ := mem_proxies.mp (bestProxy_eq_some_iff.mp hrival).1
      exact hleast other rival ⟨⟨hother, hmem, hown⟩, hwanted', hproxy'⟩
  · rintro ⟨hservice, hwanted, hbest, hleast⟩
    obtain ⟨hendpoint, hnode, hproxy⟩ := mem_proxies.mp (bestProxy_eq_some_iff.mp hbest).1
    refine ⟨⟨⟨hservice, hendpoint, hnode⟩, hwanted, hproxy⟩, ?_⟩
    rintro other rival ⟨⟨hother, hmem, hown⟩, hwanted', hproxy'⟩
    have hrival : rival ∈ db.proxies other.nodeId := mem_proxies.mpr ⟨hmem, hown, hproxy'⟩
    obtain ⟨best, hbest'⟩ := exists_bestProxy_iff.mpr ⟨rival, hrival⟩
    exact (hleast other hother hwanted' best hbest').trans
      ((bestProxy_eq_some_iff.mp hbest').2 rival hrival)

variable {found : ServiceRoute}

theorem route_eq_ok_iff {row : Option (ServiceRow × EndpointRow)} :
    db.route row = .ok found ↔ ∃ service endpoint, row = some (service, endpoint)
      ∧ found = ⟨service.nodeId, endpoint.addr, db.endpointsOfKind service.nodeId "ice_udp",
        service.userName⟩ := by
  cases row with
  | none => simp [route]
  | some row => simp [route, eq_comm, Prod.ext_iff]

variable {serviceId : String}

/-- The row of `resolve_service_route`. -/
theorem serviceRow_eq_some_iff :
    db.routeRow (fun s => s.id = serviceId) = some (service, endpoint) ↔
      service ∈ db.services.rows ∧ service.id = serviceId
        ∧ db.bestProxy service.nodeId = some endpoint
        ∧ ∀ other ∈ db.services.rows, other.id = serviceId →
          ∀ rival ∈ db.bestProxy other.nodeId, endpoint.rank ≤ rival.rank := by
  rw [routeRow_eq_some_iff serviceId (by simp)]
  simp only [decide_eq_true_eq]

/-- The route of a node goes to its best proxy. -/
theorem resolveNodeServiceRoute_of_mem (h : service ∈ db.services.rows)
    (hbest : db.bestProxy service.nodeId = some endpoint) :
    db.resolveNodeServiceRoute service.nodeId service.id
      = .ok ⟨service.nodeId, endpoint.addr, db.endpointsOfKind service.nodeId "ice_udp",
        service.userName⟩ := by
  have hrow : db.routeRow (fun s => s.nodeId = service.nodeId ∧ s.id = service.id)
      = some (service, endpoint) := by
    refine (routeRow_eq_some_iff service.id (by simp)).mpr
      ⟨h, by simp, hbest, ?_⟩
    intro other _ hwanted rival hrival
    simp only [decide_eq_true_eq] at hwanted
    rw [hwanted.1, hbest] at hrival
    rw [Option.some.inj hrival]
  rw [resolveNodeServiceRoute, hrow, route]

/-- Without a proxy there is no route. -/
theorem bestProxy_of_resolveNodeServiceRoute
    (h : db.resolveNodeServiceRoute nodeId serviceId = .ok found) :
    ∃ endpoint, db.bestProxy nodeId = some endpoint := by
  unfold resolveNodeServiceRoute at h
  cases hrow : db.routeRow fun s => s.nodeId = nodeId ∧ s.id = serviceId with
  | none =>
    rw [hrow] at h
    cases h
  | some row =>
    obtain ⟨-, hwanted, hbest, -⟩ :=
      (routeRow_eq_some_iff serviceId (by simp)).mp hrow
    simp only [decide_eq_true_eq] at hwanted
    exact ⟨row.2, hwanted.1 ▸ hbest⟩

/-! ## The catalogue and the routes -/

theorem mem_of_sshRow (h : db.sshRow nodeId = some (service, endpoint)) :
    service ∈ db.services.rows ∧ service.nodeId = nodeId ∧ db.bestProxy nodeId = some endpoint := by
  rw [sshRow_eq] at h
  obtain ⟨service', hservice, hrest⟩ := Option.bind_eq_some_iff.mp h
  obtain ⟨endpoint', hendpoint, heq⟩ := Option.map_eq_some_iff.mp hrest
  obtain ⟨rfl, rfl⟩ := Prod.mk.inj heq
  have hmem := (orderBy_perm _ _).mem_iff.mp (List.mem_of_head? hservice)
  obtain ⟨hrows, hnode⟩ := List.mem_filter.mp (List.mem_of_mem_filter hmem)
  exact ⟨hrows, by simpa using hnode, hendpoint⟩

theorem device_ssh {node : NodeRow} {record : DeviceRecord} {ssh : SshEndpoint}
    (h : db.device node = .ok record) (hssh : record.ssh = some ssh) :
    ∃ service endpoint, db.sshRow node.id = some (service, endpoint)
      ∧ service.id = ssh.serviceId ∧ service.userName = some ssh.user
      ∧ splitAddr endpoint.addr = .ok (ssh.host, ssh.port) := by
  unfold device at h
  cases hservices : db.listNodeServices node.id with
  | error error => simp [hservices] at h
  | ok services =>
    cases hrow : db.sshRow node.id with
    | none =>
      simp only [hservices, hrow, sshEndpoint, Except.ok.injEq] at h
      subst h
      cases hssh
    | some row =>
      obtain ⟨service, endpoint⟩ := row
      refine ⟨service, endpoint, rfl, ?_⟩
      cases huser : service.userName with
      | none =>
        simp only [hservices, hrow, sshEndpoint, huser, Except.ok.injEq] at h
        subst h
        cases hssh
      | some userName =>
        cases hsplit : splitAddr endpoint.addr with
        | error error => simp [hservices, hrow, sshEndpoint, huser, hsplit] at h
        | ok parts =>
          obtain ⟨host, port⟩ := parts
          simp only [hservices, hrow, sshEndpoint, huser, hsplit, Except.ok.injEq] at h
          subst h
          cases hssh
          exact ⟨rfl, rfl, rfl⟩

/-- A service in a record has a row. -/
theorem exists_row_of_listNodeServices {services : List PublishedService}
    (h : db.listNodeServices nodeId = .ok services) {published : PublishedService}
    (hmem : published ∈ services) :
    ∃ service ∈ db.services.rows, service.nodeId = nodeId ∧ service.id = published.id := by
  rw [listNodeServices, mapM_eq_ok_iff] at h
  obtain ⟨service, hservice, hok⟩ := exists_mem_of_forall₂ h hmem
  obtain ⟨hrows, hnode⟩ := List.mem_filter.mp ((orderBy_perm _ _).mem_iff.mp hservice)
  refine ⟨service, hrows, by simpa using hnode, ?_⟩
  unfold publishedService at hok
  split at hok
  · cases hok
  · cases hok
    rfl

/-- The SSH endpoint of a device is that of the route to its SSH service.  There is a
route to a service of a device exactly if the device has a proxy. -/
theorem catalogue_route {db : Registry} {catalog : DeviceCatalogResponse}
    (listed : db.listDevices = .ok catalog) {device : DeviceRecord}
    (hdevice : device ∈ catalog.devices) :
    (∀ ssh, device.ssh = some ssh →
      ∃ found, db.resolveNodeServiceRoute device.id ssh.serviceId = .ok found
        ∧ found.nodeId = device.id ∧ found.userName = some ssh.user
        ∧ splitAddr found.tcpAddr = .ok (ssh.host, ssh.port))
      ∧ ∀ published ∈ device.services,
        (∃ found, db.resolveNodeServiceRoute device.id published.id = .ok found)
          ↔ ∃ endpoint ∈ db.endpoints.rows, endpoint.nodeId = device.id
            ∧ endpoint.kind = "tcp_proxy" ∧ endpoint.schemaVersion = 1 := by
  rw [listDevices_eq_ok_iff] at listed
  obtain ⟨node, -, hok⟩ := exists_mem_of_forall₂ listed hdevice
  obtain ⟨hid, -, hservices⟩ := device_ok hok
  rw [hid]
  constructor
  · intro ssh hssh
    obtain ⟨service, endpoint, hrow, hservice, huser, hsplit⟩ := device_ssh hok hssh
    obtain ⟨hmem, hnode, hbest⟩ := mem_of_sshRow hrow
    have hroute := resolveNodeServiceRoute_of_mem hmem (hnode ▸ hbest)
    rw [hnode, hservice] at hroute
    exact ⟨_, hroute, rfl, huser, hsplit⟩
  · intro published hpublished
    obtain ⟨service, hmem, hnode, hservice⟩ := exists_row_of_listNodeServices hservices hpublished
    have hproxy : (∃ endpoint, db.bestProxy node.id = some endpoint)
        ↔ ∃ endpoint ∈ db.endpoints.rows, endpoint.nodeId = node.id
          ∧ endpoint.kind = "tcp_proxy" ∧ endpoint.schemaVersion = 1 := by
      simp only [exists_bestProxy_iff, mem_proxies, EndpointRow.isTcpProxy, decide_eq_true_eq]
    rw [← hproxy]
    constructor
    · rintro ⟨found, hfound⟩
      exact bestProxy_of_resolveNodeServiceRoute hfound
    · rintro ⟨endpoint, hbest⟩
      have hroute := resolveNodeServiceRoute_of_mem hmem (hnode ▸ hbest)
      rw [hnode, hservice] at hroute
      exact ⟨_, hroute⟩

theorem catalogue_route_node :
    ∃ catalog device ssh,
      (empty.registerNode (sampleRequest "node-1" "192.0.2.1:17001")).2.listDevices = .ok catalog
      ∧ device ∈ catalog.devices ∧ device.ssh = some ssh
      ∧ ∃ found,
        (empty.registerNode
            (sampleRequest "node-1" "192.0.2.1:17001")).2.resolveNodeServiceRoute
          device.id ssh.serviceId = .ok found
        ∧ found.nodeId = device.id ∧ found.userName = some ssh.user
        ∧ splitAddr found.tcpAddr = .ok (ssh.host, ssh.port) := by
  have hlisted : (empty.registerNode (sampleRequest "node-1" "192.0.2.1:17001")).2.listDevices
      = .ok ⟨[⟨"node-1", "label of node-1", some ⟨"svc_ssh", "192.0.2.1", 17001, "overlay"⟩,
          [⟨"svc_ssh", .ssh, 1, some "shell", "127.0.0.1:22", some "overlay"⟩,
            ⟨"svc_web", .https, 1, none, "127.0.0.1:8080", none⟩]⟩]⟩ := by
    decide +kernel
  exact ⟨_, _, _, hlisted, List.mem_cons_self, rfl,
    (catalogue_route hlisted List.mem_cons_self).1 _ rfl⟩

/-! ## Heartbeats -/

/-- The request of a node says again what the tables hold of the node.  The endpoints
stand in the order in which they were inserted. -/
structure Heartbeat (db : Registry) (request : RegisterNodeRequest) : Prop where
  node : (⟨request.nodeId, request.nodeLabel⟩ : NodeRow) ∈ db.nodes.rows
  endpoints : List.Forall₂ (fun row endpoint => row = endpointRow row.id request.nodeId endpoint)
    (orderBy EndpointRow.id (db.rowsOf request.nodeId).endpoints) request.endpoints
  services : (request.services.map (serviceRow request.nodeId)).Perm
    (db.rowsOf request.nodeId).services

/-- The rows that `resolve_service_route` chooses from. -/
def candidates (db : Registry) (serviceId : String) : List (ServiceRow × EndpointRow) :=
  db.joined.filter fun x => x.1.id = serviceId && x.2.isTcpProxy

theorem mem_candidates :
    x ∈ db.candidates serviceId
      ↔ x.1 ∈ db.services.rows ∧ x.1.id = serviceId ∧ x.2 ∈ db.proxies x.1.nodeId := by
  rw [candidates, List.mem_filter, mem_joined, mem_proxies, Bool.and_eq_true, decide_eq_true_eq]
  tauto

theorem bestProxy_congr {db' : Registry} (h : db'.rowsOf nodeId = db.rowsOf nodeId) :
    db'.bestProxy nodeId = db.bestProxy nodeId := by
  rw [bestProxy, bestProxy, proxies, proxies, h]

variable {rival : EndpointRow}

theorem priority_le_of_rank_le (h : endpoint.rank ≤ rival.rank) :
    rival.priority ≤ endpoint.priority := by
  simp only [EndpointRow.rank, Prod.Lex.toLex_le_toLex] at h
  omega

theorem priority_lt_of_rank_le (h : endpoint.rank ≤ rival.rank) (hid : rival.id < endpoint.id) :
    rival.priority < endpoint.priority := by
  simp only [EndpointRow.rank, Prod.Lex.toLex_le_toLex] at h
  omega

theorem rank_le_of_priority_lt (h : rival.priority < endpoint.priority) :
    endpoint.rank ≤ rival.rank := by
  simp only [EndpointRow.rank, Prod.Lex.toLex_le_toLex]
  omega

/-- A larger id is a worse rank. -/
theorem rank_le_of_id_le {id : Nat} (h : endpoint.id ≤ id) :
    endpoint.rank ≤ { endpoint with id := id }.rank := by
  rw [EndpointRow.rank, EndpointRow.rank, Prod.Lex.toLex_le_toLex]
  exact .inr ⟨rfl, h⟩

theorem id_le_of_bestProxy (h : db.bestProxy nodeId = some endpoint) : endpoint.id ≤ db.sequence :=
  db.id_le endpoint (mem_proxies.mp (bestProxy_eq_some_iff.mp h).1).1

namespace Heartbeat

variable {db db' : Registry} {request : RegisterNodeRequest}

theorem replaces (h : Heartbeat db request) : Replaces db (db.registerNode request).2 request := by
  rcases registerNode_cases db request with ⟨-, hreplaces, -⟩ | ⟨-, -, hdup⟩
  · exact hreplaces
  · -- the stored services have one key each
    refine absurd ?_ hdup
    have hids := ((h.services.map ServiceRow.id).nodup_iff).mpr (db.service_ids_nodup _)
    simpa [Function.comp_def, serviceRow] using hids

theorem mem_services (h : Heartbeat db request) (hreplaces : Replaces db db' request)
    (service : ServiceRow) : service ∈ db'.services.rows ↔ service ∈ db.services.rows := by
  have hrows : ∀ db : Registry, service ∈ db.services.rows
      ↔ service ∈ (db.rowsOf service.nodeId).services := by
    simp [rowsOf]
  rw [hrows, hrows db]
  by_cases hid : service.nodeId = request.nodeId
  · rw [hid, hreplaces.own]
    exact h.services.mem_iff
  · rw [hreplaces.other _ hid]

/-- The new rows of the endpoints are the old ones with new ids. -/
theorem endpoints_eq (h : Heartbeat db request) (hreplaces : Replaces db db' request) :
    (db'.rowsOf request.nodeId).endpoints
      = (orderBy EndpointRow.id (db.rowsOf request.nodeId).endpoints).zipIdx.map
        fun x => { x.1 with id := db.sequence + x.2 + 1 } := by
  rw [hreplaces.own, rowsFor]
  dsimp only
  have hlength := h.endpoints.length_eq
  refine List.ext_getElem (by simp [hlength]) fun i hi hi' => ?_
  simp only [List.length_mapIdx, List.length_map, List.length_zipIdx] at hi hi'
  simp only [List.getElem_mapIdx, List.getElem_map, List.getElem_zipIdx, Nat.zero_add]
  have hrow := h.endpoints.get hi' hi
  simp only [List.get_eq_getElem] at hrow
  rw [hrow]
  rfl

/-- The best proxy of the node is the one it was, with a new id. -/
theorem bestProxy_eq (h : Heartbeat db request) (hreplaces : Replaces db db' request) :
    ∃ best : Option (EndpointRow × Nat), db.bestProxy request.nodeId = best.map Prod.fst
      ∧ db'.bestProxy request.nodeId
        = best.map fun x => { x.1 with id := db.sequence + x.2 + 1 } := by
  let sorted := orderBy EndpointRow.id (db.rowsOf request.nodeId).endpoints
  let indexed := sorted.zipIdx.filter fun x => x.1.isTcpProxy
  have hnodup : ((db.rowsOf request.nodeId).endpoints.map EndpointRow.id).Nodup :=
    db.endpoints.nodup.sublist (List.filter_sublist.map _)
  -- the ids and the indexes of the sorted rows have one order
  have horder : ∀ x ∈ sorted.zipIdx, ∀ y ∈ sorted.zipIdx, x.1.id ≤ y.1.id ↔ x.2 ≤ y.2 := by
    have hlt := List.pairwise_map.mp (map_orderBy_pairwise hnodup)
    have hpairs : sorted.zipIdx.Pairwise fun x y => x.1.id < y.1.id ∧ x.2 < y.2 := by
      rw [List.pairwise_iff_getElem] at hlt ⊢
      intro i j hi hj hij
      simp only [List.length_zipIdx] at hi hj
      simp only [List.getElem_zipIdx]
      exact ⟨hlt i j hi hj hij, by omega⟩
    exact List.Pairwise.forall_of_forall_of_flip (fun x _ => by simp)
      (hpairs.imp fun h => by omega) (hpairs.imp fun h => by simp only [flip]; omega)
  have hold : db.bestProxy request.nodeId
      = (orderBy (fun x => x.1.rank) indexed).head?.map Prod.fst := by
    have hperm : (indexed.map Prod.fst).Perm (db.proxies request.nodeId) := by
      have hfst : indexed.map Prod.fst = sorted.filter EndpointRow.isTcpProxy := by
        rw [← List.zipIdx_map_fst 0 sorted, List.filter_map]
        simp [indexed, Function.comp_def]
      rw [hfst]
      exact (orderBy_perm _ _).filter _
    rw [bestProxy, ← orderBy_congr hperm ?_, orderBy_map (k := fun x => x.1.rank) (by simp),
      List.head?_map]
    exact (hperm.map _).nodup_iff.mpr
      ((db.rank_nodup request.nodeId).sublist (List.filter_sublist.map _))
  have hnew : db'.bestProxy request.nodeId = (orderBy (fun x => x.1.rank) indexed).head?.map
      fun x => { x.1 with id := db.sequence + x.2 + 1 } := by
    rw [bestProxy, proxies, h.endpoints_eq hreplaces, List.filter_map,
      orderBy_map (k := fun x => x.1.rank), List.head?_map]
    · rfl
    · intro x hx y hy
      have := horder x (List.mem_of_mem_filter hx) y (List.mem_of_mem_filter hy)
      simp only [EndpointRow.rank, Prod.Lex.toLex_le_toLex]
      omega
  exact ⟨_, hold, hnew⟩

variable {serviceId : String} {service : ServiceRow} {endpoint : EndpointRow}

/-- What another node says again does not move a route. -/
theorem routeRow_other (h : Heartbeat db request) (hreplaces : Replaces db db' request)
    (hrow : db.routeRow (fun s => s.id = serviceId) = some (service, endpoint))
    (hne : service.nodeId ≠ request.nodeId) :
    db'.routeRow (fun s => s.id = serviceId) = some (service, endpoint) := by
  obtain ⟨hmem, hid, hbest, hleast⟩ := serviceRow_eq_some_iff.mp hrow
  obtain ⟨best, hold, hnew⟩ := h.bestProxy_eq hreplaces
  have hservices := h.mem_services hreplaces
  refine serviceRow_eq_some_iff.mpr ⟨(hservices service).mpr hmem, hid, ?_, ?_⟩
  · rw [bestProxy_congr (hreplaces.other _ hne), hbest]
  · intro other hmem' hid' rival hrival
    have hbound := hleast other ((hservices other).mp hmem') hid'
    by_cases hsame : other.nodeId = request.nodeId
    · rw [hsame] at hrival hbound
      rw [hnew] at hrival
      obtain ⟨⟨rival, index⟩, rfl, rfl⟩ := Option.map_eq_some_iff.mp hrival
      have hsequence := id_le_of_bestProxy hold
      dsimp only at hsequence
      exact (hbound rival hold).trans (rank_le_of_id_le (by omega))
    · rw [bestProxy_congr (hreplaces.other _ hsame)] at hrival
      exact hbound rival hrival

/-- The node of a route has the best proxy for the service still, if what it says
again puts its proxy behind every other proxy of the same priority. -/
theorem routeRow_own_iff (h : Heartbeat db request) (hreplaces : Replaces db db' request)
    (hrow : db.routeRow (fun s => s.id = serviceId) = some (service, endpoint))
    (hown : service.nodeId = request.nodeId) :
    (∃ service' endpoint', db'.routeRow (fun s => s.id = serviceId) = some (service', endpoint')
        ∧ service'.nodeId = service.nodeId ∧ endpoint'.addr = endpoint.addr)
      ↔ ∀ rival ∈ db.candidates serviceId, rival.1.nodeId ≠ service.nodeId →
        ∃ own ∈ db.candidates serviceId, own.1.nodeId = service.nodeId
          ∧ rival.2.priority < own.2.priority := by
  obtain ⟨hmem, hid, hbest, -⟩ := serviceRow_eq_some_iff.mp hrow
  obtain ⟨hproxy, htop⟩ := bestProxy_eq_some_iff.mp hbest
  have hservices := h.mem_services hreplaces
  -- the proxy of the node behind the registration
  obtain ⟨id, hlt, hnew⟩ : ∃ id, db.sequence < id
      ∧ db'.bestProxy service.nodeId = some { endpoint with id := id } := by
    obtain ⟨best, hold, hnew⟩ := h.bestProxy_eq hreplaces
    rw [← hown] at hold hnew
    obtain ⟨⟨_, index⟩, rfl, rfl⟩ := Option.map_eq_some_iff.mp (hold.symm.trans hbest)
    exact ⟨_, by omega, hnew⟩
  simp only [serviceRow_eq_some_iff]
  constructor
  · rintro ⟨service', endpoint', ⟨-, -, hbest', hleast⟩, hnode, -⟩ rival hrival hne
    obtain ⟨hrival, hrivalId, hrivalProxy⟩ := mem_candidates.mp hrival
    obtain ⟨top, htopRival⟩ := exists_bestProxy_iff.mpr ⟨_, hrivalProxy⟩
    rw [hnode, hnew] at hbest'
    cases hbest'
    have hrank := hleast rival.1 ((hservices rival.1).mpr hrival) hrivalId top (by
      rw [bestProxy_congr (hreplaces.other _ (hown ▸ hne)), htopRival, Option.mem_some])
    have hbelow := priority_lt_of_rank_le hrank ((id_le_of_bestProxy htopRival).trans_lt hlt)
    have hle := priority_le_of_rank_le ((bestProxy_eq_some_iff.mp htopRival).2 _ hrivalProxy)
    exact ⟨(service, endpoint), mem_candidates.mpr ⟨hmem, hid, hproxy⟩, rfl, hle.trans_lt hbelow⟩
  · intro hstrict
    refine ⟨service, _, ⟨(hservices service).mpr hmem, hid, hnew, ?_⟩, rfl, rfl⟩
    intro other hmem' hid' rival hrival
    by_cases hsame : other.nodeId = service.nodeId
    · rw [hsame, hnew] at hrival
      rw [← Option.some.inj hrival]
    · rw [bestProxy_congr (hreplaces.other _ (hown ▸ hsame))] at hrival
      obtain ⟨own, howns, hownNode, hprio⟩ := hstrict (other, rival) (mem_candidates.mpr
        ⟨(hservices other).mp hmem', hid', (bestProxy_eq_some_iff.mp hrival).1⟩) hsame
      have hownProxy := (mem_candidates.mp howns).2.2
      rw [hownNode] at hownProxy
      have hle := priority_le_of_rank_le (htop _ hownProxy)
      exact rank_le_of_priority_lt (hprio.trans_le hle)

end Heartbeat

/-- A node says again what it has said before.  The route to a service stays where it
was exactly if the node is another one, or no proxy of another node with the service
has the priority of the node's best. -/
theorem route_kept_iff {db : Registry} {serviceId : String} {found : ServiceRoute}
    (resolved : db.resolveServiceRoute serviceId = .ok found) {request : RegisterNodeRequest}
    (heartbeat : Heartbeat db request) :
    (∃ found', (db.registerNode request).2.resolveServiceRoute serviceId = .ok found'
        ∧ found'.nodeId = found.nodeId ∧ found'.tcpAddr = found.tcpAddr)
      ↔ (request.nodeId = found.nodeId →
        ∀ rival ∈ db.candidates serviceId, rival.1.nodeId ≠ found.nodeId →
          ∃ own ∈ db.candidates serviceId, own.1.nodeId = found.nodeId
            ∧ rival.2.priority < own.2.priority) := by
  have hreplaces := heartbeat.replaces
  generalize (db.registerNode request).2 = db' at hreplaces ⊢
  obtain ⟨service, endpoint, hrow, rfl⟩ := route_eq_ok_iff.mp resolved
  have hroutes : (∃ found', db'.resolveServiceRoute serviceId = .ok found'
        ∧ found'.nodeId = service.nodeId ∧ found'.tcpAddr = endpoint.addr)
      ↔ ∃ service' endpoint',
        db'.routeRow (fun s => s.id = serviceId) = some (service', endpoint')
          ∧ service'.nodeId = service.nodeId ∧ endpoint'.addr = endpoint.addr := by
    simp only [resolveServiceRoute, route_eq_ok_iff]
    constructor
    · rintro ⟨_, ⟨service', endpoint', hrow', rfl⟩, hsame⟩
      exact ⟨service', endpoint', hrow', hsame⟩
    · rintro ⟨service', endpoint', hrow', hsame⟩
      exact ⟨_, ⟨service', endpoint', hrow', rfl⟩, hsame⟩
  rw [hroutes]
  by_cases hown : request.nodeId = service.nodeId
  · rw [heartbeat.routeRow_own_iff hreplaces hrow hown.symm]
    exact ⟨fun h _ => h, fun h => h hown⟩
  · refine iff_of_true ?_ fun h => absurd h hown
    exact ⟨service, endpoint, heartbeat.routeRow_other hreplaces hrow (Ne.symm hown), rfl, rfl⟩

/-- Two nodes with a service, each behind a proxy of priority 10. -/
def sampleRegistry : Registry :=
  ((empty.registerNode (sampleRequest "node-1" "192.0.2.1:17001")).2.registerNode
    (sampleRequest "node-2" "192.0.2.2:17001")).2

theorem heartbeat_sample (nodeId addr : String)
    (h : (nodeId, addr) ∈ [("node-1", "192.0.2.1:17001"), ("node-2", "192.0.2.2:17001")]) :
    Heartbeat sampleRegistry (sampleRequest nodeId addr) := by
  simp only [List.mem_cons, List.not_mem_nil, or_false, Prod.mk.injEq] at h
  rcases h with ⟨rfl, rfl⟩ | ⟨rfl, rfl⟩ <;> constructor <;> decide +kernel

theorem route_kept_iff_node :
    ∃ found, sampleRegistry.resolveServiceRoute "svc_web" = .ok found
      ∧ ∃ found', (sampleRegistry.registerNode (sampleRequest "node-2"
          "192.0.2.2:17001")).2.resolveServiceRoute "svc_web" = .ok found'
        ∧ found'.nodeId = found.nodeId ∧ found'.tcpAddr = found.tcpAddr := by
  have hresolved : sampleRegistry.resolveServiceRoute "svc_web"
      = .ok ⟨"node-1", "192.0.2.1:17001", [], none⟩ := by
    decide +kernel
  refine ⟨_, hresolved, (route_kept_iff hresolved (heartbeat_sample _ _ (by simp))).mpr ?_⟩
  exact fun h => absurd h (by decide)

/-- The first of two nodes says again what it has said, and the route goes to the
second. -/
theorem route_moved :
    Heartbeat sampleRegistry (sampleRequest "node-1" "192.0.2.1:17001")
      ∧ sampleRegistry.resolveServiceRoute "svc_web"
        = .ok ⟨"node-1", "192.0.2.1:17001", [], none⟩
      ∧ (sampleRegistry.registerNode (sampleRequest "node-1" "192.0.2.1:17001")).1 = .ok ()
      ∧ (sampleRegistry.registerNode (sampleRequest "node-1"
          "192.0.2.1:17001")).2.resolveServiceRoute "svc_web"
        = .ok ⟨"node-2", "192.0.2.2:17001", [], none⟩ := by
  refine ⟨heartbeat_sample _ _ (by simp), ?_⟩
  decide +kernel

end Registry

end MediumOverlay
