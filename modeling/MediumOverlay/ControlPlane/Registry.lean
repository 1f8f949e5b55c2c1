import MediumOverlay.Lib.Str
import MediumOverlay.Lib.Table
import MediumOverlay.Protocol.Messages
import MediumOverlay.Transport.Packet

/-!
# The registry

The control plane keeps what nodes register in three tables.  A registration
replaces everything the node had, in one transaction.  `list_devices` makes the
catalogue from the tables with one query for the nodes and two for each of them.

`Registry` carries the constraints of the schema: primary keys are those of its
tables, an endpoint or service belongs to a node, and an endpoint has an id that
was given out.  `Replaces` says what a registration that succeeds has done, and
`registerNode_cases` that one that fails has done nothing and when it fails.

What the catalogue says of a node is read off the rows of that node
(`device_congr`).
-/

namespace MediumOverlay

open Table

/-! ## The schema -/

/-- A row of `nodes`. -/
structure NodeRow where
  id : String
  label : String
deriving DecidableEq, Repr

/-- A row of `node_endpoints`. -/
structure EndpointRow where
  id : Nat
  nodeId : String
  kind : String
  schemaVersion : Int
  addr : String
  priority : Int
deriving DecidableEq, Repr

/-- A row of `node_services`. -/
structure ServiceRow where
  id : String
  nodeId : String
  kind : String
  schemaVersion : Int
  target : String
  userName : Option String
  label : Option String
deriving DecidableEq, Repr

/-- `ne.kind = 'tcp_proxy' and ne.schema_version = 1`. -/
def EndpointRow.isTcpProxy (row : EndpointRow) : Bool :=
  row.kind = "tcp_proxy" ∧ row.schemaVersion = 1

/-- `order by ne.priority desc, ne.id asc`. -/
def EndpointRow.rank (row : EndpointRow) : Int ×ₗ Nat := toLex (-row.priority, row.id)

/-- `ns.kind = 'ssh' and ns.schema_version = 1`. -/
def ServiceRow.isSsh (row : ServiceRow) : Bool := row.kind = "ssh" ∧ row.schemaVersion = 1

/-- The primary key of `node_services`. -/
def ServiceRow.key (row : ServiceRow) : String × String := (row.nodeId, row.id)

/-- An error of the database. -/
inductive SqlError where
  | uniqueServices
  | foreignKey
  | rowNotFound
deriving DecidableEq, Repr

/-- The text of an error. -/
def SqlError.display : SqlError → String
  | .uniqueServices => "error returned from database: (code: 1555) UNIQUE constraint failed: "
      ++ "node_services.node_id, node_services.id"
  | .foreignKey => "error returned from database: (code: 787) FOREIGN KEY constraint failed"
  | .rowNotFound => "no rows returned by a query that expected to return at least one row"

/-- The three tables, with the constraints of the schema. -/
structure Registry where
  nodes : Table NodeRow.id
  endpoints : Table EndpointRow.id
  /-- The last id that an endpoint was given. -/
  sequence : Nat
  services : Table ServiceRow.key
  id_le : ∀ e ∈ endpoints.rows, e.id ≤ sequence
  endpoint_node : ∀ e ∈ endpoints.rows, e.nodeId ∈ nodes.rows.map NodeRow.id
  service_node : ∀ s ∈ services.rows, s.nodeId ∈ nodes.rows.map NodeRow.id

namespace Registry

/-- A new database. -/
def empty : Registry where
  nodes := .empty
  endpoints := .empty
  sequence := 0
  services := .empty
  id_le := by simp [Table.empty]
  endpoint_node := by simp [Table.empty]
  service_node := by simp [Table.empty]

/-! ## Registration -/

/-- `insert into nodes … on conflict(id) do update`. -/
def upsertNode (row : NodeRow) : Statement Registry SqlError := fun db =>
  .ok { db with
    nodes := db.nodes.upsert row
    endpoint_node := fun e he => mem_keys_upsert.mpr (.inl (db.endpoint_node e he))
    service_node := fun s hs => mem_keys_upsert.mpr (.inl (db.service_node s hs)) }

/-- `delete from node_endpoints where node_id = ?1`. -/
def deleteEndpoints (nodeId : String) : Statement Registry SqlError := fun db =>
  .ok { db with
    endpoints := db.endpoints.deleteWhere fun e => e.nodeId = nodeId
    id_le := fun e he => db.id_le e (List.mem_of_mem_filter he)
    endpoint_node := fun e he => db.endpoint_node e (List.mem_of_mem_filter he) }

/-- `delete from node_services where node_id = ?1`. -/
def deleteServices (nodeId : String) : Statement Registry SqlError := fun db =>
  .ok { db with
    services := db.services.deleteWhere fun s => s.nodeId = nodeId
    service_node := fun s hs => db.service_node s (List.mem_of_mem_filter hs) }

/-- The row of an endpoint. -/
def endpointRow (id : Nat) (nodeId : String) (endpoint : NodeEndpoint) : EndpointRow :=
  ⟨id, nodeId, endpoint.kind.asStr, endpoint.schemaVersion.toNat, endpoint.addr,
    endpoint.priority.toInt⟩

/-- The row of a service. -/
def serviceRow (nodeId : String) (service : PublishedService) : ServiceRow :=
  ⟨service.id, nodeId, service.kind.asStr, service.schemaVersion.toNat, service.target,
    service.userName, service.label⟩

/-- `insert into node_endpoints`.  The id is the next one. -/
def insertEndpoint (nodeId : String) (endpoint : NodeEndpoint) : Statement Registry SqlError :=
  fun db =>
    if h : nodeId ∈ db.nodes.rows.map NodeRow.id then
      .ok { db with
        endpoints := db.endpoints.push (endpointRow (db.sequence + 1) nodeId endpoint) (by
          intro hmem
          obtain ⟨e, he, hid⟩ := List.mem_map.mp hmem
          have hle := db.id_le e he
          simp only [endpointRow] at hid
          omega)
        sequence := db.sequence + 1
        id_le := by
          intro e he
          rcases List.mem_append.mp he with he | he
          · exact (db.id_le e he).trans (Nat.le_succ _)
          · rw [List.mem_singleton.mp he]
            exact Nat.le_refl _
        endpoint_node := by
          intro e he
          rcases List.mem_append.mp he with he | he
          · exact db.endpoint_node e he
          · rw [List.mem_singleton.mp he]
            exact h }
    else .error .foreignKey

/-- `insert into node_services`. -/
def insertService (nodeId : String) (service : PublishedService) : Statement Registry SqlError :=
  fun db =>
    match hi : db.services.insert (serviceRow nodeId service) with
    | none => .error .uniqueServices
    | some services =>
      if h : nodeId ∈ db.nodes.rows.map NodeRow.id then
        .ok { db with
          services := services
          service_node := by
            intro s hs
            rw [insert_eq_some hi] at hs
            rcases List.mem_append.mp hs with hs | hs
            · exact db.service_node s hs
            · rw [List.mem_singleton.mp hs]
              exact h }
      else .error .foreignKey

/-- The statements of `register_node`. -/
def registration (request : RegisterNodeRequest) : List (Statement Registry SqlError) :=
  [upsertNode ⟨request.nodeId, request.nodeLabel⟩, deleteEndpoints request.nodeId,
      deleteServices request.nodeId]
    ++ request.endpoints.map (insertEndpoint request.nodeId)
    ++ request.services.map (insertService request.nodeId)

/-- `register_node`. -/
def registerNode (db : Registry) (request : RegisterNodeRequest) :
    Except SqlError Unit × Registry :=
  transact (registration request) db

/-! ## The catalogue -/

/-- `parse_service_kind`. -/
def parseServiceKind (raw : String) : Except AnyhowError ServiceKind :=
  if raw = "http" then .ok .http
  else if raw = "https" then .ok .https
  else if raw = "ssh" then .ok .ssh
  else .error (.message ("unsupported service kind " ++ raw))

/-- `split_addr`. -/
def splitAddr (addr : String) : Except AnyhowError (String × Nat) :=
  match Str.rsplitOnce ':' addr with
  | none => .error (.message ("invalid addr " ++ addr))
  | some (host, port) =>
    match Str.parseUnsigned 65535 port with
    | .error error => .error (.message error)
    | .ok port => .ok (host, port)

/-- The record of a row of `node_services`. -/
def publishedService (row : ServiceRow) : Except AnyhowError PublishedService :=
  match parseServiceKind row.kind with
  | .error error => .error error
  | .ok kind =>
    .ok ⟨row.id, kind, .ofNat (row.schemaVersion % 2 ^ 32).toNat, row.label, row.target,
      row.userName⟩

/-- `list_node_services`. -/
def listNodeServices (db : Registry) (nodeId : String) :
    Except AnyhowError (List PublishedService) :=
  (orderBy ServiceRow.id (db.services.rows.filter (·.nodeId = nodeId))).mapM publishedService

/-- `node_services ns join node_endpoints ne on ne.node_id = ns.node_id`. -/
def joined (db : Registry) : List (ServiceRow × EndpointRow) :=
  (db.services.rows ×ˢ db.endpoints.rows).filter fun x => x.2.nodeId = x.1.nodeId

/-- The query for the SSH service of a node, with
`order by ne.priority desc, ne.id asc, ns.id asc`. -/
def sshRow (db : Registry) (nodeId : String) : Option (ServiceRow × EndpointRow) :=
  (orderBy (fun x => toLex (x.2.rank, x.1.id)) (db.joined.filter fun x =>
    x.1.nodeId = nodeId ∧ x.1.isSsh ∧ x.2.isTcpProxy)).head?

/-- The SSH endpoint of a row of that query. -/
def sshEndpoint (row : Option (ServiceRow × EndpointRow)) :
    Except AnyhowError (Option SshEndpoint) :=
  match row with
  | none => .ok none
  | some (service, endpoint) =>
    match service.userName with
    | none => .ok none
    | some userName =>
      match splitAddr endpoint.addr with
      | .error error => .error error
      | .ok (host, port) => .ok (some ⟨service.id, host, port, userName⟩)

/-- One turn of the loop of `list_devices`. -/
def device (db : Registry) (node : NodeRow) : Except AnyhowError DeviceRecord :=
  match db.listNodeServices node.id with
  | .error error => .error error
  | .ok services =>
    match sshEndpoint (db.sshRow node.id) with
    | .error error => .error error
    | .ok ssh => .ok ⟨node.id, node.label, ssh, services⟩

/-- `list_devices`. -/
def listDevices (db : Registry) : Except AnyhowError DeviceCatalogResponse :=
  ((orderBy NodeRow.id db.nodes.rows).mapM db.device).map .mk

/-! ## What a registration does -/

/-- The rows of a node in the three tables. -/
structure NodeRows where
  nodes : List NodeRow
  endpoints : List EndpointRow
  services : List ServiceRow
deriving DecidableEq, Repr

def rowsOf (db : Registry) (nodeId : String) : NodeRows where
  nodes := db.nodes.rows.filter fun n => n.id = nodeId
  endpoints := db.endpoints.rows.filter fun e => e.nodeId = nodeId
  services := db.services.rows.filter fun s => s.nodeId = nodeId

/-- The rows a request makes, with the endpoints numbered behind `sequence`. -/
def rowsFor (sequence : Nat) (request : RegisterNodeRequest) : NodeRows where
  nodes := [⟨request.nodeId, request.nodeLabel⟩]
  endpoints := request.endpoints.mapIdx fun i e => endpointRow (sequence + i + 1) request.nodeId e
  services := request.services.map (serviceRow request.nodeId)

/-- The rows of the node are those of the request, and the rows of every other node
are as they were. -/
structure Replaces (db db' : Registry) (request : RegisterNodeRequest) : Prop where
  own : db'.rowsOf request.nodeId = rowsFor db.sequence request
  other : ∀ nodeId, nodeId ≠ request.nodeId → db'.rowsOf nodeId = db.rowsOf nodeId

variable {nodeId : String} {db : Registry}

theorem insertEndpoint_ok (endpoint : NodeEndpoint) (h : nodeId ∈ db.nodes.rows.map NodeRow.id) :
    ∃ db', insertEndpoint nodeId endpoint db = .ok db' ∧ db'.nodes = db.nodes
      ∧ db'.services = db.services ∧ db'.sequence = db.sequence + 1
      ∧ db'.endpoints.rows
        = db.endpoints.rows ++ [endpointRow (db.sequence + 1) nodeId endpoint] := by
  simp only [insertEndpoint, h, dif_pos]
  exact ⟨_, rfl, rfl, rfl, rfl, rfl⟩

theorem execute_insertEndpoints (endpoints : List NodeEndpoint)
    (h : nodeId ∈ db.nodes.rows.map NodeRow.id) :
    ∃ db', execute (endpoints.map (insertEndpoint nodeId)) db = (.ok (), db')
      ∧ db'.nodes = db.nodes ∧ db'.services = db.services
      ∧ db'.endpoints.rows = db.endpoints.rows
        ++ endpoints.mapIdx fun i e => endpointRow (db.sequence + i + 1) nodeId e := by
  induction endpoints generalizing db with
  | nil => exact ⟨db, rfl, rfl, rfl, by simp⟩
  | cons endpoint endpoints ih =>
    obtain ⟨mid, hok, hnodes, hservices, hsequence, hrows⟩ := insertEndpoint_ok endpoint h
    have hmid : nodeId ∈ mid.nodes.rows.map NodeRow.id := hnodes ▸ h
    obtain ⟨db', hrun, hnodes', hservices', hrows'⟩ := ih hmid
    refine ⟨db', ?_, hnodes'.trans hnodes, hservices'.trans hservices, ?_⟩
    · rw [List.map_cons, execute, hok]
      exact hrun
    · rw [hrows', hrows, hsequence, List.mapIdx_cons, List.append_assoc, List.singleton_append]
      simp only [Nat.add_zero, Nat.add_assoc, Nat.add_comm 1]

theorem insertService_cases (service : PublishedService)
    (h : nodeId ∈ db.nodes.rows.map NodeRow.id) :
    (∃ db', insertService nodeId service db = .ok db' ∧ db'.nodes = db.nodes
        ∧ db'.endpoints = db.endpoints
        ∧ db'.services.rows = db.services.rows ++ [serviceRow nodeId service])
      ∨ (insertService nodeId service db = .error .uniqueServices
        ∧ (serviceRow nodeId service).key ∈ db.services.rows.map ServiceRow.key) := by
  unfold insertService
  split
  next hi => exact .inr ⟨rfl, insert_eq_none_iff.mp hi⟩
  next services hi =>
    rw [dif_pos h]
    exact .inl ⟨_, rfl, rfl, rfl, insert_eq_some hi⟩

/-- The services are inserted, or two of them have one key. -/
theorem execute_insertServices (services : List PublishedService)
    (h : nodeId ∈ db.nodes.rows.map NodeRow.id) :
    (∃ db', execute (services.map (insertService nodeId)) db = (.ok (), db')
        ∧ db'.nodes = db.nodes ∧ db'.endpoints = db.endpoints
        ∧ db'.services.rows = db.services.rows ++ services.map (serviceRow nodeId))
      ∨ ((execute (services.map (insertService nodeId)) db).1 = .error .uniqueServices
        ∧ ¬((db.services.rows ++ services.map (serviceRow nodeId)).map ServiceRow.key).Nodup) := by
  induction services generalizing db with
  | nil => exact .inl ⟨db, rfl, rfl, rfl, by simp⟩
  | cons service services ih =>
    rw [List.map_cons, List.map_cons, execute]
    rcases insertService_cases service h with ⟨mid, hok, hnodes, hendpoints, hrows⟩ | ⟨herr, hkey⟩
    · rw [hok]
      have happend : db.services.rows ++ serviceRow nodeId service :: services.map
          (serviceRow nodeId) = mid.services.rows ++ services.map (serviceRow nodeId) := by
        rw [hrows, List.append_assoc, List.singleton_append]
      rw [happend, ← hnodes, ← hendpoints]
      exact ih (hnodes ▸ h)
    · rw [herr]
      refine .inr ⟨rfl, fun hnodup => ?_⟩
      rw [List.map_append, List.map_cons] at hnodup
      exact List.disjoint_of_nodup_append hnodup hkey List.mem_cons_self

theorem filter_own {ρ : Type} {l : List ρ} {f : ρ → String} (h : ∀ r ∈ l, f r = nodeId)
    (id : String) : l.filter (fun r => f r = id) = if id = nodeId then l else [] := by
  split
  next hid => exact List.filter_eq_self.mpr fun r hr => by simp [h r hr, hid]
  next hid => exact List.filter_eq_nil_iff.mpr fun r hr => by simp [h r hr, Ne.symm hid]

theorem filter_delete {ρ : Type} {l : List ρ} {f : ρ → String} (nodeId id : String) :
    (l.filter fun r => !decide (f r = nodeId)).filter (fun r => f r = id)
      = if id = nodeId then [] else l.filter fun r => f r = id := by
  rw [List.filter_filter]
  split
  next h =>
    refine List.filter_eq_nil_iff.mpr fun r _ => ?_
    simp [h]
  next h =>
    refine List.filter_congr fun r _ => ?_
    by_cases hr : f r = id <;> simp [hr, h]

theorem key_nodup_iff (nodeId : String) {old : List ServiceRow}
    (hold : (old.map ServiceRow.key).Nodup) (hother : ∀ s ∈ old, s.nodeId ≠ nodeId)
    (services : List PublishedService) :
    ((old ++ services.map (serviceRow nodeId)).map ServiceRow.key).Nodup
      ↔ (services.map PublishedService.id).Nodup := by
  have hkeys : (services.map (serviceRow nodeId)).map ServiceRow.key
      = (services.map PublishedService.id).map fun id => (nodeId, id) := by
    simp [Function.comp_def, ServiceRow.key, serviceRow]
  rw [List.map_append, hkeys, List.nodup_append', List.nodup_map_iff (Prod.mk_right_injective _)]
  constructor
  · exact fun h => h.2.1
  · intro h
    refine ⟨hold, h, ?_⟩
    intro k hk hnew
    obtain ⟨s, hs, rfl⟩ := List.mem_map.mp hk
    obtain ⟨id, -, hid⟩ := List.mem_map.mp hnew
    exact hother s hs (Prod.mk.inj hid).1.symm

variable {db' : Registry} {request : RegisterNodeRequest}

theorem replaces_of_rows (nodes : db'.nodes = db.nodes.upsert ⟨request.nodeId, request.nodeLabel⟩)
    (endpoints : db'.endpoints.rows
      = db.endpoints.rows.filter (fun e => !decide (e.nodeId = request.nodeId))
        ++ (rowsFor db.sequence request).endpoints)
    (services : db'.services.rows
      = db.services.rows.filter (fun s => !decide (s.nodeId = request.nodeId))
        ++ (rowsFor db.sequence request).services) : Replaces db db' request := by
  have hendpoints : ∀ e ∈ (rowsFor db.sequence request).endpoints, e.nodeId = request.nodeId := by
    intro e he
    obtain ⟨i, _, rfl⟩ := List.mem_mapIdx.mp he
    rfl
  have hservices : ∀ s ∈ (rowsFor db.sequence request).services, s.nodeId = request.nodeId := by
    intro s hs
    obtain ⟨service, _, rfl⟩ := List.mem_map.mp hs
    rfl
  constructor
  · have hself : (db.nodes.upsert ⟨request.nodeId, request.nodeLabel⟩).rows.filter
        (fun n => n.id = request.nodeId) = (rowsFor db.sequence request).nodes :=
      filter_upsert_self db.nodes ⟨request.nodeId, request.nodeLabel⟩
    rw [rowsOf, nodes, hself, endpoints, services, List.filter_append, List.filter_append,
      filter_delete, filter_delete, filter_own hendpoints, filter_own hservices]
    simp only [if_true, List.nil_append]
  · intro nodeId hne
    have hframe : (db.nodes.upsert ⟨request.nodeId, request.nodeLabel⟩).rows.filter
        (fun n => n.id = nodeId) = db.nodes.rows.filter fun n => n.id = nodeId :=
      filter_upsert_of_ne db.nodes hne
    rw [rowsOf, rowsOf, nodes, hframe, endpoints, services, List.filter_append,
      List.filter_append, filter_delete, filter_delete, filter_own hendpoints,
      filter_own hservices]
    simp only [if_neg hne, List.append_nil]

/-- A registration replaces the rows of its node, or fails and changes nothing.  It
fails if two of its services have one id. -/
theorem registerNode_cases (db : Registry) (request : RegisterNodeRequest) :
    ((db.registerNode request).1 = .ok () ∧ Replaces db (db.registerNode request).2 request
        ∧ (request.services.map PublishedService.id).Nodup)
      ∨ ((db.registerNode request).1 = .error .uniqueServices ∧ (db.registerNode request).2 = db
        ∧ ¬(request.services.map PublishedService.id).Nodup) := by
  -- the state behind the first three statements
  obtain ⟨cleared, hcleared, hnodes, hsequence, hendpoints, hservices⟩ : ∃ cleared : Registry,
      execute [upsertNode ⟨request.nodeId, request.nodeLabel⟩, deleteEndpoints request.nodeId,
        deleteServices request.nodeId] db = (.ok (), cleared)
      ∧ cleared.nodes = db.nodes.upsert ⟨request.nodeId, request.nodeLabel⟩
      ∧ cleared.sequence = db.sequence
      ∧ cleared.endpoints.rows
        = db.endpoints.rows.filter (fun e => !decide (e.nodeId = request.nodeId))
      ∧ cleared.services.rows
        = db.services.rows.filter (fun s => !decide (s.nodeId = request.nodeId)) :=
    ⟨_, rfl, rfl, rfl, rfl, rfl⟩
  have hnode : request.nodeId ∈ cleared.nodes.rows.map NodeRow.id := by
    rw [hnodes]
    exact mem_keys_upsert.mpr (.inr rfl)
  obtain ⟨mid, hmid, hnodes', hservices', hendpoints'⟩ :=
    execute_insertEndpoints request.endpoints hnode
  have hnodup := key_nodup_iff request.nodeId cleared.services.nodup (by rw [hservices]; simp)
    request.services
  have hrun : execute (registration request) db
      = execute (request.services.map (insertService request.nodeId)) mid := by
    rw [registration, execute_append, execute_append, hcleared]
    dsimp only
    rw [hmid]
  unfold registerNode transact
  rw [hrun]
  rcases execute_insertServices request.services (hnodes' ▸ hnode) with
    ⟨db', hok, hnodes'', hendpoints'', hservices''⟩ | ⟨herr, hdup⟩
  · rw [hok]
    rw [hservices'] at hservices''
    rw [hsequence] at hendpoints'
    refine .inl ⟨rfl, ?_, hnodup.mp (hservices'' ▸ db'.services.nodup)⟩
    exact replaces_of_rows ((hnodes''.trans hnodes').trans hnodes)
      (by rw [hendpoints'', hendpoints', hendpoints, rowsFor])
      (by rw [hservices'', hservices, rowsFor])
  · refine .inr ?_
    rw [hservices', hnodup] at hdup
    cases hrest : execute (request.services.map (insertService request.nodeId)) mid with
    | mk result rest =>
      rw [hrest] at herr
      obtain rfl : result = .error .uniqueServices := herr
      exact ⟨rfl, rfl, hdup⟩

/-! ## Reading the catalogue -/

theorem service_ids_nodup (db : Registry) (nodeId : String) :
    ((db.rowsOf nodeId).services.map ServiceRow.id).Nodup := by
  refine List.Nodup.map_on ?_ (db.services.nodup.of_map.filter _)
  intro s hs s' hs' hid
  obtain ⟨hs, hnode⟩ := List.mem_filter.mp hs
  obtain ⟨hs', hnode'⟩ := List.mem_filter.mp hs'
  simp only [decide_eq_true_eq] at hnode hnode'
  refine List.inj_on_of_nodup_map db.services.nodup hs hs' ?_
  rw [ServiceRow.key, ServiceRow.key, hnode, hnode', hid]

theorem rank_nodup (db : Registry) (nodeId : String) :
    ((db.rowsOf nodeId).endpoints.map EndpointRow.rank).Nodup := by
  refine List.Nodup.map_on ?_ (db.endpoints.nodup.of_map.filter _)
  intro e he e' he' hrank
  refine List.inj_on_of_nodup_map db.endpoints.nodup (List.mem_of_mem_filter he)
    (List.mem_of_mem_filter he') ?_
  exact (Prod.mk.inj (toLex.injective hrank)).2

/-- The SSH service of a node is its first, with its best proxy. -/
theorem sshRow_eq (db : Registry) (nodeId : String) :
    db.sshRow nodeId =
      (orderBy ServiceRow.id ((db.rowsOf nodeId).services.filter ServiceRow.isSsh)).head?.bind
        fun service => (orderBy EndpointRow.rank
          ((db.rowsOf nodeId).endpoints.filter EndpointRow.isTcpProxy)).head?.map
            fun endpoint => (service, endpoint) := by
  have hrows : db.joined.filter (fun x =>
        x.1.nodeId = nodeId ∧ x.1.isSsh ∧ x.2.isTcpProxy)
      = (db.rowsOf nodeId).services.filter ServiceRow.isSsh
        ×ˢ (db.rowsOf nodeId).endpoints.filter EndpointRow.isTcpProxy := by
    rw [joined, List.filter_filter, rowsOf, List.filter_filter, List.filter_filter,
      ← filter_product]
    refine List.filter_congr fun x _ => ?_
    by_cases hid : x.1.nodeId = nodeId
    · cases x.1.isSsh <;> simp [hid, Bool.and_comm]
    · simp [hid]
  rw [sshRow, hrows]
  exact head?_orderBy_product ((db.service_ids_nodup nodeId).sublist (List.filter_sublist.map _))
    ((db.rank_nodup nodeId).sublist (List.filter_sublist.map _))

theorem listNodeServices_eq (db : Registry) (nodeId : String) :
    db.listNodeServices nodeId
      = (orderBy ServiceRow.id (db.rowsOf nodeId).services).mapM publishedService := rfl

variable {node : NodeRow}

/-- What the catalogue says of a node is read off the rows of the node. -/
theorem device_congr (h : db'.rowsOf node.id = db.rowsOf node.id) :
    db'.device node = db.device node := by
  rw [device, device, listNodeServices_eq, listNodeServices_eq, sshRow_eq, sshRow_eq, h]

theorem device_ok {record : DeviceRecord} (h : db.device node = .ok record) :
    record.id = node.id ∧ record.name = node.label
      ∧ db.listNodeServices node.id = .ok record.services := by
  unfold device at h
  cases hservices : db.listNodeServices node.id with
  | error error => simp [hservices] at h
  | ok services =>
    cases hssh : sshEndpoint (db.sshRow node.id) with
    | error error => simp [hservices, hssh] at h
    | ok ssh =>
      simp only [hservices, hssh, Except.ok.injEq] at h
      subst h
      exact ⟨rfl, rfl, rfl⟩

theorem listDevices_eq_ok_iff {catalog : DeviceCatalogResponse} :
    db.listDevices = .ok catalog ↔
      List.Forall₂ (fun node record => db.device node = .ok record)
        (orderBy NodeRow.id db.nodes.rows) catalog.devices := by
  rw [← mapM_eq_ok_iff, listDevices]
  cases (orderBy NodeRow.id db.nodes.rows).mapM db.device with
  | error error => simp [Except.map]
  | ok devices => simp [Except.map, DeviceCatalogResponse.ext_iff]

theorem catalog_ids {nodes : List NodeRow} {devices : List DeviceRecord}
    (h : List.Forall₂ (fun node record => db.device node = .ok record) nodes devices) :
    devices.map DeviceRecord.id = nodes.map NodeRow.id := by
  have hids : List.Forall₂ (· = ·) (nodes.map NodeRow.id) (devices.map DeviceRecord.id) := by
    rw [List.forall₂_map_left_iff, List.forall₂_map_right_iff]
    exact h.imp fun node record hdevice => (device_ok hdevice).1.symm
  rw [List.forall₂_eq_eq_eq] at hids
  exact hids.symm

@[simp]
theorem parseServiceKind_asStr (kind : ServiceKind) : parseServiceKind kind.asStr = .ok kind := by
  cases kind <;> rfl

/-- The catalogue gives back the services of a request. -/
@[simp]
theorem publishedService_serviceRow (nodeId : String) (service : PublishedService) :
    publishedService (serviceRow nodeId service) = .ok service := by
  have hlt := service.schemaVersion.toNat_lt
  have hversion : UInt32.ofNat ((service.schemaVersion.toNat : Int) % 2 ^ 32).toNat
      = service.schemaVersion := by
    rw [Int.emod_eq_of_lt (by omega) (by omega), Int.toNat_natCast, UInt32.ofNat_toNat]
  simp only [publishedService, serviceRow, parseServiceKind_asStr, hversion]

theorem listNodeServices_of_rows {services : List PublishedService}
    (h : (db.rowsOf nodeId).services = services.map (serviceRow nodeId)) :
    db.listNodeServices nodeId = .ok (orderBy PublishedService.id services) := by
  rw [listNodeServices_eq, h, orderBy_map (k := PublishedService.id) (by simp [serviceRow]),
    mapM_eq_ok_iff, List.forall₂_map_left_iff]
  simp [List.forall₂_same]

/-! ## Sequences of registrations -/

/-- A registration, with the log of those that succeeded. -/
def register (x : Registry × List RegisterNodeRequest) (request : RegisterNodeRequest) :
    Registry × List RegisterNodeRequest :=
  match x.1.registerNode request with
  | (.ok (), db) => (db, x.2 ++ [request])
  | (.error _, db) => (db, x.2)

variable {x : Registry × List RegisterNodeRequest}

theorem register_of_ok (h : (x.1.registerNode request).1 = .ok ()) :
    register x request = ((x.1.registerNode request).2, x.2 ++ [request]) := by
  unfold register
  split
  next heq => rw [heq]
  next heq =>
    rw [heq] at h
    cases h

theorem register_of_error {error : SqlError} (h : (x.1.registerNode request).1 = .error error) :
    register x request = ((x.1.registerNode request).2, x.2) := by
  unfold register
  split
  next heq =>
    rw [heq] at h
    cases h
  next heq => rw [heq]

/-- The last registration of a node in a log. -/
def latest (log : List RegisterNodeRequest) (nodeId : String) : Option RegisterNodeRequest :=
  (log.filter (·.nodeId = nodeId)).getLast?

/-- The tables hold the last registration of every node that has registered since a
state, and are otherwise as they were in that state. -/
def Shows (start db : Registry) (log : List RegisterNodeRequest) : Prop :=
  ∀ nodeId, match latest log nodeId with
    | none => db.rowsOf nodeId = start.rowsOf nodeId
    | some request => ∃ sequence, db.rowsOf nodeId = rowsFor sequence request

theorem rowsOf_empty (nodeId : String) : empty.rowsOf nodeId = ⟨[], [], []⟩ := rfl

theorem Shows.refl (start : Registry) : Shows start start [] := fun _ => rfl

theorem latest_append (log : List RegisterNodeRequest) (request : RegisterNodeRequest)
    (nodeId : String) :
    latest (log ++ [request]) nodeId
      = if nodeId = request.nodeId then some request else latest log nodeId := by
  rw [latest, latest, List.filter_append]
  by_cases h : request.nodeId = nodeId
  · simp [h]
  · simp [h, Ne.symm h]

variable {start : Registry}

theorem Shows.register (h : Shows start x.1 x.2) (request : RegisterNodeRequest) :
    Shows start (register x request).1 (register x request).2 := by
  rcases registerNode_cases x.1 request with ⟨hok, hreplaces, -⟩ | ⟨herr, hsame, -⟩
  · rw [register_of_ok hok]
    intro nodeId
    dsimp only
    rw [latest_append]
    by_cases hid : nodeId = request.nodeId
    · rw [if_pos hid, hid]
      exact ⟨x.1.sequence, hreplaces.own⟩
    · rw [if_neg hid, hreplaces.other nodeId hid]
      exact h nodeId
  · rw [register_of_error herr, hsame]
    exact h

theorem Shows.foldl (requests : List RegisterNodeRequest) (h : Shows start x.1 x.2) :
    Shows start (requests.foldl Registry.register x).1 (requests.foldl Registry.register x).2 := by
  induction requests generalizing x with
  | nil => exact h
  | cons request requests ih => exact ih (h.register request)

variable {log : List RegisterNodeRequest}

/-- The rows of a node are those of its last registration. -/
theorem rowsOf_latest {requests : List RegisterNodeRequest}
    (run : requests.foldl register (start, []) = (db, log)) (h : latest log nodeId = some request) :
    ∃ sequence, db.rowsOf nodeId = rowsFor sequence request := by
  have hshows := Shows.foldl requests (x := (start, [])) (Shows.refl start) nodeId
  rw [run, h] at hshows
  exact hshows

/-- A node is in its table once it has registered. -/
theorem Shows.mem_nodes_iff (h : Shows empty db log) :
    nodeId ∈ db.nodes.rows.map NodeRow.id ↔ ∃ request ∈ log, request.nodeId = nodeId := by
  have hrows := h nodeId
  have hmem : nodeId ∈ db.nodes.rows.map NodeRow.id ↔ (db.rowsOf nodeId).nodes ≠ [] := by
    simp [rowsOf, List.filter_eq_nil_iff]
  rw [hmem]
  cases hlatest : latest log nodeId with
  | none =>
    have hnil : log.filter (·.nodeId = nodeId) = [] := List.getLast?_eq_none_iff.mp hlatest
    simp only [hlatest] at hrows
    rw [hrows, rowsOf_empty]
    simpa [List.filter_eq_nil_iff] using hnil
  | some request =>
    obtain ⟨hmem, hid⟩ := List.mem_filter.mp (List.mem_of_getLast? hlatest)
    simp only [hlatest] at hrows
    obtain ⟨sequence, hrows⟩ := hrows
    rw [hrows]
    exact ⟨fun _ => ⟨request, hmem, by simpa using hid⟩, fun _ => List.cons_ne_nil _ _⟩

/-- The catalogue of a state that shows a log. -/
theorem Shows.listDevices (h : Shows empty db log) {catalog : DeviceCatalogResponse}
    (hok : db.listDevices = .ok catalog) :
    (catalog.devices.map DeviceRecord.id).Pairwise (· < ·)
      ∧ (∀ nodeId, nodeId ∈ catalog.devices.map DeviceRecord.id
          ↔ ∃ request ∈ log, request.nodeId = nodeId)
      ∧ ∀ record ∈ catalog.devices, ∃ request, latest log record.id = some request
        ∧ record.name = request.nodeLabel
        ∧ record.services = orderBy PublishedService.id request.services := by
  rw [listDevices_eq_ok_iff] at hok
  have hids := catalog_ids hok
  refine ⟨?_, fun nodeId => ?_, ?_⟩
  · rw [hids]
    exact (map_orderBy_pairwise db.nodes.nodup)
  · rw [hids, ((orderBy_perm NodeRow.id db.nodes.rows).map _).mem_iff, h.mem_nodes_iff]
  · intro record hrecord
    obtain ⟨node, hnode, hdevice⟩ := exists_mem_of_forall₂ hok hrecord
    obtain ⟨hid, hname, hservices⟩ := device_ok hdevice
    have hrows := h node.id
    have hmem : node ∈ (db.rowsOf node.id).nodes :=
      List.mem_filter.mpr ⟨(orderBy_perm _ _).mem_iff.mp hnode, by simp⟩
    cases hlatest : latest log node.id with
    | none =>
      simp only [hlatest] at hrows
      rw [hrows, rowsOf_empty] at hmem
      cases hmem
    | some request =>
      simp only [hlatest] at hrows
      obtain ⟨sequence, hrows⟩ := hrows
      have hlabel := List.mem_singleton.mp (hrows ▸ hmem)
      have hself : request.nodeId = node.id := by rw [hlabel]
      rw [listNodeServices_of_rows (by rw [hrows, rowsFor, hself])] at hservices
      refine ⟨request, by rw [hid, hlatest], ?_, (Except.ok.inj hservices).symm⟩
      rw [hname, hlabel]

/-- A request of a node with an SSH service behind a proxy. -/
def sampleRequest (nodeId addr : String) : RegisterNodeRequest where
  nodeId := nodeId
  nodeLabel := "label of " ++ nodeId
  endpoints := [⟨.tcpProxy, 1, addr, 10⟩]
  services := [⟨"svc_web", .https, 1, none, "127.0.0.1:8080", none⟩,
    ⟨"svc_ssh", .ssh, 1, some "shell", "127.0.0.1:22", some "overlay"⟩]

/-- The address that `list_devices` splits for the node of a request: that of the
first proxy of the highest priority, if the first SSH service names a user. -/
def sshAddr (request : RegisterNodeRequest) : Option String :=
  let services := request.services.filter fun s => s.kind = .ssh ∧ s.schemaVersion = 1
  let endpoints := request.endpoints.zipIdx.filter fun e =>
    e.1.kind = .tcpProxy ∧ e.1.schemaVersion = 1
  (orderBy PublishedService.id services).head?.bind fun service =>
    (orderBy (fun e : NodeEndpoint × Nat => toLex (-e.1.priority.toInt, e.2)) endpoints).head?.bind
      fun endpoint => service.userName.map fun _ => endpoint.1.addr

theorem version_eq_one_iff (version : UInt32) : ((version.toNat : Int) = 1) ↔ version = 1 := by
  rw [← UInt32.toNat_inj, UInt32.toNat_one]
  omega

theorem isSsh_serviceRow (nodeId : String) (service : PublishedService) :
    (serviceRow nodeId service).isSsh
      = decide (service.kind = .ssh ∧ service.schemaVersion = 1) := by
  have hkind : service.kind.asStr = "ssh" ↔ service.kind = .ssh := by
    cases service.kind <;> decide
  simp only [ServiceRow.isSsh, serviceRow, hkind, version_eq_one_iff]

theorem isTcpProxy_endpointRow (id : Nat) (nodeId : String) (endpoint : NodeEndpoint) :
    (endpointRow id nodeId endpoint).isTcpProxy
      = decide (endpoint.kind = .tcpProxy ∧ endpoint.schemaVersion = 1) := by
  have hkind : endpoint.kind.asStr = "tcp_proxy" ↔ endpoint.kind = .tcpProxy := by
    cases endpoint.kind <;> decide
  simp only [EndpointRow.isTcpProxy, endpointRow, hkind, version_eq_one_iff]

theorem head?_services (nodeId : String) (services : List PublishedService) :
    (orderBy ServiceRow.id ((services.map (serviceRow nodeId)).filter ServiceRow.isSsh)).head?
      = (orderBy PublishedService.id
          (services.filter fun s => s.kind = .ssh ∧ s.schemaVersion = 1)).head?.map
        (serviceRow nodeId) := by
  have hfilter : (ServiceRow.isSsh ∘ serviceRow nodeId)
      = fun s => decide (s.kind = .ssh ∧ s.schemaVersion = 1) := by
    funext s
    exact isSsh_serviceRow nodeId s
  rw [List.filter_map, hfilter, orderBy_map (k := PublishedService.id) (by simp [serviceRow]),
    List.head?_map]

theorem head?_endpoints (sequence : Nat) (nodeId : String) (endpoints : List NodeEndpoint) :
    (orderBy EndpointRow.rank ((endpoints.mapIdx fun i e =>
        endpointRow (sequence + i + 1) nodeId e).filter EndpointRow.isTcpProxy)).head?
      = (orderBy (fun e : NodeEndpoint × Nat => toLex (-e.1.priority.toInt, e.2))
          (endpoints.zipIdx.filter fun e => e.1.kind = .tcpProxy ∧ e.1.schemaVersion = 1)).head?.map
        fun e => endpointRow (sequence + e.2 + 1) nodeId e.1 := by
  have hfilter : (EndpointRow.isTcpProxy ∘ fun e : NodeEndpoint × Nat =>
      endpointRow (sequence + e.2 + 1) nodeId e.1)
      = fun e => decide (e.1.kind = .tcpProxy ∧ e.1.schemaVersion = 1) := by
    funext e
    exact isTcpProxy_endpointRow _ nodeId e.1
  rw [List.mapIdx_eq_zipIdx_map, List.filter_map, hfilter, orderBy_map
    (k := fun e : NodeEndpoint × Nat => toLex (-e.1.priority.toInt, e.2)) ?_, List.head?_map]
  intro a _ b _
  simp only [EndpointRow.rank, endpointRow, Prod.Lex.toLex_le_toLex]
  omega

/-- The row of a node that has just registered can be shown if its address can be
split. -/
theorem device_own_iff (h : Replaces db db' request) (hid : node.id = request.nodeId) :
    (∃ record, db'.device node = .ok record)
      ↔ ∀ addr ∈ sshAddr request, ∃ parts, splitAddr addr = .ok parts := by
  have hrow : db'.sshRow node.id = (orderBy PublishedService.id (request.services.filter fun s =>
        s.kind = .ssh ∧ s.schemaVersion = 1)).head?.bind fun service =>
      (orderBy (fun e : NodeEndpoint × Nat => toLex (-e.1.priority.toInt, e.2))
        (request.endpoints.zipIdx.filter fun e =>
          e.1.kind = .tcpProxy ∧ e.1.schemaVersion = 1)).head?.map fun e =>
        (serviceRow node.id service, endpointRow (db.sequence + e.2 + 1) node.id e.1) := by
    rw [sshRow_eq, hid, h.own, rowsFor, head?_services, head?_endpoints]
    simp [Function.comp_def, Option.bind_map]
  have hservices : db'.listNodeServices node.id
      = .ok (orderBy PublishedService.id request.services) :=
    listNodeServices_of_rows (by rw [hid, h.own, rowsFor])
  simp only [device, hservices, hrow, sshAddr]
  cases (orderBy PublishedService.id (request.services.filter fun s =>
      s.kind = .ssh ∧ s.schemaVersion = 1)).head? with
  | none => simp [sshEndpoint]
  | some service =>
    cases (orderBy (fun e : NodeEndpoint × Nat => toLex (-e.1.priority.toInt, e.2))
      (request.endpoints.zipIdx.filter fun e =>
        e.1.kind = .tcpProxy ∧ e.1.schemaVersion = 1)).head? with
    | none => simp [sshEndpoint]
    | some endpoint =>
      cases huser : service.userName with
      | none => simp [sshEndpoint, serviceRow, huser]
      | some user =>
        cases hsplit : splitAddr endpoint.1.addr with
        | error error => simp [sshEndpoint, serviceRow, endpointRow, huser, hsplit]
        | ok parts =>
          obtain ⟨host, port⟩ := parts
          simp [sshEndpoint, serviceRow, endpointRow, huser, hsplit]

theorem mem_nodes_of_rowsOf (h : db'.rowsOf node.id = db.rowsOf node.id) :
    node ∈ db'.nodes.rows ↔ node ∈ db.nodes.rows := by
  have hmem : ∀ db : Registry, node ∈ db.nodes.rows ↔ node ∈ (db.rowsOf node.id).nodes := by
    simp [rowsOf]
  rw [hmem, hmem, h]

/-- A registration does not change the order of the other nodes. -/
theorem Replaces.others (h : Replaces db db' request) :
    (orderBy NodeRow.id db'.nodes.rows).filter (fun n => n.id ≠ request.nodeId)
      = (orderBy NodeRow.id db.nodes.rows).filter fun n => n.id ≠ request.nodeId := by
  rw [filter_orderBy db'.nodes.nodup, filter_orderBy db.nodes.nodup]
  refine orderBy_congr ?_ (db'.nodes.nodup.sublist (List.filter_sublist.map _))
  rw [List.perm_ext_iff_of_nodup (db'.nodes.nodup.of_map.filter _) (db.nodes.nodup.of_map.filter _)]
  intro node
  simp only [List.mem_filter, decide_eq_true_eq, ne_eq]
  exact and_congr_left fun hne => mem_nodes_of_rowsOf (h.other node.id hne)

/-- The records of the other nodes are as they were. -/
theorem Replaces.other_devices (h : Replaces db db' request) {devices devices' : List DeviceRecord}
    (before : List.Forall₂ (fun node record => db.device node = .ok record)
      (orderBy NodeRow.id db.nodes.rows) devices)
    (after : List.Forall₂ (fun node record => db'.device node = .ok record)
      (orderBy NodeRow.id db'.nodes.rows) devices') :
    devices'.filter (fun d => d.id ≠ request.nodeId)
      = devices.filter fun d => d.id ≠ request.nodeId := by
  -- what a record of either catalogue has to do with its node
  let R : NodeRow → DeviceRecord → Prop := fun node record => record.id = node.id
    ∧ (node.id ≠ request.nodeId → db.device node = .ok record)
  have hbefore : List.Forall₂ R (orderBy NodeRow.id db.nodes.rows) devices :=
    before.imp fun node record hok => ⟨(device_ok hok).1, fun _ => hok⟩
  have hafter : List.Forall₂ R (orderBy NodeRow.id db'.nodes.rows) devices' :=
    after.imp fun node record hok =>
      ⟨(device_ok hok).1, fun hne => (device_congr (h.other node.id hne)).symm.trans hok⟩
  have hsame : Relator.LiftFun R (· ↔ ·)
      (fun n : NodeRow => decide (n.id ≠ request.nodeId) = true)
      (fun d : DeviceRecord => decide (d.id ≠ request.nodeId) = true) := by
    intro node record hR
    simp [hR.1]
  have hbefore := (List.forall₂_and_left _ _).mpr
    ⟨fun n hn => (List.mem_filter.mp hn).2, List.rel_filter hsame hbefore⟩
  have hafter := (List.forall₂_and_left _ _).mpr
    ⟨fun n hn => (List.mem_filter.mp hn).2, List.rel_filter hsame hafter⟩
  rw [h.others] at hafter
  refine List.right_unique_forall₂' ?_ hafter hbefore
  intro node record record' hr hr'
  have hne : node.id ≠ request.nodeId := by simpa using hr.1
  exact Except.ok.inj ((hr.2.2 hne).symm.trans (hr'.2.2 hne))

/-- Where the catalogue could be listed, it can be listed after a registration, with
the records of the other nodes as they were, exactly if the address of the node's
SSH service can be split. -/
theorem catalogue_kept_iff {db : Registry} {catalog : DeviceCatalogResponse}
    {request : RegisterNodeRequest} (before : db.listDevices = .ok catalog)
    (accepted : (db.registerNode request).1 = .ok ()) :
    (∃ catalog', (db.registerNode request).2.listDevices = .ok catalog'
        ∧ catalog'.devices.filter (fun d => d.id ≠ request.nodeId)
          = catalog.devices.filter fun d => d.id ≠ request.nodeId)
      ↔ ∀ addr ∈ sshAddr request, ∃ parts, splitAddr addr = .ok parts := by
  have h : Replaces db (db.registerNode request).2 request := by
    rcases registerNode_cases db request with ⟨-, h, -⟩ | ⟨herr, -, -⟩
    · exact h
    · rw [herr] at accepted
      cases accepted
  generalize (db.registerNode request).2 = db' at h
  rw [listDevices_eq_ok_iff] at before
  simp only [listDevices_eq_ok_iff]
  constructor
  · rintro ⟨catalog', hok, -⟩
    have hown : (⟨request.nodeId, request.nodeLabel⟩ : NodeRow)
        ∈ (db'.rowsOf request.nodeId).nodes := by
      rw [h.own]
      exact List.mem_singleton_self _
    have hdevices := exists_forall₂_iff.mp ⟨_, hok⟩
    exact (device_own_iff h rfl).mp
      (hdevices _ ((orderBy_perm _ _).mem_iff.mpr (List.mem_of_mem_filter hown)))
  · intro hsplit
    have hdevices : ∀ node ∈ orderBy NodeRow.id db'.nodes.rows,
        ∃ record, db'.device node = .ok record := by
      intro node hnode
      by_cases hid : node.id = request.nodeId
      · exact (device_own_iff h hid).mpr hsplit
      · rw [device_congr (h.other node.id hid)]
        refine exists_forall₂_iff.mp ⟨_, before⟩ node ?_
        rw [(orderBy_perm _ _).mem_iff] at hnode ⊢
        exact (mem_nodes_of_rowsOf (h.other node.id hid)).mp hnode
    obtain ⟨devices, hok⟩ := exists_forall₂_iff.mpr hdevices
    exact ⟨⟨devices⟩, hok, h.other_devices before hok⟩

theorem catalogue_kept_iff_node :
    ∃ catalog, (empty.registerNode (sampleRequest "node-1" "192.0.2.1:17001")).2.listDevices
        = .ok catalog
      ∧ ∃ catalog', ((empty.registerNode (sampleRequest "node-1" "192.0.2.1:17001")).2.registerNode
            (sampleRequest "node-2" "192.0.2.2:17001")).2.listDevices = .ok catalog'
        ∧ catalog'.devices.filter (fun d => d.id ≠ "node-2")
          = catalog.devices.filter fun d => d.id ≠ "node-2" := by
  have hlisted : ((empty.registerNode (sampleRequest "node-1"
      "192.0.2.1:17001")).2.listDevices).toOption.isSome = true := by
    decide +kernel
  have haccepted : ((empty.registerNode (sampleRequest "node-1" "192.0.2.1:17001")).2.registerNode
      (sampleRequest "node-2" "192.0.2.2:17001")).1 = .ok () := by
    decide +kernel
  have haddr : sshAddr (sampleRequest "node-2" "192.0.2.2:17001") = some "192.0.2.2:17001" := by
    decide +kernel
  have hsplit : splitAddr "192.0.2.2:17001" = .ok ("192.0.2.2", 17001) := by
    decide +kernel
  cases hok : (empty.registerNode (sampleRequest "node-1" "192.0.2.1:17001")).2.listDevices with
  | error error =>
    rw [hok] at hlisted
    cases hlisted
  | ok catalog =>
    refine ⟨catalog, rfl, (catalogue_kept_iff hok haccepted).mpr ?_⟩
    rw [haddr]
    rintro _ ⟨⟩
    exact ⟨_, hsplit⟩

/-- An address without a port is accepted, and then nobody gets a catalogue. -/
theorem catalogue_broken :
    (empty.registerNode (sampleRequest "node-1" "192.0.2.1:17001")).2.listDevices.toOption
        = some ⟨[⟨"node-1", "label of node-1", some ⟨"svc_ssh", "192.0.2.1", 17001, "overlay"⟩,
            [⟨"svc_ssh", .ssh, 1, some "shell", "127.0.0.1:22", some "overlay"⟩,
              ⟨"svc_web", .https, 1, none, "127.0.0.1:8080", none⟩]⟩]⟩
      ∧ ((empty.registerNode (sampleRequest "node-1" "192.0.2.1:17001")).2.registerNode
          (sampleRequest "node-2" "node-2.example")).1 = .ok ()
      ∧ ((empty.registerNode (sampleRequest "node-1" "192.0.2.1:17001")).2.registerNode
          (sampleRequest "node-2" "node-2.example")).2.listDevices
        = .error (.message "invalid addr node-2.example") := by
  decide +kernel

end Registry

end MediumOverlay
