import MediumOverlay.ControlPlane.Router
import MediumOverlay.Lib.Utf8

/-!
# Who decides where clients go

The tables of the control plane say where a client finds a service, and as whom it logs
in.  This module is about who can write them, and about what a certificate takes from
them.

*Routes.*  The shared secret guards the certificates of nodes and the relay.  The only
route that writes the tables does not ask for it (`Server.handle_registry`).  So requests
that carry no secret leave every route as it was exactly if none of them is a registration
that the database accepts (`routing_integrity_iff`).

*Certificates.*  The principal of an SSH certificate is the user name that a node has
registered for a service, as a text.  It is one principal, for a service of kind `ssh`,
exactly if there is no comma in it and the service is of that kind
(`ssh_certificate_principal_iff`): neither is checked on the way.
-/

namespace MediumOverlay.ControlPlane

/-! ## Registrations -/

section

variable {ρ : Type} (env : Environment ρ)

/-- The registration that a request asks for. -/
def registrationOf (request : HttpRequest) : Option RegisterNodeRequest :=
  if Route.find request.path = some .registerNode ∧ request.method = .post then
    (env.registerNodeRequest request).toOption
  else none

/-- The request is a registration that the database accepts. -/
def Registers (request : HttpRequest) : Prop :=
  ∃ node ∈ registrationOf env request, (node.services.map PublishedService.id).Nodup

/-- The texts of a request beside its body. -/
def HttpRequest.texts (request : HttpRequest) : List String :=
  request.path :: request.query :: request.headers.flatMap fun header =>
    header.1 :: header.2.toList

/-- The secret stands somewhere in the request, or is the one that is read from it. -/
def Carries (request : HttpRequest) (secret : String) : Prop :=
  Utf8.encode secret.toList <:+: request.body ∨
  (∃ text ∈ request.texts, secret.toList <:+: text.toList) ∨
  ∃ certificate ∈ (env.serviceCertificateRequest request).toOption,
    certificate.sharedSecret = secret

instance (request : HttpRequest) (secret : String) : Decidable (Carries env request secret) :=
  inferInstanceAs (Decidable (_ ∨ (∃ text ∈ _, _) ∨ ∃ certificate ∈ _, _))

end

namespace Server

variable {ρ : Type} {env : Environment ρ}

/-- The same server with other tables and another shared secret. -/
def withState (server : Server ρ) (registry : Registry) (sharedSecret : String) : Server ρ :=
  { server with control := { server.control with registry, sharedSecret } }

/-- The server behind a sequence of requests, with what each of them draws. -/
def serve (env : Environment ρ) (server : Server ρ) (requests : List (Draw × HttpRequest)) :
    Server ρ :=
  requests.foldl (fun server request => (server.handle env request.1 request.2).2) server

theorem extract_eq {α : Type} {server : Server ρ} {extracted : Except Reply α}
    {handler : α → Response × Server ρ} (h : ∀ a, (handler a).2 = server) :
    (server.extract env extracted handler).2 = server := by
  cases extracted with
  | error reply => rfl
  | ok a => exact h a

/-- The other routes leave the control plane as it is. -/
theorem call_control (draw : Draw) (server : Server ρ) {route : Route} (request : HttpRequest)
    (h : route ≠ .registerNode) :
    (server.call env draw route request).2.control = server.control := by
  cases route with
  | registerNode => exact absurd rfl h
  | serviceCertificate => exact congrArg control (extract_eq fun _ => rfl)
  | openSession => exact congrArg control (extract_eq fun _ => rfl)
  | sshCertificate => exact congrArg control (extract_eq fun _ => rfl)
  | health | bootstrapCode | devices | mediumCa | sshCaPublicKey | relay => rfl

/-- A registration is all that changes the tables. -/
theorem handle_registry (draw : Draw) (server : Server ρ) (request : HttpRequest) :
    (server.handle env draw request).2.control.registry =
      match registrationOf env request with
      | none => server.control.registry
      | some node => (server.control.registry.registerNode node).2 := by
  unfold handle registrationOf
  cases hroute : Route.find request.path with
  | none => rfl
  | some route =>
    dsimp only
    by_cases hregister : route = .registerNode
    · have haccepts : route.accepts request.method = true ↔ request.method = .post := by
        rw [hregister]
        exact decide_eq_true_iff
      by_cases hmethod : request.method = .post
      · rw [if_pos (haccepts.mpr hmethod), if_pos ⟨congrArg some hregister, hmethod⟩, hregister]
        dsimp only [call]
        cases env.registerNodeRequest request <;> rfl
      · rw [if_neg (mt haccepts.mp hmethod), if_neg fun h => hmethod h.2]
    · have hnone : ¬ (some route = some Route.registerNode ∧ request.method = .post) :=
        fun h => hregister (Option.some_inj.mp h.1)
      rw [if_neg hnone]
      dsimp only
      split
      · exact congrArg ControlState.registry (call_control draw server request hregister)
      · rfl

theorem serve_registry (server : Server ρ) (requests : List (Draw × HttpRequest)) :
    (server.serve env requests).control.registry
      = (requests.filterMap fun request => registrationOf env request.2).foldl
          (fun db node => (db.registerNode node).2) server.control.registry := by
  induction requests generalizing server with
  | nil => rfl
  | cons request requests ih =>
    have hrest := ih (server.handle env request.1 request.2).2
    rw [handle_registry] at hrest
    rw [serve, List.foldl_cons, ← serve, hrest, List.filterMap_cons]
    cases registrationOf env request.2 <;> rfl

end Server

/-! ## Nodes stay in the tables -/

variable {db : Registry} {node : RegisterNodeRequest}

theorem registerNode_of_not_nodup (h : ¬ (node.services.map PublishedService.id).Nodup) :
    (db.registerNode node).2 = db := by
  obtain ⟨-, -, hnodup⟩ | ⟨-, hsame, -⟩ := db.registerNode_cases node
  · exact absurd hnodup h
  · exact hsame

/-- The node is in the tables. -/
def HasNode (db : Registry) (nodeId : String) : Prop := (db.rowsOf nodeId).nodes ≠ []

theorem HasNode.registerNode {nodeId : String} (h : HasNode db nodeId)
    (node : RegisterNodeRequest) : HasNode (db.registerNode node).2 nodeId := by
  obtain ⟨-, hreplaces, -⟩ | ⟨-, hsame, -⟩ := db.registerNode_cases node
  · by_cases hown : nodeId = node.nodeId
    · rw [HasNode, hown, hreplaces.own]
      exact List.cons_ne_nil _ _
    · rw [HasNode, hreplaces.other nodeId hown]
      exact h
  · rw [hsame]
    exact h

theorem hasNode_registerNode (h : (node.services.map PublishedService.id).Nodup) :
    HasNode (db.registerNode node).2 node.nodeId := by
  obtain ⟨-, hreplaces, -⟩ | ⟨-, -, hdup⟩ := db.registerNode_cases node
  · rw [HasNode, hreplaces.own]
    exact List.cons_ne_nil _ _
  · exact absurd h hdup

/-- Whatever is registered later, an accepted node is still there. -/
theorem hasNode_foldl {nodes : List RegisterNodeRequest} (hmem : node ∈ nodes)
    (h : (node.services.map PublishedService.id).Nodup) (db : Registry) :
    HasNode (nodes.foldl (fun db node => (db.registerNode node).2) db) node.nodeId := by
  obtain ⟨before, after, rfl⟩ := List.append_of_mem hmem
  rw [List.foldl_append, List.foldl_cons]
  have hkept : ∀ (after : List RegisterNodeRequest) (db : Registry), HasNode db node.nodeId →
      HasNode (after.foldl (fun db node => (db.registerNode node).2) db) node.nodeId := by
    intro after
    induction after with
    | nil => exact fun db hdb => hdb
    | cons other after ih => exact fun db hdb => ih _ (hdb.registerNode other)
  exact hkept after _ (hasNode_registerNode h)

/-- The catalogue is not empty if there is a node. -/
theorem HasNode.listDevices_ne {nodeId : String} (h : HasNode db nodeId) :
    db.listDevices ≠ .ok ⟨[]⟩ := by
  intro hempty
  have hnodes := Registry.listDevices_eq_ok_iff.mp hempty
  rw [List.forall₂_nil_right_iff] at hnodes
  have hrows := (Table.orderBy_perm NodeRow.id db.nodes.rows).symm.trans (.of_eq hnodes)
  rw [List.perm_nil] at hrows
  rw [HasNode, Registry.rowsOf, hrows] at h
  exact h rfl

/-! ## Routes -/

/-- Clients are told the same. -/
structure SameRoutes (db db' : Registry) : Prop where
  listDevices : db'.listDevices = db.listDevices
  resolveServiceRoute : db'.resolveServiceRoute = db.resolveServiceRoute
  resolveNodeServiceRoute : db'.resolveNodeServiceRoute = db.resolveNodeServiceRoute

section

variable {ρ : Type} (env : Environment ρ)

/-- A secret that is long enough is not in the request. -/
theorem exists_length_not_carries (request : HttpRequest) :
    ∃ n, ∀ secret : String, n < secret.toList.length → ¬ Carries env request secret := by
  refine ⟨request.body.length + (request.texts.map fun text => text.toList.length).sum
    + (((env.serviceCertificateRequest request).toOption.map
      fun certificate => certificate.sharedSecret.toList.length).getD 0), ?_⟩
  rintro secret hlong (hbody | ⟨text, htext, hpart⟩ | ⟨certificate, hcertificate, rfl⟩)
  · have hlength := hbody.length_le
    have hencode := Utf8.length_le_encode secret.toList
    omega
  · have hlength := hpart.length_le
    have hle := List.single_le_sum (fun _ _ => Nat.zero_le _) _
      (List.mem_map_of_mem (f := fun text : String => text.toList.length) htext)
    omega
  · rw [Option.mem_def.mp hcertificate, Option.map_some, Option.getD_some] at hlong
    omega

theorem exists_not_carries (requests : List (Draw × HttpRequest)) :
    ∃ secret, ∀ request ∈ requests, ¬ Carries env request.2 secret := by
  obtain ⟨n, hn⟩ : ∃ n, ∀ secret : String, n < secret.toList.length →
      ∀ request ∈ requests, ¬ Carries env request.2 secret := by
    induction requests with
    | nil => exact ⟨0, by simp⟩
    | cons request requests ih =>
      obtain ⟨n, hn⟩ := ih
      obtain ⟨m, hm⟩ := exists_length_not_carries env request.2
      refine ⟨max n m, fun secret hlong => List.forall_mem_cons.mpr ⟨?_, ?_⟩⟩
      · exact hm secret ((le_max_right n m).trans_lt hlong)
      · exact hn secret ((le_max_left n m).trans_lt hlong)
  exact ⟨.ofList (List.replicate (n + 1) 'x'), hn _ (by simp)⟩

/-- Requests without the shared secret leave the routes as they were, exactly if there is
no registration among them. -/
theorem routing_integrity_iff (server : Server ρ) (requests : List (Draw × HttpRequest)) :
    (∀ registry sharedSecret,
      (∀ request ∈ requests, ¬ Carries env request.2 sharedSecret) →
      SameRoutes registry
        ((server.withState registry sharedSecret).serve env requests).control.registry) ↔
    ∀ request ∈ requests, ¬ Registers env request.2 := by
  constructor
  · rintro h request hrequest ⟨node, hnode, hnodup⟩
    obtain ⟨secret, hsecret⟩ := exists_not_carries env requests
    have hsame := (h .empty secret hsecret).listDevices
    rw [Server.serve_registry] at hsame
    have hmem : node ∈ requests.filterMap fun request => registrationOf env request.2 :=
      List.mem_filterMap.mpr ⟨request, hrequest, hnode⟩
    exact (hasNode_foldl hmem hnodup _).listDevices_ne hsame
  · intro h registry sharedSecret _
    have hregistry : ((server.withState registry sharedSecret).serve env
        requests).control.registry = registry := by
      rw [Server.serve_registry]
      refine List.foldlRecOn (motive := fun db => db = registry) _ _ rfl ?_
      rintro db rfl node hnode
      obtain ⟨request, hrequest, hnode⟩ := List.mem_filterMap.mp hnode
      exact registerNode_of_not_nodup fun hnodup => h request hrequest ⟨node, hnode, hnodup⟩
    rw [hregistry]
    exact ⟨rfl, rfl, rfl⟩

end

/-- The body of a registration of the first sample node, behind another proxy. -/
def takeoverBody : Bytes :=
  ("\x7b\"node_id\":\"node-1\",\"node_label\":\"label of node-1\",\"endpoints\":[\x7b\"kind\":"
    ++ "\"tcp_proxy\",\"schema_version\":1,\"addr\":\"203.0.113.9:17001\",\"priority\":10\x7d],"
    ++ "\"services\":[\x7b\"id\":\"svc_ssh\",\"kind\":\"ssh\",\"schema_version\":1,\"label\":null,"
    ++ "\"target\":\"127.0.0.1:22\",\"user_name\":\"root\"\x7d]\x7d").toUTF8.data.toList

def takeoverRequest : HttpRequest :=
  ⟨.post, "/api/nodes/register", "", [("content-type", some "application/json")], takeoverBody⟩

/-- The parsers of the samples, with that of the registration. -/
def takeoverEnvironment : Environment Unit :=
  { sampleEnvironment with
    registerNodeRequest := fun request =>
      if request.body = takeoverBody then
        .ok ⟨"node-1", "label of node-1", [⟨.tcpProxy, 1, "203.0.113.9:17001", 10⟩],
          [⟨"svc_ssh", .ssh, 1, none, "127.0.0.1:22", some "root"⟩]⟩
      else .error ⟨415, "no content type"⟩ }

/-- Somebody without the secret sends the clients of a node to another address, with
another user name. -/
theorem takeover_without_secret :
    ¬ Carries takeoverEnvironment takeoverRequest sampleServer.control.sharedSecret ∧
    sampleServer.control.registry.resolveNodeServiceRoute "node-1" "svc_ssh"
      = .ok ⟨"node-1", "192.0.2.1:17001", [], some "overlay"⟩ ∧
    (sampleServer.serve takeoverEnvironment
        [(sampleDraws 0, takeoverRequest)]).control.registry.resolveNodeServiceRoute
          "node-1" "svc_ssh"
      = .ok ⟨"node-1", "203.0.113.9:17001", [], some "root"⟩ := by
  decide +kernel

/-! ## Certificates -/

/-- The principals that `ssh-keygen` reads in its arguments, in that of `-n`. -/
def sshKeygenPrincipals : List String → List String
  | "-n" :: argument :: _ => Str.split ',' argument
  | "-q" :: rest => sshKeygenPrincipals rest
  | "-s" :: _ :: rest | "-I" :: _ :: rest | "-V" :: _ :: rest => sshKeygenPrincipals rest
  | _ => []

/-- The route that `issue_ssh_certificate` resolves. -/
def sshRoute (registry : Registry) (request : SshCertificateRequest) :
    Except AnyhowError ServiceRoute :=
  match request.nodeId with
  | some nodeId => registry.resolveNodeServiceRoute nodeId request.serviceId
  | none => registry.resolveServiceRoute request.serviceId

/-- What is stored for the service of a request, at the node that its route leads to. -/
def requestedService (registry : Registry) (request : SshCertificateRequest) : Option ServiceRow :=
  (sshRoute registry request).toOption.bind fun route =>
    registry.services.rows.find? fun row => row.nodeId = route.nodeId ∧ row.id = request.serviceId

/-- A route is that of a stored service, with its user name. -/
theorem requestedService_of_sshRoute {registry : Registry} {request : SshCertificateRequest}
    {route : ServiceRoute} (h : sshRoute registry request = .ok route) :
    ∃ row, requestedService registry request = some row ∧ row.userName = route.userName ∧
      ∀ nodeId ∈ request.nodeId, row.nodeId = nodeId := by
  obtain ⟨row, hrow, hid, hnode, huser, hown⟩ : ∃ row ∈ registry.services.rows,
      row.id = request.serviceId ∧ row.nodeId = route.nodeId ∧ row.userName = route.userName ∧
      ∀ nodeId ∈ request.nodeId, row.nodeId = nodeId := by
    unfold sshRoute at h
    cases hnodeId : request.nodeId with
    | none =>
      rw [hnodeId] at h
      obtain ⟨service, endpoint, hrow, rfl⟩ := Registry.route_eq_ok_iff.mp h
      obtain ⟨hmem, hid, -⟩ := Registry.serviceRow_eq_some_iff.mp hrow
      exact ⟨service, hmem, hid, rfl, rfl, by simp⟩
    | some nodeId =>
      rw [hnodeId] at h
      obtain ⟨service, endpoint, hrow, rfl⟩ := Registry.route_eq_ok_iff.mp h
      obtain ⟨hmem, hwanted, -⟩ :=
        (Registry.routeRow_eq_some_iff request.serviceId (by simp)).mp hrow
      obtain ⟨hnode, hid⟩ := of_decide_eq_true hwanted
      exact ⟨service, hmem, hid, rfl, rfl, by simp [hnode]⟩
  refine ⟨row, ?_, huser, hown⟩
  rw [requestedService, h]
  -- The key of a service is unique.
  cases hfind : registry.services.rows.find? fun row =>
      row.nodeId = route.nodeId ∧ row.id = request.serviceId with
  | none =>
    have hnone := List.find?_eq_none.mp hfind row hrow
    exact absurd (decide_eq_true ⟨hnode, hid⟩) hnone
  | some found =>
    have hwanted := List.find?_some hfind
    rw [decide_eq_true_eq] at hwanted
    obtain ⟨hnode', hid'⟩ := hwanted
    have hkey : found.key = row.key := by
      rw [ServiceRow.key, ServiceRow.key, hnode', hid', hnode, hid]
    rw [List.inj_on_of_nodup_map registry.services.nodup (List.mem_of_find?_eq_some hfind) hrow
      hkey] at hfind
    exact hfind

theorem okOr_eq_ok_iff {α : Type} {status : StatusCode} {value : Option α} {a : α} :
    okOr status value = .ok a ↔ value = some a := by
  cases value <;> simp [okOr]

theorem orStatus_eq_ok_iff {ε α : Type} {status : StatusCode} {result : Except ε α} {a : α} :
    orStatus status result = .ok a ↔ result = .ok a := by
  cases result <;> simp [orStatus]

section

variable {ρ : Type} {env : Environment ρ} {draw : Draw} {state : ControlState}
  {request : SshCertificateRequest} {response : SshCertificateResponse}

/-- A certificate is signed for the user name of the route. -/
theorem issueSshCertificate_eq_ok (h : issueSshCertificate env draw state request = .ok response) :
    ∃ route caKeyPath, sshRoute state.registry request = .ok route ∧
      route.userName = some response.userName ∧ state.sshCaKeyPath = some caKeyPath ∧
      env.sshKeygen (sshKeygenArgs env draw caKeyPath response.userName) request.publicKey
        = .ok response.certificate := by
  by_cases hsecret : request.clientSecret ≠ state.clientSecret
  · rw [issueSshCertificate_of_ne hsecret] at h
    cases h
  have hrun : issueSshCertificate env draw state request = (do
      let route ← orStatus 400 (sshRoute state.registry request)
      let userName ← okOr 400 route.userName
      let caKeyPath ← okOr 404 state.sshCaKeyPath
      let certificate ← orStatus 500
        (signSshPublicKey env draw caKeyPath userName request.publicKey)
      return ⟨certificate, userName, SSH_CERT_VALID_SECONDS⟩) := by
    rw [issueSshCertificate, if_neg hsecret]
    rfl
  simp only [hrun, Fallible.bind_eq_ok_iff, orStatus_eq_ok_iff, okOr_eq_ok_iff, pure, Except.pure,
    Except.ok.injEq] at h
  obtain ⟨route, hroute, userName, huser, caKeyPath, hpath, certificate, hsign, rfl⟩ := h
  refine ⟨route, caKeyPath, hroute, huser, hpath, ?_⟩
  unfold signSshPublicKey at hsign
  split at hsign
  next => cases hsign
  next signed hkeygen =>
    cases hsign
    exact hkeygen

/-- A certificate names one principal, that of a service of kind `ssh`, exactly if there is
no comma in the user name that is stored for the service and it is of that kind. -/
theorem ssh_certificate_principal_iff
    (h : issueSshCertificate env draw state request = .ok response) :
    (∃ row userName caKeyPath, requestedService state.registry request = some row ∧
      (∀ nodeId ∈ request.nodeId, row.nodeId = nodeId) ∧ row.userName = some userName ∧
      state.sshCaKeyPath = some caKeyPath ∧
      env.sshKeygen (sshKeygenArgs env draw caKeyPath response.userName) request.publicKey
        = .ok response.certificate ∧
      sshKeygenPrincipals (sshKeygenArgs env draw caKeyPath response.userName) = [userName] ∧
      row.kind = "ssh") ↔
    ∀ row ∈ requestedService state.registry request, row.kind = "ssh" ∧
      ∀ userName ∈ row.userName, ',' ∉ userName.toList := by
  obtain ⟨route, caKeyPath, hroute, huser, hpath, hsign⟩ := issueSshCertificate_eq_ok h
  obtain ⟨row, hrow, hname, hnode⟩ := requestedService_of_sshRoute hroute
  rw [huser] at hname
  simp only [hrow, Option.mem_some_iff, forall_eq', hname]
  constructor
  · rintro ⟨row', userName, _, hrow', -, hname', -, -, hprincipals, hkind⟩
    cases hrow'
    cases hname.symm.trans hname'
    exact ⟨hkind, Str.split_eq_singleton_iff.mp hprincipals⟩
  · rintro ⟨hkind, hcomma⟩
    exact ⟨row, response.userName, caKeyPath, rfl, hnode, hname, hpath, hsign,
      Str.split_eq_singleton_iff.mpr hcomma, hkind⟩

end

/-- A node that publishes a web service with the names of two users. -/
def twoUsersRequest : RegisterNodeRequest where
  nodeId := "node-1"
  nodeLabel := "label of node-1"
  endpoints := [⟨.tcpProxy, 1, "192.0.2.1:17001", 10⟩]
  services := [⟨"svc_web", .https, 1, none, "127.0.0.1:8080", some "root,admin"⟩]

def twoUsersState : ControlState :=
  { sampleServer.control with registry := (Registry.empty.registerNode twoUsersRequest).2 }

def webCertificateRequest : SshCertificateRequest :=
  ⟨"svc_web", some "node-1", "device-1", "ssh-ed25519 AAAA", "secret-1"⟩

/-- The certificate for a web service names two principals. -/
theorem certificate_for_two_users :
    issueSshCertificate sampleEnvironment (sampleDraws 0) twoUsersState webCertificateRequest
      = .ok ⟨"ssh-ed25519-cert-v01@openssh.com AAAA", "root,admin", 300⟩ ∧
    sshKeygenPrincipals (sshKeygenArgs sampleEnvironment (sampleDraws 0) "ca" "root,admin")
      = ["root", "admin"] ∧
    (requestedService twoUsersState.registry webCertificateRequest).map ServiceRow.kind
      = some "https" := by
  decide +kernel

theorem ssh_certificate_principal_iff_sample :
    issueSshCertificate sampleEnvironment (sampleDraws 0) sampleServer.control
        ⟨"svc_ssh", some "node-1", "device-1", "ssh-ed25519 AAAA", "secret-1"⟩
      = .ok ⟨"ssh-ed25519-cert-v01@openssh.com AAAA", "overlay", 300⟩ ∧
    ∃ row, requestedService sampleServer.control.registry
        ⟨"svc_ssh", some "node-1", "device-1", "ssh-ed25519 AAAA", "secret-1"⟩ = some row ∧
      row.userName = some "overlay" ∧ row.kind = "ssh" := by
  have hissue : issueSshCertificate sampleEnvironment (sampleDraws 0) sampleServer.control
        ⟨"svc_ssh", some "node-1", "device-1", "ssh-ed25519 AAAA", "secret-1"⟩
      = .ok ⟨"ssh-ed25519-cert-v01@openssh.com AAAA", "overlay", 300⟩ := by
    decide +kernel
  obtain ⟨row, userName, _, hrow, -, hname, -, -, hprincipals, hkind⟩ :=
    (ssh_certificate_principal_iff hissue).mpr (by decide +kernel)
  cases hprincipals
  exact ⟨hissue, row, hrow, hname, hkind⟩

end MediumOverlay.ControlPlane
