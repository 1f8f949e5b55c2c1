import MediumOverlay.Crypto.SessionToken
import MediumOverlay.HomeNode.Registration
import MediumOverlay.Transport.Hello

/-!
# Who may use a service

The node makes a table of the services that its configuration enables.  A session
starts with a hello, and the node looks the service up in the table only if the
token of the hello is good, is for that service and is for this node
(`authorizeSession_eq_ok_iff`).
-/

namespace MediumOverlay

inductive ServiceTlsMode where
  | none
  | http
  | raw
deriving DecidableEq, Repr

/-- The TLS identity of a service. -/
structure ServerConfig where
  certPem : String
  keyPem : String
deriving DecidableEq, Repr

structure ProxyService where
  id : String
  kind : String
  target : String
  tlsConfig : Option ServerConfig
  tlsMode : ServiceTlsMode
deriving DecidableEq, Repr

/-- `ProxyServices`. -/
abbrev ProxyServices : Type := AList fun _ : String => ProxyService

/-- The mode of a kind, in lower case. -/
def ServiceTlsMode.ofKind (kind : String) : ServiceTlsMode :=
  if kind = "http" then .http
  else if kind = "ssh" then .raw
  else .none

/-- The entry of a service.  `serverTls` is `http_service_tls_config` on it, which asks
the control plane or uses a CA of its own. -/
def proxyService (serverTls : ServiceConfig → Except AnyhowError ServerConfig)
    (service : ServiceConfig) : Except AnyhowError ProxyService :=
  let kind := Str.toAsciiLowercase service.kind
  let tlsMode := ServiceTlsMode.ofKind kind
  if tlsMode = .none then .ok ⟨service.id, kind, service.target, none, tlsMode⟩
  else
    match serverTls service with
    | .error error => .error error
    | .ok config => .ok ⟨service.id, kind, service.target, some config, tlsMode⟩

/-- The loop of `proxy_services_from_config`. -/
def addServices (serverTls : ServiceConfig → Except AnyhowError ServerConfig) :
    ProxyServices → List ServiceConfig → Except AnyhowError ProxyServices
  | services, [] => .ok services
  | services, service :: rest =>
    if service.enabled then
      match proxyService serverTls service with
      | .error error => .error error
      | .ok entry => addServices serverTls (services.insert service.id entry) rest
    else addServices serverTls services rest

/-- `proxy_services_from_config`. -/
def proxyServicesFromConfig (serverTls : ServiceConfig → Except AnyhowError ServerConfig)
    (cfg : NodeConfig) : Except AnyhowError ProxyServices :=
  addServices serverTls ∅ cfg.services

/-- The checks of `handle_connection_with_hello` and `handle_wss_connection`. -/
def authorizeSession (codec : TokenCodec) (services : ProxyServices)
    (expectedNodeId sharedSecret : String) (hello : SessionHello) (now : Int) :
    Except AnyhowError ProxyService :=
  match verifySessionToken codec sharedSecret hello.token now with
  | .error error => .error error
  | .ok claims =>
    if claims.serviceId ≠ hello.serviceId then .error (.message "session service mismatch")
    else if claims.nodeId ≠ expectedNodeId then .error (.message "session node mismatch")
    else
      match services.lookup hello.serviceId with
      | none => .error (.message ("unknown service " ++ hello.serviceId))
      | some service => .ok service

theorem authorizeSession_eq_ok_iff {codec : TokenCodec} {services : ProxyServices}
    {expectedNodeId sharedSecret : String} {hello : SessionHello} {now : Int}
    {service : ProxyService} :
    authorizeSession codec services expectedNodeId sharedSecret hello now = .ok service ↔
      (∃ claims, verifySessionToken codec sharedSecret hello.token now = .ok claims
        ∧ claims.serviceId = hello.serviceId ∧ claims.nodeId = expectedNodeId)
      ∧ services.lookup hello.serviceId = some service := by
  unfold authorizeSession
  cases verifySessionToken codec sharedSecret hello.token now with
  | error error => simp
  | ok claims =>
    by_cases hservice : claims.serviceId = hello.serviceId
    · by_cases hnode : claims.nodeId = expectedNodeId
      · cases services.lookup hello.serviceId <;> simp [hservice, hnode]
      · simp [hservice, hnode]
    · simp [hservice]

/-! ## The table of services -/

section Services

variable {serverTls : ServiceConfig → Except AnyhowError ServerConfig}
  {services table : ProxyServices} {configs : List ServiceConfig} {id : String}
  {entry : ProxyService}

theorem proxyService_ok {service : ServiceConfig}
    (h : proxyService serverTls service = .ok entry) :
    entry.id = service.id ∧ entry.target = service.target := by
  unfold proxyService at h
  dsimp only at h
  split at h
  · cases h
    exact ⟨rfl, rfl⟩
  · split at h
    · cases h
    · cases h
      exact ⟨rfl, rfl⟩

/-- An entry of the table is one it started with, or that of an enabled service. -/
theorem addServices_sound (h : addServices serverTls services configs = .ok table)
    (hid : table.lookup id = some entry) :
    services.lookup id = some entry ∨ ∃ service ∈ configs, service.enabled = true
      ∧ service.id = id ∧ proxyService serverTls service = .ok entry := by
  induction configs generalizing services with
  | nil =>
    cases h
    exact .inl hid
  | cons service rest ih =>
    rw [addServices] at h
    split at h
    next henabled =>
      cases hentry : proxyService serverTls service with
      | error error =>
        rw [hentry] at h
        cases h
      | ok entry' =>
        rw [hentry] at h
        rcases ih h with hold | ⟨s, hs, hrest⟩
        · by_cases hsame : id = service.id
          · subst hsame
            rw [AList.lookup_insert] at hold
            cases hold
            exact .inr ⟨service, List.mem_cons_self, henabled, rfl, hentry⟩
          · rw [AList.lookup_insert_ne hsame] at hold
            exact .inl hold
        · exact .inr ⟨s, List.mem_cons_of_mem _ hs, hrest⟩
    next =>
      rcases ih h with hold | ⟨s, hs, hrest⟩
      · exact .inl hold
      · exact .inr ⟨s, List.mem_cons_of_mem _ hs, hrest⟩

/-- Every enabled service has an entry, and entries stay. -/
theorem addServices_complete (h : addServices serverTls services configs = .ok table)
    (hid : (services.lookup id).isSome ∨ ∃ service ∈ configs, service.enabled = true
      ∧ service.id = id) : (table.lookup id).isSome := by
  induction configs generalizing services with
  | nil =>
    cases h
    simpa using hid
  | cons service rest ih =>
    rw [addServices] at h
    split at h
    next henabled =>
      cases hentry : proxyService serverTls service with
      | error error =>
        rw [hentry] at h
        cases h
      | ok entry =>
        rw [hentry] at h
        refine ih h ?_
        by_cases hsame : id = service.id
        · left
          rw [hsame, AList.lookup_insert]
          rfl
        · rw [AList.lookup_insert_ne hsame]
          refine hid.imp_right ?_
          rintro ⟨s, hs, henabled, rfl⟩
          refine ⟨s, (List.mem_cons.mp hs).resolve_left ?_, henabled, rfl⟩
          rintro rfl
          exact hsame rfl
    next hdisabled =>
      refine ih h (hid.imp_right ?_)
      rintro ⟨s, hs, henabled, rfl⟩
      refine ⟨s, (List.mem_cons.mp hs).resolve_left ?_, henabled, rfl⟩
      rintro rfl
      exact hdisabled henabled

/-- A service of the table is one that the configuration enables. -/
theorem exists_config {cfg : NodeConfig} (h : proxyServicesFromConfig serverTls cfg = .ok table)
    (hid : table.lookup id = some entry) :
    ∃ service ∈ cfg.services, service.enabled = true ∧ service.id = id
      ∧ proxyService serverTls service = .ok entry :=
  (addServices_sound h hid).resolve_left (by simp)

theorem isSome_lookup {cfg : NodeConfig} (h : proxyServicesFromConfig serverTls cfg = .ok table)
    {service : ServiceConfig} (hs : service ∈ cfg.services) (henabled : service.enabled = true) :
    (table.lookup service.id).isSome :=
  addServices_complete h (.inr ⟨service, hs, henabled, rfl⟩)

end Services

/-! ### A node -/

/-- A node with one service, and one that is disabled. -/
def sampleConfig : NodeConfig where
  nodeId := "node-1"
  nodeLabel := none
  bindAddr := "192.0.2.1:17001"
  iceBindAddr := "0.0.0.0:17002"
  publicAddr := none
  icePublicAddr := some "192.0.2.1:17002"
  iceHostAddrs := []
  services := [⟨"svc_web", "https", none, "127.0.0.1:8080", none, true⟩,
    ⟨"svc_old", "https", none, "127.0.0.1:8081", none, false⟩]

/-- `http_service_tls_config` of the node, which has no CA and no control plane. -/
def sampleServerTls (_ : ServiceConfig) : Except AnyhowError ServerConfig :=
  .error (.message "http service svc_web requires service CA config or control_url")

end MediumOverlay
