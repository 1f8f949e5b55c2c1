import MediumOverlay.ControlPlane.Routes
import MediumOverlay.Lib.Dialogue

/-!
# The public router

Everything the control plane answers over HTTP is in `handle`: the routes of
`build_router` with their handlers, and the relay that is merged into them.  Parsing
a request, the certificate tools and the relay are parameters (`Environment`).  So is
what a handler draws (`Draw`).

The client secret is read in two places.  `issue_ssh_certificate` compares it with the
secret of the request, and `create_bootstrap_code` writes it into an invite, without
asking who is there.  On every other route the secret plays no part
(`Server.blind_call`).  A requester makes each request from the responses so far.  One
that has no secret sees no difference between two control planes that differ in the
secret alone, and gets no SSH certificate, exactly as long as no invite gives the
secret away (`secret_hidden_iff`).
-/

namespace MediumOverlay.ControlPlane

/-! ## Requests and responses -/

inductive Method where
  | get
  | head
  | post
  | other
deriving DecidableEq, Repr

/-- The names of headers are in lower case.  A header has no text where its value is
not one. -/
structure HttpRequest where
  method : Method
  path : String
  query : String
  headers : List (String × Option String)
  body : Bytes
deriving DecidableEq, Repr

abbrev StatusCode := Nat

inductive Body where
  | text (text : String)
  | invite (response : BootstrapInviteResponse)
  | devices (catalog : DeviceCatalogResponse)
  | grant (grant : SessionOpenGrant)
  | serviceCertificate (response : ServiceCertificateResponse)
  | sshCertificate (response : SshCertificateResponse)
deriving DecidableEq, Repr

def Body.isSshCertificate : Body → Bool
  | sshCertificate _ => true
  | _ => false

structure Response where
  status : StatusCode
  contentType : Option String
  allow : Option String
  contentLength : Nat
  body : Option Body
deriving DecidableEq, Repr

/-- A status and a text: what an extractor answers to a request that it rejects. -/
structure Reply where
  status : StatusCode
  text : String
deriving DecidableEq, Repr

/-- What the handlers take from their surroundings: fresh ids, the time, and what the
certificate tools draw. -/
structure Draw where
  grant : GrantDraw
  codeUuid : String
  pinUuid : String
  fileUuid : String
  keyUuid : String
  seed : Nat

/-- The rest of the program, with a relay of state `ρ`. -/
structure Environment (ρ : Type) where
  codec : TokenCodec
  text : AddrText
  /-- The length of a body on the wire. -/
  encodedLength : Body → Nat
  /-- `Authority::from_str`. -/
  parseAuthority : String → Option String
  /-- The text of the file with the name of a key file and the extension `pub`. -/
  readPublicKey : String → Option String
  tempDir : String
  /-- `ssh-keygen`, with its arguments and the text of the key file: the certificate, or what it
  writes to the standard error. -/
  sshKeygen : List String → String → Except String String
  /-- `issue_service_tls_identity`, with the certificate and the key of the CA. -/
  issueServiceTlsIdentity : Draw → String → String → List String →
    Except AnyhowError ServiceCertificateResponse
  serviceCertificateRequest : HttpRequest → Except Reply ServiceCertificateRequest
  registerNodeRequest : HttpRequest → Except Reply RegisterNodeRequest
  sessionOpenRequest : HttpRequest → Except Reply SessionOpenRequest
  sshCertificateRequest : HttpRequest → Except Reply SshCertificateRequest
  /-- The relay with a shared secret, and its answer to an upgrade. -/
  relay : String → ρ → HttpRequest → Reply × ρ

/-- `ControlState`. -/
structure ControlState where
  registry : Registry
  sharedSecret : String
  clientSecret : String
  controlPin : String
  serviceCaCertPem : Option String
  serviceCaKeyPem : Option String
  relayAddr : Option String
  wssRelayUrl : Option String
  iceRelayAddr : Option String
  sshCaKeyPath : Option String

/-! ## Handlers -/

/-- `Option::ok_or` with a status. -/
def okOr {α : Type} (status : StatusCode) : Option α → Except StatusCode α
  | none => .error status
  | some a => .ok a

/-- `map_err(|_| status)`. -/
def orStatus {ε α : Type} (status : StatusCode) : Except ε α → Except StatusCode α
  | .error _ => .error status
  | .ok a => .ok a

/-- `issue_service_certificate`. -/
def issueServiceCertificate {ρ : Type} (env : Environment ρ) (draw : Draw) (state : ControlState)
    (request : ServiceCertificateRequest) : Except StatusCode ServiceCertificateResponse := do
  if request.sharedSecret ≠ state.sharedSecret then throw 403
  if request.hostnames.isEmpty then throw 400
  let cert ← okOr 404 state.serviceCaCertPem
  let key ← okOr 404 state.serviceCaKeyPem
  orStatus 500 (env.issueServiceTlsIdentity draw cert key request.hostnames)

def ControlState.sessionSettings (state : ControlState) : SessionSettings where
  registry := state.registry
  sharedSecret := state.sharedSecret
  relayAddr := state.relayAddr
  wssRelayUrl := state.wssRelayUrl
  iceRelayAddr := state.iceRelayAddr

/-- `open_session`. -/
def openSession {ρ : Type} (env : Environment ρ) (draw : Draw) (state : ControlState)
    (request : SessionOpenRequest) : Except StatusCode SessionOpenGrant :=
  orStatus 400
    (issueSessionGrant env.codec env.text draw.grant state.sessionSettings request)

def SSH_CERT_VALID_SECONDS : Nat := 300

/-- The arguments of `sign_ssh_public_key` to `ssh-keygen`. -/
def sshKeygenArgs {ρ : Type} (env : Environment ρ) (draw : Draw) (caKeyPath principal : String) :
    List String :=
  let publicKeyPath := env.tempDir ++ "/medium-ssh-" ++ draw.fileUuid ++ ".pub"
  ["-q", "-s", caKeyPath, "-I", "medium-" ++ draw.keyUuid, "-n", principal, "-V", "+5m",
    publicKeyPath]

/-- `sign_ssh_public_key`. -/
def signSshPublicKey {ρ : Type} (env : Environment ρ) (draw : Draw)
    (caKeyPath principal publicKey : String) : Except AnyhowError String :=
  match env.sshKeygen (sshKeygenArgs env draw caKeyPath principal) publicKey with
  | .error stderr => .error (.message ("ssh-keygen failed to sign SSH certificate: " ++ stderr))
  | .ok certificate => .ok certificate

/-- `issue_ssh_certificate`. -/
def issueSshCertificate {ρ : Type} (env : Environment ρ) (draw : Draw) (state : ControlState)
    (request : SshCertificateRequest) : Except StatusCode SshCertificateResponse := do
  if request.clientSecret ≠ state.clientSecret then throw 403
  let route ← orStatus 400 (match request.nodeId with
    | some nodeId => state.registry.resolveNodeServiceRoute nodeId request.serviceId
    | none => state.registry.resolveServiceRoute request.serviceId)
  let userName ← okOr 400 route.userName
  let caKeyPath ← okOr 404 state.sshCaKeyPath
  let certificate ← orStatus 500
    (signSshPublicKey env draw caKeyPath userName request.publicKey)
  return ⟨certificate, userName, SSH_CERT_VALID_SECONDS⟩

/-! ### Invites -/

/-- The text of a header up to the first comma, trimmed. -/
def HttpRequest.firstValue (request : HttpRequest) (name : String) : Option String :=
  (request.headers.find? (·.1 = name)).bind fun header =>
    header.2.map fun value => Str.trim (((Str.splitOnce ',' value).map Prod.fst).getD value)

/-- `forwarded_scheme`. -/
def forwardedScheme (request : HttpRequest) : String :=
  match request.firstValue "x-forwarded-proto" with
  | some value => if Str.eqIgnoreAsciiCase value "https" then "https" else "http"
  | none => "http"

/-- `forwarded_authority`. -/
def forwardedAuthority {ρ : Type} (env : Environment ρ) (request : HttpRequest) : Option String :=
  (request.firstValue "host").bind env.parseAuthority

def DEFAULT_CONTROL_AUTHORITY : String := "127.0.0.1:8080"

/-- `control_url`. -/
def controlUrl {ρ : Type} (env : Environment ρ) (request : HttpRequest) : String :=
  forwardedScheme request ++ "://"
    ++ (forwardedAuthority env request).getD DEFAULT_CONTROL_AUTHORITY

/-- `issue_bootstrap_code`. -/
def issueBootstrapCode (uuid : String) : String := "ovr-" ++ uuid

/-- `issue_bootstrap_invite`. -/
def issueBootstrapInvite (draw : Draw) (controlUrl configuredControlPin clientSecret : String) :
    BootstrapInviteResponse :=
  let bootstrapToken := issueBootstrapCode draw.codeUuid
  -- a pin of its own is a second code, with the `ovr-` it starts with replaced
  let controlPin := if configuredControlPin.isEmpty then "sha256:" ++ draw.pinUuid
    else configuredControlPin
  { code := bootstrapToken
    invite := "medium://join?v=1&control=" ++ controlUrl ++ "&security=pinned-tls&control_pin="
      ++ controlPin ++ "&client_secret=" ++ clientSecret
    bootstrapToken := bootstrapToken
    security := "pinned-tls"
    controlPin := controlPin
    expiresAt := none }

/-- The invite of `create_bootstrap_code`. -/
def createBootstrapCode {ρ : Type} (env : Environment ρ) (draw : Draw) (request : HttpRequest)
    (controlPin clientSecret : String) : BootstrapInviteResponse :=
  issueBootstrapInvite draw (controlUrl env request) controlPin clientSecret

/-! ## Routes -/

inductive Route where
  | health
  | bootstrapCode
  | devices
  | mediumCa
  | serviceCertificate
  | registerNode
  | openSession
  | sshCaPublicKey
  | sshCertificate
  | relay
deriving DecidableEq, Repr

def Route.path : Route → String
  | health => "/health"
  | bootstrapCode => "/api/bootstrap-code"
  | devices => "/api/devices"
  | mediumCa => "/api/medium-ca.pem"
  | serviceCertificate => "/api/nodes/service-certificate"
  | registerNode => "/api/nodes/register"
  | openSession => "/api/sessions/open"
  | sshCaPublicKey => "/api/ssh/ca.pub"
  | sshCertificate => "/api/ssh/certificate"
  | relay => "/medium/v1/relay"

def Route.all : List Route :=
  [health, bootstrapCode, devices, mediumCa, serviceCertificate, registerNode, openSession,
    sshCaPublicKey, sshCertificate, relay]

/-- The route of a path. -/
def Route.find (path : String) : Option Route := Route.all.find? (·.path = path)

def Route.isPost : Route → Bool
  | serviceCertificate | registerNode | sshCertificate => true
  | _ => false

/-- `get` also accepts HEAD. -/
def Route.accepts (route : Route) (method : Method) : Bool :=
  if route.isPost then method = .post else method = .get ∨ method = .head

theorem Route.accepts_bootstrapCode {method : Method} :
    Route.bootstrapCode.accepts method = true ↔ method = .get ∨ method = .head :=
  decide_eq_true_iff

namespace Response

/-- A bare status. -/
def ofStatus (status : StatusCode) : Response := ⟨status, none, none, 0, none⟩

def methodNotAllowed (route : Route) : Response :=
  { ofStatus 405 with allow := if route.isPost then "POST" else "GET,HEAD" }

def ofBody {ρ : Type} (env : Environment ρ) (contentType : String) (status : StatusCode)
    (body : Body) : Response :=
  ⟨status, some contentType, none, env.encodedLength body, some body⟩

def ofReply {ρ : Type} (env : Environment ρ) (reply : Reply) : Response :=
  ofBody env "text/plain; charset=utf-8" reply.status (.text reply.text)

/-- A text, or the status for one that is not there. -/
def ofText {ρ : Type} (env : Environment ρ) (contentType : String) : Option String → Response
  | some text => ofBody env contentType 200 (.text text)
  | none => ofStatus 404

/-- `Result<Json<T>, StatusCode>`. -/
def ofResult {ρ α : Type} (env : Environment ρ) (body : α → Body) :
    Except StatusCode α → Response
  | .error status => ofStatus status
  | .ok a => ofBody env "application/json" 200 (body a)

/-- A response to HEAD has the headers and no body. -/
def forMethod (method : Method) (response : Response) : Response :=
  if method = .head then { response with body := none } else response

/-- No SSH certificate is in the response. -/
def Plain (response : Response) : Prop :=
  ∀ body ∈ response.body, body.isSshCertificate = false

variable {ρ : Type} {env : Environment ρ}

theorem plain_ofBody {contentType : String} {status : StatusCode} {body : Body}
    (h : body.isSshCertificate = false) : (ofBody env contentType status body).Plain := by
  intro body' hbody
  rw [← Option.mem_some.mp hbody]
  exact h

theorem plain_ofStatus (status : StatusCode) : (ofStatus status).Plain := nofun

theorem plain_ofReply (env : Environment ρ) (reply : Reply) : (ofReply env reply).Plain :=
  plain_ofBody rfl

theorem plain_ofText (env : Environment ρ) (contentType : String) (text : Option String) :
    (ofText env contentType text).Plain := by
  cases text with
  | none => exact plain_ofStatus 404
  | some text => exact plain_ofBody rfl

theorem plain_ofResult {α : Type} {body : α → Body} (h : ∀ a, (body a).isSshCertificate = false)
    (result : Except StatusCode α) : (ofResult env body result).Plain := by
  cases result with
  | error status => exact plain_ofStatus status
  | ok a => exact plain_ofBody (h a)

theorem Plain.forMethod {response : Response} (h : response.Plain) (method : Method) :
    (response.forMethod method).Plain := by
  rw [Response.forMethod]
  split
  · exact nofun
  · exact h

end Response

/-! ## The server -/

structure Server (ρ : Type) where
  control : ControlState
  relay : ρ

namespace Server

variable {ρ : Type}

/-- A handler behind an extractor, which itself answers a request that it rejects. -/
def extract {α : Type} (env : Environment ρ) (server : Server ρ) (extracted : Except Reply α)
    (handler : α → Response × Server ρ) : Response × Server ρ :=
  match extracted with
  | .error reply => (.ofReply env reply, server)
  | .ok a => handler a

def withRegistry (server : Server ρ) (registry : Registry) : Server ρ :=
  { server with control := { server.control with registry := registry } }

/-- The handler of a route. -/
def call (env : Environment ρ) (draw : Draw) (server : Server ρ) (route : Route)
    (request : HttpRequest) : Response × Server ρ :=
  let state := server.control
  match route with
  | .health => (.ofStatus 200, server)
  | .bootstrapCode =>
    (.ofBody env "application/json" 200
      (.invite (createBootstrapCode env draw request state.controlPin state.clientSecret)),
      server)
  | .devices => (.ofResult env .devices (orStatus 500 state.registry.listDevices), server)
  | .mediumCa => (.ofText env "application/x-pem-file" state.serviceCaCertPem, server)
  | .serviceCertificate =>
    server.extract env (env.serviceCertificateRequest request) fun request =>
      (.ofResult env .serviceCertificate (issueServiceCertificate env draw state request), server)
  | .registerNode =>
    server.extract env (env.registerNodeRequest request) fun request =>
      let registered := state.registry.registerNode request
      (.ofStatus (match registered.1 with
        | .error _ => 500
        | .ok () => 204), server.withRegistry registered.2)
  | .openSession =>
    server.extract env (env.sessionOpenRequest request) fun request =>
      (.ofResult env .grant (ControlPlane.openSession env draw state request), server)
  | .sshCaPublicKey =>
    (.ofText env "text/plain; charset=utf-8" (state.sshCaKeyPath.bind env.readPublicKey), server)
  | .sshCertificate =>
    server.extract env (env.sshCertificateRequest request) fun request =>
      (.ofResult env .sshCertificate (issueSshCertificate env draw state request), server)
  | .relay =>
    let relayed := env.relay state.sharedSecret server.relay request
    (.ofReply env relayed.1, { server with relay := relayed.2 })

/-- The router that `build_router` returns. -/
def handle (env : Environment ρ) (draw : Draw) (server : Server ρ) (request : HttpRequest) :
    Response × Server ρ :=
  match Route.find request.path with
  | none => (.ofStatus 404, server)
  | some route =>
    if route.accepts request.method then
      let (response, server) := server.call env draw route request
      (response.forMethod request.method, server)
    else (.methodNotAllowed route, server)

/-- The same server with another client secret. -/
def withSecret (server : Server ρ) (secret : String) : Server ρ :=
  { server with control := { server.control with clientSecret := secret } }

end Server

/-! ## What the secret decides -/

variable {draw : Draw}

section

variable {ρ : Type} (env : Environment ρ)

/-- The request is for an SSH certificate, with this secret. -/
def Presents (request : HttpRequest) (secret : String) : Prop :=
  ∃ certificate ∈ (env.sshCertificateRequest request).toOption, certificate.clientSecret = secret

instance (request : HttpRequest) (secret : String) : Decidable (Presents env request secret) :=
  inferInstanceAs (Decidable (∃ certificate ∈ _, _))

/-- The request is for an invite, and the responses under the two secrets differ.  They
do with GET.  A response to HEAD has only the length of the invite. -/
def Reveals (controlPin secret₁ secret₂ : String) (draw : Draw) (request : HttpRequest) : Prop :=
  Route.find request.path = some .bootstrapCode
    ∧ (request.method = .get ∨ request.method = .head
      ∧ env.encodedLength (.invite (createBootstrapCode env draw request controlPin secret₁))
        ≠ env.encodedLength (.invite (createBootstrapCode env draw request controlPin secret₂)))

variable {env}

theorem issueSshCertificate_of_ne {state : ControlState} {request : SshCertificateRequest}
    (h : request.clientSecret ≠ state.clientSecret) :
    issueSshCertificate env draw state request = .error 403 := by
  rw [issueSshCertificate, if_pos h]
  rfl

/-- Two invites for one request are the same only if the secret is. -/
theorem createBootstrapCode_inj {request : HttpRequest} {controlPin secret₁ secret₂ : String}
    (h : createBootstrapCode env draw request controlPin secret₁
      = createBootstrapCode env draw request controlPin secret₂) : secret₁ = secret₂ := by
  have hinvite := congrArg BootstrapInviteResponse.invite h
  exact String.append_right_inj _ |>.mp hinvite

namespace Server

/-- The response has no certificate and does not depend on the secret, as long as the
request does not present it. -/
def Blind (env : Environment ρ) (request : HttpRequest) (server : Server ρ)
    (answer : Server ρ → Response × Server ρ) : Prop :=
  ∃ (response : Response) (server' : Server ρ), response.Plain
    ∧ server'.control.controlPin = server.control.controlPin
    ∧ ∀ secret, ¬ Presents env request secret →
      answer (server.withSecret secret) = (response, server'.withSecret secret)

variable {request : HttpRequest} {server : Server ρ}

theorem Blind.of_eq {answer : Server ρ → Response × Server ρ} (hplain : (answer server).1.Plain)
    (hpin : (answer server).2.control.controlPin = server.control.controlPin)
    (h : ∀ secret, answer (server.withSecret secret)
      = ((answer server).1, (answer server).2.withSecret secret)) :
    Blind env request server answer :=
  ⟨_, _, hplain, hpin, fun secret _ => h secret⟩

theorem Blind.extract {α : Type} {extracted : Except Reply α}
    {handler : Server ρ → α → Response × Server ρ}
    (h : ∀ a, extracted = .ok a → Blind env request server fun s => handler s a) :
    Blind env request server fun s => s.extract env extracted (handler s) := by
  cases extracted with
  | error reply => exact .of_eq (Response.plain_ofReply env reply) rfl fun secret => rfl
  | ok a => exact h a rfl

variable (env) in
/-- Only the route to an invite depends on the secret. -/
theorem blind_call (draw : Draw) (server : Server ρ) {route : Route} (request : HttpRequest)
    (h : route ≠ .bootstrapCode) :
    Blind env request server fun s => s.call env draw route request := by
  cases route with
  | health => exact .of_eq (Response.plain_ofStatus _) rfl fun secret => rfl
  | bootstrapCode => exact absurd rfl h
  | devices => exact .of_eq (Response.plain_ofResult (fun _ => rfl) _) rfl fun secret => rfl
  | mediumCa => exact .of_eq (Response.plain_ofText env _ _) rfl fun secret => rfl
  | serviceCertificate =>
    refine .extract fun certificate _ => ?_
    exact .of_eq (Response.plain_ofResult (fun _ => rfl) _) rfl fun secret => rfl
  | registerNode =>
    refine .extract fun node _ => ?_
    exact .of_eq (Response.plain_ofStatus _) rfl fun secret => rfl
  | openSession =>
    refine .extract fun session _ => ?_
    exact .of_eq (Response.plain_ofResult (fun _ => rfl) _) rfl fun secret => rfl
  | sshCaPublicKey => exact .of_eq (Response.plain_ofText env _ _) rfl fun secret => rfl
  | sshCertificate =>
    refine .extract fun certificate hrequest => ?_
    refine ⟨.ofStatus 403, server, Response.plain_ofStatus 403, rfl, fun secret hsecret => ?_⟩
    have hne : certificate.clientSecret ≠ (server.withSecret secret).control.clientSecret :=
      fun heq => hsecret ⟨certificate, by rw [hrequest]; rfl, heq⟩
    dsimp only
    rw [issueSshCertificate_of_ne hne]
    rfl
  | relay => exact .of_eq (Response.plain_ofReply env _) rfl fun secret => rfl

variable (env) in
theorem blind_handle (draw : Draw) (server : Server ρ)
    (h : Route.find request.path ≠ some .bootstrapCode) :
    Blind env request server fun s => s.handle env draw request := by
  cases hroute : Route.find request.path with
  | none =>
    refine ⟨_, server, Response.plain_ofStatus 404, rfl, fun secret _ => ?_⟩
    simp only [handle, hroute]
  | some route =>
    obtain ⟨response, server', hplain, hpin, hcall⟩ :=
      blind_call env draw server request fun heq => h (hroute.trans (congrArg some heq))
    simp only [handle, hroute]
    split
    · refine ⟨response.forMethod request.method, server', hplain.forMethod _, hpin, ?_⟩
      intro secret hsecret
      dsimp only at hcall ⊢
      rw [hcall secret hsecret]
    · exact .of_eq nofun rfl fun secret => rfl

variable {draw : Draw}

/-- The response to a request for an invite. -/
theorem handle_bootstrapCode (h : Route.find request.path = some .bootstrapCode) (server : Server ρ)
    (secret : String) :
    (server.withSecret secret).handle env draw request =
      (if Route.bootstrapCode.accepts request.method then
        Response.forMethod request.method (.ofBody env "application/json" 200 (.invite
          (createBootstrapCode env draw request server.control.controlPin secret)))
      else .methodNotAllowed .bootstrapCode, server.withSecret secret) := by
  simp only [handle, h]
  split
  · rfl
  · rfl

/-- Two servers that differ in the client secret alone. -/
def SameButSecret (controlPin secret₁ secret₂ : String) (s t : Server ρ) : Prop :=
  ∃ server : Server ρ, server.control.controlPin = controlPin
    ∧ s = server.withSecret secret₁ ∧ t = server.withSecret secret₂

variable {controlPin secret₁ secret₂ : String} {s t : Server ρ}

/-- Behind a request that gives nothing away the servers still differ in the secret
alone, and the responses were the same. -/
theorem handle_same (hst : SameButSecret controlPin secret₁ secret₂ s t)
    (h₁ : ¬ Presents env request secret₁) (h₂ : ¬ Presents env request secret₂)
    (hquiet : ¬ Reveals env controlPin secret₁ secret₂ draw request) :
    (s.handle env draw request).1 = (t.handle env draw request).1
      ∧ SameButSecret controlPin secret₁ secret₂ (s.handle env draw request).2
        (t.handle env draw request).2
      ∧ (s.handle env draw request).1.Plain := by
  obtain ⟨server, rfl, rfl, rfl⟩ := hst
  by_cases hroute : Route.find request.path = some .bootstrapCode
  · rw [handle_bootstrapCode hroute, handle_bootstrapCode hroute]
    have hplain : ∀ secret, (Response.ofBody env "application/json" 200 (.invite
        (createBootstrapCode env draw request server.control.controlPin secret))).Plain :=
      fun secret => Response.plain_ofBody rfl
    refine ⟨?_, ⟨server, rfl, rfl, rfl⟩, ?_⟩
    · dsimp only
      split_ifs with haccepts
      · rcases Route.accepts_bootstrapCode.mp haccepts with hmethod | hmethod
        · exact absurd ⟨hroute, .inl hmethod⟩ hquiet
        · have hlength := not_not.mp fun hne => hquiet ⟨hroute, .inr ⟨hmethod, hne⟩⟩
          simp only [Response.forMethod, Response.ofBody, hlength, hmethod, if_true]
      · rfl
    · dsimp only
      split
      · exact (hplain secret₁).forMethod _
      · exact nofun
  · obtain ⟨response, server', hplain, hpin, hhandle⟩ := blind_handle env draw server hroute
    dsimp only at hhandle
    rw [hhandle secret₁ h₁, hhandle secret₂ h₂]
    exact ⟨rfl, ⟨server', hpin, rfl, rfl⟩, hplain⟩

/-- The responses to a request that gives a secret away. -/
theorem handle_differ (hne : secret₁ ≠ secret₂) (hst : SameButSecret controlPin secret₁ secret₂ s t)
    (hreveals : Reveals env controlPin secret₁ secret₂ draw request) :
    (s.handle env draw request).1 ≠ (t.handle env draw request).1 := by
  obtain ⟨server, rfl, rfl, rfl⟩ := hst
  obtain ⟨hroute, hmethod⟩ := hreveals
  rw [handle_bootstrapCode hroute, handle_bootstrapCode hroute]
  intro heq
  rcases hmethod with hmethod | ⟨hmethod, hlength⟩
  · rw [hmethod] at heq
    have hbody := Option.some.inj (congrArg Response.body heq)
    exact hne (createBootstrapCode_inj (Body.invite.inj hbody))
  · rw [hmethod] at heq
    exact hlength (congrArg Response.contentLength heq)

end Server

end

/-! ## Requesters -/

section

variable {ρ : Type} (env : Environment ρ) (draws : Nat → Draw)
  (requester : List Response → HttpRequest)

/-- The responses to the first `n` requests, where each request is made from the
responses so far. -/
def responses (server : Server ρ) (n : Nat) : List Response :=
  (Dialogue.run (fun k s request => s.handle env (draws k) request) requester server n).1

/-- The request behind `k` responses. -/
def nextRequest (server : Server ρ) (k : Nat) : HttpRequest :=
  requester (responses env draws requester server k)

/-- A request that is for an invite, behind `k` responses of a server with the first
secret, and that tells it from a server with the second one. -/
def RevealsAt (server : Server ρ) (secret₁ secret₂ : String) (k : Nat) : Prop :=
  Reveals env server.control.controlPin secret₁ secret₂ (draws k)
    (nextRequest env draws requester (server.withSecret secret₁) k)

/-- Two control planes differ in the client secret alone.  The requester has neither
secret: it presents one only after a response has given it away.  Then it gets the same
responses from both, and a certificate from neither, exactly if none of its requests
for an invite gives the secret away. -/
theorem secret_hidden_iff (server : Server ρ) {secret₁ secret₂ : String} (hne : secret₁ ≠ secret₂)
    (n : Nat)
    (outsider : ∀ k < n, (∀ j < k, ¬ RevealsAt env draws requester server secret₁ secret₂ j) →
      ∀ secret ∈ [secret₁, secret₂],
        ¬ Presents env (nextRequest env draws requester (server.withSecret secret₁) k) secret) :
    (responses env draws requester (server.withSecret secret₁) n
          = responses env draws requester (server.withSecret secret₂) n
        ∧ ∀ response ∈ responses env draws requester (server.withSecret secret₁) n
          ++ responses env draws requester (server.withSecret secret₂) n, response.Plain)
      ↔ ∀ k < n, ¬ RevealsAt env draws requester server secret₁ secret₂ k := by
  have hconfined : Dialogue.Confined
      (fun k (s : Server ρ) request => s.handle env (draws k) request)
      (Server.SameButSecret server.control.controlPin secret₁ secret₂)
      (fun _ request => ∀ secret ∈ [secret₁, secret₂], ¬ Presents env request secret)
      (fun k request =>
        Reveals env server.control.controlPin secret₁ secret₂ (draws k) request)
      Response.Plain := {
    same := fun hst hallowed hquiet =>
      have h := Server.handle_same hst (hallowed _ (by simp)) (hallowed _ (by simp)) hquiet
      ⟨h.1, h.2.1⟩
    good := fun hst hallowed hquiet =>
      (Server.handle_same hst (hallowed _ (by simp)) (hallowed _ (by simp)) hquiet).2.2
    differ := fun hst _ hreveals => Server.handle_differ hne hst hreveals }
  exact hconfined.run_eq_iff ⟨server, rfl, rfl, rfl⟩ outsider

end

/-! ### Two sample secrets -/

/-- The body of a request for an SSH certificate. -/
def sampleCertificateBody (secret : String) : Bytes :=
  ("\x7b\"service_id\":\"svc_ssh\",\"requester_device_id\":\"device-1\","
    ++ "\"public_key\":\"ssh-ed25519 AAAA\",\"client_secret\":\"" ++ secret
    ++ "\"\x7d").toUTF8.data.toList

def sampleEncodedLength : Body → Nat
  | .text text => text.utf8ByteSize
  | .invite response =>
    ("\x7b\"code\":\"" ++ response.code ++ "\",\"invite\":\"" ++ response.invite
      ++ "\",\"bootstrap_token\":\"" ++ response.bootstrapToken ++ "\",\"security\":\""
      ++ response.security ++ "\",\"control_pin\":\"" ++ response.controlPin
      ++ "\",\"expires_at\":null\x7d").utf8ByteSize
  | .sshCertificate response =>
    ("\x7b\"certificate\":\"" ++ response.certificate ++ "\",\"user_name\":\""
      ++ response.userName ++ "\",\"valid_seconds\":" ++ toString response.validSeconds
      ++ "\x7d").utf8ByteSize
  | _ => 0

/-- Parsers and tools on the requests of the samples. -/
def sampleEnvironment : Environment Unit where
  codec := sampleTokenCodec
  text := dottedText
  encodedLength := sampleEncodedLength
  parseAuthority text := some text
  readPublicKey _ := none
  tempDir := "/tmp"
  sshKeygen _ _ := .ok "ssh-ed25519-cert-v01@openssh.com AAAA"
  issueServiceTlsIdentity _ _ _ _ := .error (.message "no certificate")
  serviceCertificateRequest _ := .error ⟨415, "no content type"⟩
  registerNodeRequest _ := .error ⟨415, "no content type"⟩
  sessionOpenRequest _ := .error ⟨400, "no query"⟩
  sshCertificateRequest request :=
    match ["secret-1", "secret-2", "guess"].find? (request.body = sampleCertificateBody ·) with
    | some secret => .ok ⟨"svc_ssh", none, "device-1", "ssh-ed25519 AAAA", secret⟩
    | none => .error ⟨415, "no content type"⟩
  relay _ relay _ := (⟨400, "no upgrade"⟩, relay)

def sampleServer : Server Unit where
  relay := ()
  control := {
    registry := Registry.sampleRegistry
    sharedSecret := sampleSecret
    clientSecret := "secret-1"
    controlPin := "sha256:00"
    serviceCaCertPem := none
    serviceCaKeyPem := none
    relayAddr := none
    wssRelayUrl := none
    iceRelayAddr := none
    sshCaKeyPath := some "/var/lib/medium/ssh_ca" }

def sampleDraws (_ : Nat) : Draw := ⟨sampleDraw, "1", "2", "3", "4", 0⟩

def bootstrapRequest : HttpRequest :=
  ⟨.get, "/api/bootstrap-code", "", [("host", some "192.0.2.1:8080")], []⟩

def certificateRequest (secret : String) : HttpRequest :=
  ⟨.post, "/api/ssh/certificate", "", [("content-type", some "application/json")],
    sampleCertificateBody secret⟩

/-- A requester that has no secret: it presents the one at the end of an invite. -/
def inviteReader : List Response → HttpRequest
  | ⟨_, _, _, _, some (.invite response)⟩ :: _ =>
    certificateRequest (((Str.rsplitOnce '=' response.invite).map Prod.snd).getD "")
  | _ => bootstrapRequest

theorem invite_gives_secret :
    ¬ Presents sampleEnvironment bootstrapRequest "secret-1"
      ∧ ¬ Presents sampleEnvironment bootstrapRequest "secret-2"
      ∧ responses sampleEnvironment sampleDraws (fun _ => bootstrapRequest)
          (sampleServer.withSecret "secret-1") 1
        ≠ responses sampleEnvironment sampleDraws (fun _ => bootstrapRequest)
          (sampleServer.withSecret "secret-2") 1
      ∧ (responses sampleEnvironment sampleDraws inviteReader
          (sampleServer.withSecret "secret-1") 2).getLast?.bind Response.body
        = some (.sshCertificate ⟨"ssh-ed25519-cert-v01@openssh.com AAAA", "overlay", 300⟩) := by
  decide +kernel

/-- Requests of somebody who guesses. -/
def guesses : List HttpRequest :=
  [⟨.get, "/health", "", [], []⟩, ⟨.get, "/api/ssh/ca.pub", "", [], []⟩, certificateRequest "guess"]

/-- The requests are those of the list, whatever the responses. -/
def guesser (answered : List Response) : HttpRequest :=
  guesses.getD answered.length (certificateRequest "guess")

theorem nextRequest_guesser (server : Server Unit) (k : Nat) :
    nextRequest sampleEnvironment sampleDraws guesser server k ∈ guesses := by
  rw [nextRequest, guesser, List.getD_eq_getElem?_getD]
  cases h : guesses[(responses sampleEnvironment sampleDraws guesser server k).length]? with
  | none => decide
  | some request => exact List.mem_of_getElem? h

theorem secret_hidden_iff_guesser :
    responses sampleEnvironment sampleDraws guesser (sampleServer.withSecret "secret-1") 3
        = responses sampleEnvironment sampleDraws guesser (sampleServer.withSecret "secret-2") 3
      ∧ ∀ response ∈ responses sampleEnvironment sampleDraws guesser
            (sampleServer.withSecret "secret-1") 3
          ++ responses sampleEnvironment sampleDraws guesser (sampleServer.withSecret "secret-2") 3,
        response.Plain := by
  have hpresents : ∀ request ∈ guesses, ∀ secret ∈ ["secret-1", "secret-2"],
      ¬ Presents sampleEnvironment request secret := by
    decide +kernel
  have hroutes : ∀ request ∈ guesses, Route.find request.path ≠ some .bootstrapCode := by
    decide +kernel
  refine (secret_hidden_iff sampleEnvironment sampleDraws guesser sampleServer (by decide) 3
    fun k _ _ => hpresents _ (nextRequest_guesser _ k)).mpr ?_
  intro k _ hreveals
  exact hroutes _ (nextRequest_guesser _ k) hreveals.1

end MediumOverlay.ControlPlane
