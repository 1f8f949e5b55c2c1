import MediumOverlay.Android.Models
import MediumOverlay.ControlPlane.Routes
import MediumOverlay.Netstack.Polls

/-!
# Routing on Android

The app opens a session for every service of the catalogue and hands the services with
their grants to the network stack.  There each service gets an address, and a connection
to the address opens a backend.

On the way a service is known by its id alone.  A session is asked for by the id, the
grants and the routes are maps by the id, and all listeners for an id wait at the address
of the first service with it.  Two nodes may publish services with one id, and the app
shows both.
-/

namespace MediumOverlay.Android

/-! ## The app -/

/-- A service with its device, as the app shows them. -/
def entries (devices : List DeviceRecord) : List (DeviceRecord × PublishedService) :=
  devices.flatMap fun device => device.services.map fun service => (device, service)

/-- The sessions of `startRoutingService`.  `openSession` is asked once for each service,
in order, and a later grant for an id replaces an earlier one.  The map is the list of
its insertions, the last one first. -/
def sessionGrants (openSession : Nat → String → Except AnyhowError SessionOpenGrant)
    (devices : List DeviceRecord) : Except AnyhowError (List (String × SessionOpenGrant)) :=
  (((devices.flatMap DeviceRecord.services).zipIdx.mapM fun x =>
    (openSession x.2 x.1.id).map fun grant => (x.1.id, grant)) : Except _ _).map List.reverse

/-- `AndroidService`, the element of the JSON text for the network stack. -/
structure AndroidService where
  id : String
  label : Option String
  kind : String
  target : String
  grant : Option SessionOpenGrant
  controlPin : Option String
deriving DecidableEq, Repr

/-- `mediumRoutingServicesJson`. -/
def mediumRoutingServices (devices : List DeviceRecord)
    (sessionGrants : List (String × SessionOpenGrant)) (controlPin : Option String) :
    List AndroidService :=
  (devices.flatMap DeviceRecord.services).map fun service =>
    let grant := sessionGrants.lookup service.id
    { id := service.id
      label := service.label
      kind := service.kind
      target := service.target
      grant
      controlPin := if grant.isSome then controlPin.filter fun pin => !isBlank pin else none }

/-! ## The network stack of the app -/

inductive BackendRoute where
  | directTarget (target : String)
  | sessionGrant (grant : SessionOpenGrant) (controlPin : Option String)
deriving DecidableEq, Repr

/-- `ServiceCatalog`. -/
structure ServiceCatalog where
  services : List Netstack.PublishedService
  routes : List (String × BackendRoute)
deriving DecidableEq, Repr

/-- The route of a service. -/
def AndroidService.route (service : AndroidService) : BackendRoute :=
  match service.grant with
  | some grant => .sessionGrant grant service.controlPin
  | none => .directTarget service.target

/-- `parse_services`, from the elements on. -/
def parseServices (services : List AndroidService) : ServiceCatalog where
  services := services.map fun service => ⟨service.id, service.label, service.kind⟩
  routes := (services.map fun service => (service.id, service.route)).reverse

def IDLE_BACKENDS_PER_SERVICE : Nat := 1

/-- `StreamBackends`.  A backend is the route that it was connected by. -/
structure StreamBackends where
  routes : List (String × BackendRoute)
  streams : List (String × BackendRoute)
  streamServices : List (String × String)
  idle : List (String × BackendRoute)
deriving DecidableEq, Repr

namespace StreamBackends

def new (routes : List (String × BackendRoute)) : StreamBackends := ⟨routes, [], [], []⟩

/-- `ensure_idle_backend`, if connecting succeeds or not. -/
def ensureIdleBackend (backends : StreamBackends) (serviceId : String) (connects : Bool) :
    StreamBackends :=
  if IDLE_BACKENDS_PER_SERVICE ≤ (backends.idle.filter (·.1 = serviceId)).length then backends
  else match backends.routes.lookup serviceId with
    | some (.sessionGrant grant pin) =>
      if connects then
        { backends with idle := backends.idle ++ [(serviceId, .sessionGrant grant pin)] }
      else backends
    | _ => backends

/-- `warm_up`. -/
def warmUp (backends : StreamBackends) (connects : String → Bool) : StreamBackends :=
  backends.routes.foldl (fun backends route =>
    backends.ensureIdleBackend route.1 (connects route.1)) backends

/-- `take_or_connect_backend`: the backend that a connection gets, and the rest.  `none`
if connecting fails. -/
def takeOrConnectBackend (backends : StreamBackends) (serviceId : String) (route : BackendRoute)
    (connects : Bool) : Option (BackendRoute × StreamBackends) :=
  match backends.idle.lookup serviceId with
  | some backend =>
    some (backend, { backends with idle := backends.idle.eraseP (·.1 = serviceId) })
  | none => if connects then some (route, backends) else none

/-- The backends without a stream. -/
def forget (backends : StreamBackends) (streamId : String) : StreamBackends :=
  { backends with
    streams := backends.streams.filter (·.1 ≠ streamId)
    streamServices := backends.streamServices.filter (·.1 ≠ streamId) }

/-- `remove_stream`. -/
def removeStream (backends : StreamBackends) (streamId : String) (connects : Bool) :
    StreamBackends :=
  match backends.streamServices.lookup streamId with
  | some serviceId => (backends.forget streamId).ensureIdleBackend serviceId connects
  | none => backends.forget streamId

end StreamBackends

open Netstack

/-- The state of `run_tun_loop`. -/
structure Tunnel (interface : Interface) where
  stack : MediumStack interface
  backends : StreamBackends

/-- What the network decides while an event is handled. -/
structure Outcome where
  connects : Bool
  writeFails : Bool
  diagnostic : Bytes
deriving Repr

namespace Tunnel

variable {interface : Interface}

/-- `open_backend`.  `none` if the loop ends. -/
def openBackend (tunnel : Tunnel interface) (outcome : Outcome) (streamId serviceId : String) :
    Option (Tunnel interface) :=
  match tunnel.backends.routes.lookup serviceId with
  | none => (tunnel.stack.closeTcp streamId).map fun stack => { tunnel with stack }
  | some route =>
    match tunnel.backends.takeOrConnectBackend serviceId route outcome.connects with
    | some (backend, backends) =>
      some { tunnel with backends := { backends with
        streams := (streamId, backend) :: backends.streams
        streamServices := (streamId, serviceId) :: backends.streamServices } }
    | none =>
      let stack := (tunnel.stack.sendTcp streamId outcome.diagnostic).getD tunnel.stack
      (stack.closeTcp streamId).map fun stack => { tunnel with stack }

/-- A stream ends because its backend does. -/
def endStream (tunnel : Tunnel interface) (streamId : String) (connects : Bool) :
    Tunnel interface where
  backends := tunnel.backends.removeStream streamId connects
  stack := (tunnel.stack.closeTcp streamId).getD tunnel.stack

/-- `handle_event`. -/
def handleEvent (tunnel : Tunnel interface) (outcome : Outcome) :
    TcpPumpEvent → Option (Tunnel interface)
  | .connected streamId serviceId => tunnel.openBackend outcome streamId serviceId
  | .received streamId _ _ =>
    if (tunnel.backends.streams.lookup streamId).isSome ∧ outcome.writeFails then
      some (tunnel.endStream streamId outcome.connects)
    else some tunnel
  | .closed streamId _ =>
    some { tunnel with backends := tunnel.backends.removeStream streamId outcome.connects }

/-- The loop of `run_tun_loop` over the events of a poll, each with its place among them. -/
def handleEvents (tunnel : Tunnel interface) (outcomes : Nat → Outcome)
    (events : List (TcpPumpEvent × Nat)) : Option (Tunnel interface) :=
  events.foldlM (fun tunnel x => tunnel.handleEvent (outcomes x.2) x.1) tunnel

/-- `Runner::start` and `run_tun_loop` up to the loop. -/
def start (interface : Interface) (capacity : Nat) (lowercase : Lowercase)
    (catalog : ServiceCatalog) (connects : String → Bool) : Option (Tunnel interface) :=
  match VirtualNetwork.new lowercase catalog.services with
  | .error _ => none
  | .ok network => (MediumStack.new interface capacity network).map fun stack =>
    ⟨stack, (StreamBackends.new catalog.routes).warmUp connects⟩

/-- What happens in `run_tun_loop`. -/
inductive Event where
  | push (packet : Bytes)
  | pop
  | poll (now : Int) (first second : IfacePoll) (outcomes : Nat → Outcome)
  | write (streamId : String) (bytes : Bytes)
  | finish (streamId : String) (connects : Bool)

/-- A step of `run_tun_loop`.  `none` if the loop ends. -/
def step (tunnel : Tunnel interface) : Event → Option (Tunnel interface)
  | .push packet => some { tunnel with stack := tunnel.stack.pushTunPacket packet }
  | .pop => some { tunnel with stack := tunnel.stack.popTunPacket.2 }
  | .poll now first second outcomes =>
    match tunnel.stack.poll now first second with
    | .error _ => none
    | .ok (events, stack) => handleEvents { tunnel with stack } outcomes events.zipIdx
  | .write streamId bytes =>
    (tunnel.stack.sendTcp streamId bytes).map fun stack => { tunnel with stack }
  | .finish streamId connects => some (tunnel.endStream streamId connects)

end Tunnel

/-- The way from the catalogue to the tunnel: sessions, the JSON text, the stack. -/
def startRouting (interface : Interface) (capacity : Nat) (lowercase : Lowercase)
    (openSession : Nat → String → Except AnyhowError SessionOpenGrant) (controlPin : Option String)
    (connects : String → Bool) (devices : List DeviceRecord) : Option (Tunnel interface) :=
  match sessionGrants openSession devices with
  | .error _ => none
  | .ok grants => Tunnel.start interface capacity lowercase
      (parseServices (mediumRoutingServices devices grants controlPin)) connects

/-! ## Backends -/

namespace StreamBackends

/-- Every idle backend was connected by the route of its service. -/
def Consistent (backends : StreamBackends) : Prop :=
  ∀ x ∈ backends.idle, backends.routes.lookup x.1 = some x.2

variable {backends : StreamBackends}

/-- Only the idle backends change, and a new one is connected by the route of its service. -/
theorem ensureIdleBackend_eq (backends : StreamBackends) (serviceId : String) (connects : Bool) :
    ∃ idle, backends.ensureIdleBackend serviceId connects = { backends with idle }
      ∧ (backends.Consistent → StreamBackends.Consistent { backends with idle }) := by
  unfold ensureIdleBackend
  split
  · exact ⟨_, rfl, id⟩
  · split
    next grant pin hroute =>
      split
      · refine ⟨_, rfl, fun h x hx => ?_⟩
        rcases List.mem_append.mp hx with hold | hnew
        · exact h x hold
        · rw [List.mem_singleton.mp hnew]
          exact hroute
      · exact ⟨_, rfl, id⟩
    next => exact ⟨_, rfl, id⟩

theorem warmUp_spec (routes : List (String × BackendRoute)) (connects : String → Bool) :
    ((new routes).warmUp connects).Consistent ∧ ((new routes).warmUp connects).routes = routes := by
  have hfold : ∀ (rest : List (String × BackendRoute)) (backends : StreamBackends),
      backends.Consistent ∧ backends.routes = routes →
        (rest.foldl (fun backends route =>
          backends.ensureIdleBackend route.1 (connects route.1)) backends).Consistent
        ∧ (rest.foldl (fun backends route =>
          backends.ensureIdleBackend route.1 (connects route.1)) backends).routes = routes := by
    intro rest
    induction rest with
    | nil => exact fun _ h => h
    | cons route rest ih =>
      intro backends h
      obtain ⟨idle, heq, hconsistent⟩ :=
        backends.ensureIdleBackend_eq route.1 (connects route.1)
      rw [List.foldl_cons, heq]
      exact ih _ ⟨hconsistent h.1, h.2⟩
  exact hfold routes (new routes) ⟨by simp [Consistent, new], rfl⟩

theorem takeOrConnectBackend_eq {serviceId : String} {route backend : BackendRoute}
    {connects : Bool} {rest : StreamBackends}
    (h : backends.takeOrConnectBackend serviceId route connects = some (backend, rest)) :
    ∃ idle, rest = { backends with idle } ∧ idle ⊆ backends.idle := by
  unfold takeOrConnectBackend at h
  split at h
  · cases h
    exact ⟨_, rfl, fun x hx => List.mem_of_mem_eraseP hx⟩
  · split at h <;> cases h
    exact ⟨_, rfl, List.Subset.refl _⟩

/-- An idle backend is as good as a new one. -/
theorem exists_takeOrConnectBackend (h : backends.Consistent) {serviceId : String}
    {route : BackendRoute} (hroute : backends.routes.lookup serviceId = some route) :
    ∃ rest, backends.takeOrConnectBackend serviceId route true = some (route, rest) := by
  unfold takeOrConnectBackend
  cases hidle : backends.idle.lookup serviceId with
  | none => exact ⟨backends, rfl⟩
  | some backend =>
    obtain ⟨l₁, l₂, hl, -⟩ := List.lookup_eq_some_iff.mp hidle
    have hbackend := h (serviceId, backend) (by simp [hl])
    cases hroute.symm.trans hbackend
    exact ⟨_, rfl⟩

theorem lookup_removeStream {streamId other : String} (h : other ≠ streamId) (connects : Bool) :
    (backends.removeStream other connects).streams.lookup streamId
      = backends.streams.lookup streamId := by
  have hstreams : (backends.removeStream other connects).streams
      = backends.streams.filter (·.1 ≠ other) := by
    unfold removeStream
    split
    next serviceId _ =>
      obtain ⟨idle, heq, -⟩ := (backends.forget other).ensureIdleBackend_eq serviceId connects
      rw [heq]
      rfl
    next => rfl
  rw [hstreams]
  induction backends.streams with
  | nil => rfl
  | cons x streams ih =>
    by_cases hx : x.1 = other
    · rw [List.filter_cons_of_neg (by simp [hx]), ih, List.lookup_cons,
        beq_false_of_ne (hx.trans_ne h).symm]
    · rw [List.filter_cons_of_pos (by simp [hx]), List.lookup_cons, List.lookup_cons, ih]

theorem removeStream_spec (h : backends.Consistent) (streamId : String) (connects : Bool) :
    (backends.removeStream streamId connects).Consistent
      ∧ (backends.removeStream streamId connects).routes = backends.routes := by
  unfold removeStream
  split
  next serviceId _ =>
    obtain ⟨idle, heq, hconsistent⟩ :=
      (backends.forget streamId).ensureIdleBackend_eq serviceId connects
    rw [heq]
    exact ⟨hconsistent h, rfl⟩
  next => exact ⟨h, rfl⟩

end StreamBackends

namespace Tunnel

variable {interface : Interface} {network : VirtualNetwork} {routes : List (String × BackendRoute)}
  {tunnel tunnel' : Tunnel interface}

/-- The tunnel has the network and the routes it was started with. -/
structure Running (network : VirtualNetwork) (routes : List (String × BackendRoute))
    (tunnel : Tunnel interface) : Prop where
  ready : tunnel.stack.Ready
  network : tunnel.stack.network = network
  consistent : tunnel.backends.Consistent
  routes : tunnel.backends.routes = routes

variable {stack : MediumStack interface} {streamId : String} {stack' : MediumStack interface}
  {bytes : Bytes}

theorem network_sendTcp (h : stack.sendTcp streamId bytes = some stack') :
    stack'.network = stack.network := by
  obtain ⟨slots, -, rfl⟩ := Option.map_eq_some_iff.mp h
  rfl

theorem network_closeTcp (h : stack.closeTcp streamId = some stack') :
    stack'.network = stack.network := by
  obtain ⟨slots, -, rfl⟩ := Option.map_eq_some_iff.mp h
  rfl

theorem Running.closeTcp (h : Running network routes tunnel)
    (hclose : tunnel.stack.closeTcp streamId = some stack) :
    Running network routes { tunnel with stack } :=
  ⟨h.ready.closeTcp hclose, (network_closeTcp hclose).trans h.network, h.consistent, h.routes⟩

theorem Running.sendTcp (h : Running network routes tunnel)
    (hsend : tunnel.stack.sendTcp streamId bytes = some stack) :
    Running network routes { tunnel with stack } :=
  ⟨h.ready.sendTcp hsend, (network_sendTcp hsend).trans h.network, h.consistent, h.routes⟩

theorem Running.removeStream (h : Running network routes tunnel) (streamId : String)
    (connects : Bool) :
    Running network routes
      { tunnel with backends := tunnel.backends.removeStream streamId connects } := by
  obtain ⟨hconsistent, hroutes⟩ :=
    StreamBackends.removeStream_spec h.consistent streamId connects
  exact ⟨h.ready, h.network, hconsistent, hroutes.trans h.routes⟩

theorem Running.endStream (h : Running network routes tunnel) (streamId : String)
    (connects : Bool) : Running network routes (tunnel.endStream streamId connects) := by
  unfold Tunnel.endStream
  cases hclose : tunnel.stack.closeTcp streamId with
  | none => exact h.removeStream streamId connects
  | some stack => exact (h.closeTcp hclose).removeStream streamId connects

variable {outcome : Outcome}

theorem Running.openBackend (h : Running network routes tunnel) {serviceId : String}
    (hopen : tunnel.openBackend outcome streamId serviceId = some tunnel') :
    Running network routes tunnel' := by
  unfold Tunnel.openBackend at hopen
  split at hopen
  · obtain ⟨stack, hclose, rfl⟩ := Option.map_eq_some_iff.mp hopen
    exact h.closeTcp hclose
  · split at hopen
    next backend backends htake =>
      cases hopen
      obtain ⟨idle, rfl, hidle⟩ := StreamBackends.takeOrConnectBackend_eq htake
      exact ⟨h.ready, h.network, fun x hx => h.consistent x (hidle hx), h.routes⟩
    next =>
      obtain ⟨stack, hclose, rfl⟩ := Option.map_eq_some_iff.mp hopen
      -- the diagnostic is sent or it is not
      cases hsend : tunnel.stack.sendTcp streamId outcome.diagnostic with
      | none =>
        rw [hsend] at hclose
        exact h.closeTcp hclose
      | some sent =>
        rw [hsend] at hclose
        exact (h.sendTcp hsend).closeTcp hclose

/-- A new connection gets a backend of the route of its service if connecting succeeds. -/
theorem Running.exists_openBackend (h : Running network routes tunnel) {serviceId : String}
    {route : BackendRoute} (hroute : routes.lookup serviceId = some route)
    (hconnects : outcome.connects = true) (streamId : String) :
    ∃ opened, tunnel.openBackend outcome streamId serviceId = some opened
      ∧ opened.backends.streams.lookup streamId = some route := by
  rw [← h.routes] at hroute
  obtain ⟨rest, htake⟩ := StreamBackends.exists_takeOrConnectBackend h.consistent hroute
  simp only [Tunnel.openBackend, hroute, hconnects, htake]
  exact ⟨_, rfl, by simp⟩

theorem Running.handleEvent (h : Running network routes tunnel) {event : TcpPumpEvent}
    (hevent : tunnel.handleEvent outcome event = some tunnel') :
    Running network routes tunnel' := by
  cases event with
  | connected streamId serviceId => exact h.openBackend hevent
  | received streamId serviceId bytes =>
    simp only [Tunnel.handleEvent] at hevent
    split at hevent
    · cases hevent
      exact h.endStream streamId outcome.connects
    · cases hevent
      exact h
  | closed streamId serviceId =>
    cases hevent
    exact h.removeStream streamId outcome.connects

theorem handleEvents_cons {outcomes : Nat → Outcome} {x : TcpPumpEvent × Nat}
    {events : List (TcpPumpEvent × Nat)} :
    tunnel.handleEvents outcomes (x :: events) = some tunnel'
      ↔ ∃ mid, tunnel.handleEvent (outcomes x.2) x.1 = some mid
        ∧ mid.handleEvents outcomes events = some tunnel' := by
  rw [Tunnel.handleEvents, List.foldlM_cons, Option.bind_eq_bind, Option.bind_eq_some_iff]
  rfl

theorem handleEvents_append {outcomes : Nat → Outcome} {before after : List (TcpPumpEvent × Nat)} :
    tunnel.handleEvents outcomes (before ++ after) = some tunnel'
      ↔ ∃ mid, tunnel.handleEvents outcomes before = some mid
        ∧ mid.handleEvents outcomes after = some tunnel' := by
  rw [Tunnel.handleEvents, List.foldlM_append, Option.bind_eq_bind, Option.bind_eq_some_iff]
  rfl

theorem Running.handleEvents (outcomes : Nat → Outcome) (events : List (TcpPumpEvent × Nat))
    (h : Running network routes tunnel)
    (hevents : tunnel.handleEvents outcomes events = some tunnel') :
    Running network routes tunnel' := by
  induction events generalizing tunnel with
  | nil =>
    cases hevents
    exact h
  | cons event events ih =>
    obtain ⟨mid, hmid, hrest⟩ := handleEvents_cons.mp hevents
    exact ih (h.handleEvent hmid) hrest

/-- If every backend is connected, the loop goes on. -/
theorem Running.exists_handleEvents {outcomes : Nat → Outcome}
    (hconnects : ∀ k, (outcomes k).connects = true) (h : Running network routes tunnel)
    {events : List (TcpPumpEvent × Nat)}
    (hroutes : ∀ streamId serviceId k, (.connected streamId serviceId, k) ∈ events →
      ∃ route, routes.lookup serviceId = some route) :
    ∃ tunnel', tunnel.handleEvents outcomes events = some tunnel' := by
  induction events generalizing tunnel with
  | nil => exact ⟨tunnel, rfl⟩
  | cons event events ih =>
    obtain ⟨event, k⟩ := event
    have hstep : ∃ mid, tunnel.handleEvent (outcomes k) event = some mid := by
      cases event with
      | connected streamId serviceId =>
        obtain ⟨route, hroute⟩ := hroutes streamId serviceId k List.mem_cons_self
        obtain ⟨mid, hmid, -⟩ := h.exists_openBackend hroute (hconnects k) streamId
        exact ⟨mid, hmid⟩
      | received streamId serviceId bytes =>
        simp only [Tunnel.handleEvent]
        split <;> exact ⟨_, rfl⟩
      | closed streamId serviceId => exact ⟨_, rfl⟩
    obtain ⟨mid, hmid⟩ := hstep
    obtain ⟨tunnel', hrest⟩ := ih (h.handleEvent hmid) fun streamId serviceId k hmem =>
      hroutes streamId serviceId k (List.mem_cons_of_mem _ hmem)
    exact ⟨tunnel', handleEvents_cons.mpr ⟨mid, hmid, hrest⟩⟩

/-- An event of another stream, or bytes that are written to the backend. -/
def Spares (streamId : String) (outcome : Outcome) : TcpPumpEvent → Prop
  | .connected other _ => other ≠ streamId
  | .received other _ _ => other = streamId → outcome.writeFails = false
  | .closed other _ => other ≠ streamId

theorem lookup_handleEvent {event : TcpPumpEvent} (hspares : Spares streamId outcome event)
    (h : tunnel.handleEvent outcome event = some tunnel') :
    tunnel'.backends.streams.lookup streamId = tunnel.backends.streams.lookup streamId := by
  cases event with
  | connected other serviceId =>
    simp only [Tunnel.handleEvent, Tunnel.openBackend] at h
    split at h
    · obtain ⟨stack, -, rfl⟩ := Option.map_eq_some_iff.mp h
      rfl
    · split at h
      next backend backends htake =>
        cases h
        obtain ⟨idle, rfl, -⟩ := StreamBackends.takeOrConnectBackend_eq htake
        rw [List.lookup_cons, beq_false_of_ne (Ne.symm hspares)]
      next =>
        obtain ⟨stack, -, rfl⟩ := Option.map_eq_some_iff.mp h
        rfl
  | received other serviceId bytes =>
    simp only [Tunnel.handleEvent] at h
    split at h
    next hfails =>
      cases h
      refine StreamBackends.lookup_removeStream (fun hother => ?_) outcome.connects
      exact Bool.false_ne_true ((hspares hother).symm.trans hfails.2)
    next =>
      cases h
      rfl
  | closed other serviceId =>
    cases h
    exact StreamBackends.lookup_removeStream hspares outcome.connects

theorem lookup_handleEvents {outcomes : Nat → Outcome} {events : List (TcpPumpEvent × Nat)}
    (hspares : ∀ x ∈ events, Spares streamId (outcomes x.2) x.1)
    (h : tunnel.handleEvents outcomes events = some tunnel') :
    tunnel'.backends.streams.lookup streamId = tunnel.backends.streams.lookup streamId := by
  induction events generalizing tunnel with
  | nil =>
    cases h
    rfl
  | cons event events ih =>
    obtain ⟨mid, hmid, hrest⟩ := handleEvents_cons.mp h
    obtain ⟨hevent, hevents⟩ := List.forall_mem_cons.mp hspares
    exact (ih hevents hrest).trans (lookup_handleEvent hevent hmid)

/-- The tunnel keeps its network and its routes. -/
theorem step_running (h : Running network routes tunnel) {event : Event}
    (hstep : tunnel.step event = some tunnel') : Running network routes tunnel' := by
  cases event with
  | push packet =>
    cases hstep
    have hpush :
        tunnel.stack.step (.push packet) = some (tunnel.stack.pushTunPacket packet) := rfl
    exact ⟨MediumStack.step_ready h.ready hpush, h.network, h.consistent, h.routes⟩
  | pop =>
    cases hstep
    have hpop : tunnel.stack.step .pop = some tunnel.stack.popTunPacket.2 := rfl
    refine ⟨MediumStack.step_ready h.ready hpop, ?_, h.consistent, h.routes⟩
    rw [← h.network]
    unfold MediumStack.popTunPacket
    dsimp only
    split <;> rfl
  | poll now first second outcomes =>
    rcases MediumStack.poll_spec h.ready now first second with
      ⟨-, events, after, hpoll, hready, hnetwork, -⟩ | ⟨-, e, he⟩
    · simp only [step, hpoll] at hstep
      have hafter : Running network routes { tunnel with stack := after } :=
        ⟨hready, hnetwork.trans h.network, h.consistent, h.routes⟩
      exact Running.handleEvents outcomes _ hafter hstep
    · simp [step, he] at hstep
  | write streamId bytes =>
    obtain ⟨stack, hsend, rfl⟩ := Option.map_eq_some_iff.mp hstep
    exact h.sendTcp hsend
  | finish streamId connects =>
    cases hstep
    exact h.endStream streamId connects

theorem exec_running (h : Running network routes tunnel) {events : List Event}
    (hrun : Trace.exec step tunnel events = some tunnel') : Running network routes tunnel' :=
  Trace.exec_invariant_all (fun _ _ _ hI hstep => step_running hI hstep) events _ _ h hrun

end Tunnel

/-! ## From the catalogue to the routes -/

theorem map_snd_entries (devices : List DeviceRecord) :
    (entries devices).map Prod.snd = devices.flatMap DeviceRecord.services := by
  simp [entries, List.map_flatMap, Function.comp_def]

/-- The services that the network stack is given. -/
def published (devices : List DeviceRecord) : List Netstack.PublishedService :=
  (entries devices).map fun x => ⟨x.2.id, x.2.label, x.2.kind⟩

variable {devices : List DeviceRecord}

theorem published_getElem? {i : Nat} {service : Netstack.PublishedService}
    (h : (published devices)[i]? = some service) :
    ∃ x, (entries devices)[i]? = some x ∧ service.id = x.2.id := by
  obtain ⟨x, hx, rfl⟩ := Option.map_eq_some_iff.mp (List.getElem?_map ▸ h)
  exact ⟨x, hx, rfl⟩

theorem services_parseServices (devices : List DeviceRecord)
    (grants : List (String × SessionOpenGrant)) (controlPin : Option String) :
    (parseServices (mediumRoutingServices devices grants controlPin)).services
      = published devices := by
  simp [parseServices, mediumRoutingServices, published, ← map_snd_entries, Function.comp_def]

/-- A map with one value for a key. -/
theorem lookup_of_forall {β : Type} {l : List (String × β)} {key : String} {value : β}
    (hmem : ∃ x ∈ l, x.1 = key) (hvalue : ∀ x ∈ l, x.1 = key → x.2 = value) :
    l.lookup key = some value := by
  cases hlookup : l.lookup key with
  | none =>
    obtain ⟨x, hx, rfl⟩ := hmem
    exact absurd (List.lookup_eq_none_iff.mp hlookup x hx) (by simp)
  | some found =>
    obtain ⟨l₁, l₂, hl, -⟩ := List.lookup_eq_some_iff.mp hlookup
    rw [← hvalue (key, found) (by simp [hl]) rfl]

variable {x : DeviceRecord × PublishedService} {grant : SessionOpenGrant}

section Sessions

variable {openSession : Nat → String → Except AnyhowError SessionOpenGrant}
  {devices : List DeviceRecord} {grants : List (String × SessionOpenGrant)}

theorem sessionGrants_eq_ok_iff :
    sessionGrants openSession devices = .ok grants
      ↔ List.Forall₂ (fun x y => y.1 = x.1.id ∧ openSession x.2 x.1.id = .ok y.2)
        (devices.flatMap DeviceRecord.services).zipIdx grants.reverse := by
  have hone : ∀ (x : PublishedService × Nat) (y : String × SessionOpenGrant),
      (openSession x.2 x.1.id).map (fun grant => (x.1.id, grant)) = .ok y
        ↔ y.1 = x.1.id ∧ openSession x.2 x.1.id = .ok y.2 := by
    rintro x ⟨id, grant⟩
    cases openSession x.2 x.1.id with
    | error e => simp [Except.map]
    | ok found => simp [Except.map, eq_comm]
  simp only [← hone, ← Table.mapM_eq_ok_iff]
  unfold sessionGrants
  cases (devices.flatMap DeviceRecord.services).zipIdx.mapM fun x =>
      (openSession x.2 x.1.id).map fun grant => (x.1.id, grant) with
  | error e => simp [Except.map]
  | ok out =>
    simp only [Except.map, Except.ok.injEq]
    exact ⟨fun h => by simp [← h], fun h => by simp [h]⟩

/-- The sessions are opened if each one is. -/
theorem exists_sessionGrants_iff :
    (∃ grants, sessionGrants openSession devices = .ok grants)
      ↔ ∀ k x, (entries devices)[k]? = some x → ∃ grant, openSession k x.2.id = .ok grant := by
  have hgrants : (∃ grants, sessionGrants openSession devices = .ok grants)
      ↔ ∀ x ∈ (devices.flatMap DeviceRecord.services).zipIdx,
        ∃ y : String × SessionOpenGrant, y.1 = x.1.id ∧ openSession x.2 x.1.id = .ok y.2 := by
    simp only [sessionGrants_eq_ok_iff, ← Table.exists_forall₂_iff]
    exact ⟨fun ⟨grants, h⟩ => ⟨_, h⟩, fun ⟨out, h⟩ => ⟨out.reverse, by simpa using h⟩⟩
  rw [hgrants, ← map_snd_entries]
  constructor
  · intro h k x hx
    obtain ⟨y, -, hy⟩ := h (x.2, k) (List.mem_zipIdx_iff_getElem?.mpr (by simp [hx]))
    exact ⟨y.2, hy⟩
  · rintro h ⟨service, k⟩ hmem
    have hservice := List.mem_zipIdx_iff_getElem?.mp hmem
    rw [List.getElem?_map, Option.map_eq_some_iff] at hservice
    obtain ⟨x, hx, rfl⟩ := hservice
    obtain ⟨grant, hgrant⟩ := h k x hx
    exact ⟨(x.2.id, grant), rfl, hgrant⟩

/-- The grant that the app has for a service is one that it was given for its id. -/
theorem exists_lookup_grants (h : sessionGrants openSession devices = .ok grants)
    (hx : x ∈ entries devices) :
    ∃ grant k, grants.lookup x.2.id = some grant ∧ openSession k x.2.id = .ok grant := by
  rw [sessionGrants_eq_ok_iff, ← map_snd_entries] at h
  obtain ⟨k, hk⟩ := List.mem_iff_getElem?.mp hx
  have hindex : (x.2, k) ∈ ((entries devices).map Prod.snd).zipIdx :=
    List.mem_zipIdx_iff_getElem?.mpr (by simp [hk])
  obtain ⟨y, hy, hid, -⟩ := Table.exists_mem_of_forall₂ h.flip hindex
  cases hlookup : grants.lookup x.2.id with
  | none =>
    exact absurd (List.lookup_eq_none_iff.mp hlookup y (List.mem_reverse.mp hy)) (by simp [hid])
  | some grant =>
    obtain ⟨l₁, l₂, hl, -⟩ := List.lookup_eq_some_iff.mp hlookup
    have hmem : (x.2.id, grant) ∈ grants.reverse := by simp [hl]
    obtain ⟨z, -, hzid, hz⟩ := Table.exists_mem_of_forall₂ h hmem
    refine ⟨grant, z.2, rfl, ?_⟩
    rw [← hzid] at hz
    exact hz

/-- The route of a service has the grant for its id. -/
theorem lookup_routes (hx : x ∈ entries devices) (hgrant : grants.lookup x.2.id = some grant)
    (controlPin : Option String) :
    (parseServices (mediumRoutingServices devices grants controlPin)).routes.lookup x.2.id
      = some (.sessionGrant grant (controlPin.filter fun pin => !isBlank pin)) := by
  have hroutes : ∀ y ∈ (parseServices (mediumRoutingServices devices grants controlPin)).routes,
      ∃ service ∈ devices.flatMap DeviceRecord.services, y.1 = service.id
        ∧ (service.id = x.2.id →
          y.2 = .sessionGrant grant (controlPin.filter fun pin => !isBlank pin)) := by
    intro y hy
    simp only [parseServices, mediumRoutingServices, List.map_map, List.mem_reverse,
      List.mem_map] at hy
    obtain ⟨service, hservice, rfl⟩ := hy
    refine ⟨service, hservice, rfl, fun hid => ?_⟩
    simp [AndroidService.route, hid, hgrant]
  refine lookup_of_forall ?_ fun y hy hid => ?_
  · have hmem : x.2 ∈ devices.flatMap DeviceRecord.services :=
      map_snd_entries devices ▸ List.mem_map_of_mem hx
    simp only [parseServices, mediumRoutingServices, List.map_map, List.mem_reverse, List.mem_map]
    exact ⟨_, ⟨x.2, hmem, rfl⟩, rfl⟩
  · obtain ⟨service, -, hservice, hvalue⟩ := hroutes y hy
    exact hvalue (hservice.symm.trans hid)

end Sessions

variable {lowercase : Lowercase}

/-- The tunnel of a catalogue starts if every session is opened and there are addresses
for all services. -/
theorem startRouting_eq_some_iff {interface : Interface} {capacity : Nat}
    {openSession : Nat → String → Except AnyhowError SessionOpenGrant} {controlPin : Option String}
    {connects : String → Bool} {tunnel : Tunnel interface} :
    startRouting interface capacity lowercase openSession controlPin connects devices = some tunnel
      ↔ ∃ grants, sessionGrants openSession devices = .ok grants
        ∧ (entries devices).length ≤ 201 ∧ 1 + (entries devices).length ≤ capacity
        ∧ tunnel = ⟨.withAddrs interface (network lowercase (published devices))
            (cidrs (network lowercase (published devices))),
          (StreamBackends.new (parseServices
            (mediumRoutingServices devices grants controlPin)).routes).warmUp connects⟩ := by
  have hlen : (published devices).length = (entries devices).length := by simp [published]
  unfold startRouting
  cases hgrants : sessionGrants openSession devices with
  | error e => simp
  | ok grants =>
    simp only [Tunnel.start, services_parseServices, Except.ok.injEq, exists_eq_left']
    cases hnew : VirtualNetwork.new lowercase (published devices) with
    | error e =>
      simp only [reduceCtorEq, false_iff]
      rintro ⟨hle, -⟩
      have hok : VirtualNetwork.new lowercase (published devices) = .ok _ :=
        VirtualNetwork.new_eq_ok_iff.mpr ⟨hlen.trans_le hle, rfl⟩
      rw [hnew] at hok
      cases hok
    | ok net =>
      obtain ⟨hle, rfl⟩ := VirtualNetwork.new_eq_ok_iff.mp hnew
      simp only [Option.map_eq_some_iff, stack_eq_some_iff, hlen, hlen ▸ hle, true_and]
      constructor
      · rintro ⟨stack, ⟨hroom, rfl⟩, rfl⟩
        exact ⟨hroom, rfl⟩
      · rintro ⟨hroom, rfl⟩
        exact ⟨_, ⟨hroom, rfl⟩, rfl⟩

/-- A tunnel runs from the start on. -/
theorem running_start {interface : Interface} {services : List Netstack.PublishedService}
    (routes : List (String × BackendRoute)) (connects : String → Bool) :
    Tunnel.Running (network lowercase services) routes
      (⟨.withAddrs interface (network lowercase services) (cidrs (network lowercase services)),
        (StreamBackends.new routes).warmUp connects⟩ : Tunnel interface) := by
  obtain ⟨hconsistent, hroutes⟩ := StreamBackends.warmUp_spec routes connects
  have hnew : MediumStack.new interface (1 + services.length) (network lowercase services)
      = some _ := stack_eq_some_iff.mpr ⟨le_refl _, rfl⟩
  exact ⟨MediumStack.new_ready hnew, rfl, hconsistent, hroutes⟩

/-! ## Connections -/

/-- A stream has a backend with a grant for a service of a node. -/
def Tunnel.Backed {interface : Interface} (tunnel : Tunnel interface)
    (streamId nodeId serviceId : String) : Prop :=
  ∃ grant pin, tunnel.backends.streams.lookup streamId = some (.sessionGrant grant pin)
    ∧ grant.nodeId = nodeId ∧ grant.serviceId = serviceId

/-- At a poll, connections to an address are for a service of a node: a socket listens there, and
each new connection is reported.  If its backend is connected, its stream has it from the event
on, and after the poll unless a later event ends the stream. -/
structure Tunnel.Served {interface : Interface} (tunnel : Tunnel interface) (addr : Ipv4Address)
    (nodeId serviceId : String) (now : Int) (first second : IfacePoll) : Prop where
  listens : ∃ prepared, tunnel.stack.prepare = .ok prepared
    ∧ ∃ slot ∈ prepared.tcpSlots, slot.socket.state = .listen
      ∧ slot.socket.endpoint = some (addr, HTTPS_PORT) ∧ slot.streamId = none
  opens : ∀ prepared events after, tunnel.stack.prepare = .ok prepared →
    tunnel.stack.poll now first second = .ok (events, after) →
      ∀ slot ∈ (prepared.ifacePoll now first).tcpSlots,
        slot.socket.localEndpoint = some (addr, HTTPS_PORT) →
        slot.socket.state = .established → slot.streamId = none →
          ∃ k streamId, events[k]? = some (.connected streamId slot.serviceId)
            ∧ ∀ outcomes : Nat → Outcome, (outcomes k).connects = true →
              (∀ before, handleEvents { tunnel with stack := after } outcomes
                  (events.zipIdx.take k) = some before →
                ∃ opened, before.handleEvent (outcomes k)
                    (.connected streamId slot.serviceId) = some opened
                  ∧ opened.Backed streamId nodeId serviceId)
              ∧ ∀ reached, tunnel.step (.poll now first second outcomes) = some reached →
                (∀ x ∈ events.zipIdx.drop (k + 1), Spares streamId (outcomes x.2) x.1) →
                  reached.Backed streamId nodeId serviceId

variable {serviceId : String}

section Connections

variable {interface : Interface} {lowercase : Lowercase}
  {services : List Netstack.PublishedService} {tunnel : Tunnel interface}
  {routes : List (String × BackendRoute)}

/-- The first service with an id. -/
theorem find?_network {first : VirtualService}
    (h : (network lowercase services).services.find? (·.id = serviceId) = some first) :
    ∃ j service, services[j]? = some service ∧ first = virtualService lowercase (service, j)
      ∧ service.id = serviceId
      ∧ ∀ k other, k < j → services[k]? = some other → other.id ≠ serviceId := by
  obtain ⟨hid, j, hj, hfirst, hbefore⟩ := List.find?_eq_some_iff_getElem.mp h
  obtain ⟨service, hservice, rfl⟩ :=
    services_getElem?.mp ((List.getElem?_eq_getElem hj).trans (congrArg some hfirst))
  refine ⟨j, service, hservice, rfl, of_decide_eq_true hid, ?_⟩
  intro k other hk hother hsame
  obtain ⟨_, hget⟩ := List.getElem?_eq_some_iff.mp (services_getElem?.mpr ⟨other, hother, rfl⟩)
  have hne := hbefore k hk
  rw [hget, decide_eq_true (show (virtualService lowercase (other, k)).id = serviceId from hsame)]
    at hne
  cases hne

variable {i : Nat}

/-- A slot at the address of a service is for its id, and no service before it has
that id. -/
theorem serviceId_of_placed (hlen : services.length ≤ 201) {slot : TcpSlot}
    (h : slot.Placed (network lowercase services)) (hstate : slot.socket.state ≠ .closed)
    (hi : i < services.length) {port : Nat}
    (hendpoint : slot.socket.endpoint = some (addrAt i, port)) :
    slot.port = port ∧ (∃ service, services[i]? = some service ∧ service.id = slot.serviceId)
      ∧ ∀ j other, j < i → services[j]? = some other → other.id ≠ slot.serviceId := by
  obtain ⟨first, hfind, hplaced⟩ := h.service
  obtain ⟨j, service, hservice, rfl, hid, hbefore⟩ := find?_network hfind
  obtain ⟨haddr, hport⟩ := Prod.mk.inj (Option.some.inj ((hplaced hstate).symm.trans hendpoint))
  have hj := (List.getElem?_eq_some_iff.mp hservice).1
  obtain rfl : j = i := addrAt_inj (by omega) (by omega) haddr
  exact ⟨hport, ⟨service, hservice, hid⟩, hbefore⟩

variable {service : Netstack.PublishedService}

/-- The listener for the first service with an id waits at its address. -/
theorem exists_listener {slots : List TcpSlot}
    (hplaced : ∀ slot ∈ slots, slot.Placed (network lowercase services))
    (hi : services[i]? = some service)
    (hfirst : ∀ j other, j < i → services[j]? = some other → other.id ≠ service.id)
    (hlistener : hasListener slots service.id HTTPS_PORT) :
    ∃ slot ∈ slots, slot.socket.state = .listen
      ∧ slot.socket.endpoint = some (addrAt i, HTTPS_PORT) ∧ slot.streamId = none := by
  obtain ⟨slot, hslot, hmatch⟩ := List.any_eq_true.mp hlistener
  obtain ⟨hid, hport, hstream, hstate⟩ := of_decide_eq_true hmatch
  obtain ⟨first, hfind, hendpoint⟩ := (hplaced slot hslot).service
  obtain ⟨j, other, hother, rfl, hotherId, hbefore⟩ := find?_network hfind
  refine ⟨slot, hslot, hstate, ?_, hstream⟩
  rw [hendpoint (by simp [hstate]), hport]
  -- neither of the two can come before the other
  rcases Nat.lt_trichotomy j i with hlt | rfl | hgt
  · exact absurd (hotherId.trans hid) (hfirst j other hlt hother)
  · rfl
  · exact absurd hid.symm (hbefore i service hgt hi)

/-- A running tunnel serves the first service with an id, by the route of the id. -/
theorem served_of_first (h : Tunnel.Running (network lowercase services) routes tunnel)
    (hlen : services.length ≤ 201) (hi : services[i]? = some service)
    (hfirst : ∀ j other, j < i → services[j]? = some other → other.id ≠ service.id)
    {pin : Option String} (hroute : routes.lookup service.id = some (.sessionGrant grant pin))
    (now : Int) (first second : IfacePoll) :
    tunnel.Served (addrAt i) grant.nodeId grant.serviceId now first second := by
  obtain ⟨slots, hprepare, hplaced, hlisteners⟩ := MediumStack.prepare_spec h.ready
  rw [h.network] at hplaced hlisteners
  have hvirtual : virtualService lowercase (service, i) ∈ (network lowercase services).services :=
    List.mem_of_getElem? (services_getElem?.mpr ⟨service, hi, rfl⟩)
  refine ⟨⟨_, hprepare, exists_listener hplaced hi hfirst (hlisteners _ hvirtual).2⟩, ?_⟩
  intro prepared events after hprepared hpoll slot hslot hendpoint hstate hstream
  cases hprepare.symm.trans hprepared
  have hslotPlaced := MediumStack.placed_mapIdx first hplaced slot hslot
  rw [TcpSocket.localEndpoint, hstate] at hendpoint
  obtain ⟨hport, ⟨other, hother, hid⟩, -⟩ := serviceId_of_placed hlen hslotPlaced
    (by simp [hstate]) (List.getElem?_eq_some_iff.mp hi).1 hendpoint
  obtain rfl : other = service := Option.some.inj (hother.symm.trans hi)
  rw [hid] at hroute
  rcases MediumStack.poll_spec h.ready now first second with
    ⟨-, events', after', hpoll', hready, hnetwork, hreports⟩ | ⟨-, e, he⟩
  · cases hpoll.symm.trans hpoll'
    have hafter : Tunnel.Running (network lowercase services) routes
        { tunnel with stack := after } :=
      ⟨hready, hnetwork.trans h.network, h.consistent, h.routes⟩
    obtain ⟨streamId, hmem⟩ :=
      (hreports _ hprepare).complete slot hslot hstate hstream hport
    obtain ⟨k, hk⟩ := List.mem_iff_getElem?.mp hmem
    have hopened : ∀ outcomes before, (outcomes k).connects = true →
        Tunnel.handleEvents { tunnel with stack := after } outcomes (events.zipIdx.take k)
          = some before →
        ∃ opened, before.handleEvent (outcomes k) (.connected streamId slot.serviceId)
          = some opened ∧ opened.Backed streamId grant.nodeId grant.serviceId := by
      intro outcomes before hconnects hbefore
      obtain ⟨opened, hopen, hbackend⟩ :=
        (hafter.handleEvents outcomes _ hbefore).exists_openBackend hroute hconnects streamId
      exact ⟨opened, hopen, grant, pin, hbackend, rfl, rfl⟩
    refine ⟨k, streamId, hk, fun outcomes hconnects =>
      ⟨fun before => hopened outcomes before hconnects, fun reached hstep hspares => ?_⟩⟩
    -- the poll is the events before, the connection and the events behind it
    simp only [Tunnel.step, hpoll] at hstep
    have hsplit : events.zipIdx = events.zipIdx.take k
        ++ (.connected streamId slot.serviceId, k) :: events.zipIdx.drop (k + 1) := by
      have hget : events.zipIdx[k]? = some (.connected streamId slot.serviceId, k) := by
        simp [List.getElem?_zipIdx, hk]
      obtain ⟨hlt, hget⟩ := List.getElem?_eq_some_iff.mp hget
      rw [← hget, ← List.drop_eq_getElem_cons, List.take_append_drop]
    rw [hsplit, Tunnel.handleEvents_append] at hstep
    obtain ⟨before, hbefore, hrest⟩ := hstep
    obtain ⟨opened, hopen, hrest⟩ := Tunnel.handleEvents_cons.mp hrest
    obtain ⟨opened', hopen', grant', pin', hbackend, hgrant⟩ :=
      hopened outcomes before hconnects hbefore
    cases hopen.symm.trans hopen'
    exact ⟨grant', pin', (Tunnel.lookup_handleEvents hspares hrest).trans hbackend, hgrant⟩
  · cases hpoll.symm.trans he

/-- Every listener gets a connection. -/
def connectAll : IfacePoll where
  tcp _ socket := if socket.state = .listen then { socket with state := .established } else socket
  evolves _ socket := by
    refine ⟨fun h => ?_, fun _ => ?_⟩
    · rw [if_neg (by simp [h]), h]
    · split <;> rfl
  sent := 0
  written := []

/-- Every backend is connected, and written to. -/
def connectedOutcomes (_ : Nat) : Outcome := ⟨true, false, []⟩

/-- Without packets a poll has nothing to answer. -/
theorem answerable_of_deviceRx {stack : MediumStack interface} (h : stack.Ready)
    (hrx : stack.deviceRx = []) (now : Int) (first second : IfacePoll) :
    stack.Answerable (.poll now first second) := by
  have hempty : stack.dns.rx.entries = [] := by simpa [PacketBuffer.isEmpty] using h.rx
  simp only [MediumStack.Answerable, MediumStack.received, hrx, List.foldl_nil,
    PacketBuffer.packets, hempty, List.filterMap_nil]
  exact sendable_nil

/-- What is served at the address of a service is the route of its id, and the service is
the first with the id. -/
theorem first_of_served (h : Tunnel.Running (network lowercase services) routes tunnel)
    (hroutes : ∀ service ∈ services, ∃ route, routes.lookup service.id = some route)
    (hrx : tunnel.stack.deviceRx = []) (hlen : services.length ≤ 201)
    (hi : services[i]? = some service) {nodeId : String}
    (hserved : tunnel.Served (addrAt i) nodeId serviceId 0 connectAll connectAll) :
    (∀ j other, j < i → services[j]? = some other → other.id ≠ service.id)
      ∧ ∃ grant pin, routes.lookup service.id = some (.sessionGrant grant pin)
        ∧ grant.nodeId = nodeId ∧ grant.serviceId = serviceId := by
  obtain ⟨prepared, hprepare, slot, hslot, hstate, hendpoint, hstream⟩ := hserved.listens
  obtain ⟨slots, hprepare', hplaced, -⟩ := MediumStack.prepare_spec h.ready
  cases hprepare'.symm.trans hprepare
  rw [h.network] at hplaced
  obtain ⟨-, ⟨other, hother, hid⟩, hfirst⟩ := serviceId_of_placed hlen (hplaced slot hslot)
    (by simp [hstate]) (List.getElem?_eq_some_iff.mp hi).1 hendpoint
  obtain rfl : other = service := Option.some.inj (hother.symm.trans hi)
  refine ⟨fun j other hj hother => hid ▸ hfirst j other hj hother, ?_⟩
  -- a connection comes to the listener
  rcases MediumStack.poll_spec h.ready 0 connectAll connectAll with
    ⟨-, events, after, hpoll, hready, hnetwork, hreports⟩ | ⟨hanswer, -⟩
  · obtain ⟨k, hk, hget⟩ := List.mem_iff_getElem.mp hslot
    have hconnected : { slot with socket := { slot.socket with state := .established } }
        ∈ ((tunnel.stack.listening slots).ifacePoll 0 connectAll).tcpSlots := by
      refine List.mem_mapIdx.mpr ⟨k, hk, ?_⟩
      rw [hget]
      simp [connectAll, hstate]
    obtain ⟨k, streamId, hk, hopens⟩ := hserved.opens _ events after hprepare' hpoll _
      hconnected hendpoint rfl hstream
    -- the backends of all connections are connected
    have hafter : Tunnel.Running (network lowercase services) routes
        { tunnel with stack := after } :=
      ⟨hready, hnetwork.trans h.network, h.consistent, h.routes⟩
    have hreported : ∀ streamId serviceId n, (.connected streamId serviceId, n)
        ∈ events.zipIdx.take k → ∃ route, routes.lookup serviceId = some route := by
      intro streamId serviceId n hmem
      obtain ⟨slot, hslot, rfl⟩ := (hreports _ hprepare').sound streamId serviceId
        (List.fst_mem_of_mem_zipIdx (List.mem_of_mem_take hmem))
      obtain ⟨first, hfind, -⟩ :=
        (MediumStack.placed_mapIdx connectAll hplaced slot hslot).service
      obtain ⟨j, service, hservice, -, hid, -⟩ := find?_network hfind
      exact hid ▸ hroutes service (List.mem_of_getElem? hservice)
    have hconnects : ∀ n, (connectedOutcomes n).connects = true := fun _ => rfl
    obtain ⟨before, hbefore⟩ := hafter.exists_handleEvents hconnects hreported
    obtain ⟨opened, hopen, grant, pin, hbackend, hgrant⟩ :=
      (hopens connectedOutcomes (hconnects k)).1 before hbefore
    obtain ⟨route, hroute⟩ := hroutes other (List.mem_of_getElem? hi)
    obtain ⟨opened', hopen', hbackend'⟩ := (hafter.handleEvents _ _ hbefore).exists_openBackend
      (hid ▸ hroute) (hconnects k) streamId
    cases hopen.symm.trans hopen'
    cases hbackend.symm.trans hbackend'
    exact ⟨grant, pin, hroute, hgrant⟩
  · exact absurd (answerable_of_deviceRx h.ready hrx 0 connectAll connectAll) hanswer

end Connections

/-- The session of a service that a client asks for without a node. -/
def openSession (codec : TokenCodec) (text : AddrText) (draws : Nat → GrantDraw)
    (settings : SessionSettings) (deviceName : String) (call : Nat) (serviceId : String) :
    Except AnyhowError SessionOpenGrant :=
  issueSessionGrant codec text (draws call) settings ⟨serviceId, deviceName, none⟩

variable {codec : TokenCodec} {text : AddrText} {draws : Nat → GrantDraw}
  {settings : SessionSettings} {deviceName : String}

theorem openSession_ok {call : Nat}
    (h : openSession codec text draws settings deviceName call serviceId = .ok grant) :
    grant.serviceId = serviceId
      ∧ ∃ found, settings.registry.resolveServiceRoute serviceId = .ok found
        ∧ grant.nodeId = found.nodeId := by
  unfold openSession issueSessionGrant at h
  obtain ⟨found, hroute, h⟩ := Fallible.bind_eq_ok_iff.mp h
  obtain ⟨ice, -, h⟩ := Fallible.bind_eq_ok_iff.mp h
  cases h
  exact ⟨rfl, found, hroute, rfl⟩

/-- The route of a service is a session with the node that the control plane routes its
id to. -/
theorem exists_route {grants : List (String × SessionOpenGrant)}
    (h : sessionGrants (openSession codec text draws settings deviceName) devices = .ok grants)
    (hx : x ∈ entries devices) (controlPin : Option String) :
    ∃ grant pin found,
      (parseServices (mediumRoutingServices devices grants controlPin)).routes.lookup x.2.id
          = some (.sessionGrant grant pin)
        ∧ grant.serviceId = x.2.id
        ∧ settings.registry.resolveServiceRoute x.2.id = .ok found
        ∧ grant.nodeId = found.nodeId := by
  obtain ⟨grant, k, hlookup, hopen⟩ := exists_lookup_grants h hx
  obtain ⟨hservice, found, hfound, hnode⟩ := openSession_ok hopen
  exact ⟨grant, _, found, lookup_routes hx hlookup controlPin, hservice, hfound, hnode⟩

/-- A connection to the address of a service that the app shows opens a session with the
service of its device exactly if three things hold.  The tunnel starts, so every session
is opened and there are addresses for all services.  No service before it has its id.
And the control plane routes the id to the device. -/
theorem routed_iff (interface : Interface) (capacity : Nat) (lowercase : Lowercase)
    (codec : TokenCodec) (text : AddrText) (draws : Nat → GrantDraw) (settings : SessionSettings)
    (deviceName : String) (controlPin : Option String) (connects : String → Bool)
    (catalog : DeviceCatalogResponse) {i : Nat} {device : DeviceRecord} {service : PublishedService}
    (shown : (entries (parseDeviceCatalog catalog))[i]? = some (device, service)) :
    (∃ tunnel addr, startRouting interface capacity lowercase
          (openSession codec text draws settings deviceName) controlPin connects
          (parseDeviceCatalog catalog) = some tunnel
        ∧ tunnel.stack.network.services[i]?.map VirtualService.addr = some addr
        ∧ ∀ events reached, Trace.exec Tunnel.step tunnel events = some reached →
          ∀ now first second, reached.Served addr device.id service.id now first second)
      ↔ (∀ k x, (entries (parseDeviceCatalog catalog))[k]? = some x →
          ∃ grant, openSession codec text draws settings deviceName k x.2.id = .ok grant)
        ∧ (entries (parseDeviceCatalog catalog)).length ≤ 201
        ∧ 1 + (entries (parseDeviceCatalog catalog)).length ≤ capacity
        ∧ (∀ j x, j < i → (entries (parseDeviceCatalog catalog))[j]? = some x →
          x.2.id ≠ service.id)
        ∧ ∃ found, settings.registry.resolveServiceRoute service.id = .ok found
          ∧ found.nodeId = device.id := by
  generalize parseDeviceCatalog catalog = devices at *
  have hpublished : (published devices)[i]? = some ⟨service.id, service.label, service.kind⟩ := by
    simp [published, shown]
  have hlen : (published devices).length = (entries devices).length := by simp [published]
  have haddr : (network lowercase (published devices)).services[i]?.map VirtualService.addr
      = some (addrAt i) := by
    rw [services_getElem?.mpr ⟨_, hpublished, rfl⟩]
    rfl
  have hmem : (device, service) ∈ entries devices := List.mem_of_getElem? shown
  have hids : (∀ j x, j < i → (entries devices)[j]? = some x → x.2.id ≠ service.id)
      ↔ ∀ j other, j < i → (published devices)[j]? = some other → other.id ≠ service.id := by
    constructor
    · intro h j other hj hother
      obtain ⟨x, hx, hid⟩ := published_getElem? hother
      exact hid ▸ h j x hj hx
    · intro h j x hj hx
      exact h j ⟨x.2.id, x.2.label, x.2.kind⟩ hj (by simp [published, hx])
  rw [← exists_sessionGrants_iff, hids]
  constructor
  · rintro ⟨tunnel, addr, hrouting, htaken, hserved⟩
    obtain ⟨grants, hgrants, hle, hroom, rfl⟩ := startRouting_eq_some_iff.mp hrouting
    obtain rfl := Option.some.inj (haddr.symm.trans htaken)
    have hroutes : ∀ other ∈ published devices, ∃ route,
        (parseServices (mediumRoutingServices devices grants controlPin)).routes.lookup other.id
          = some route := by
      intro other hother
      obtain ⟨k, hk⟩ := List.mem_iff_getElem?.mp hother
      obtain ⟨x, hx, hid⟩ := published_getElem? hk
      obtain ⟨grant, pin, -, hroute, -⟩ :=
        exists_route hgrants (List.mem_of_getElem? hx) controlPin
      exact ⟨_, hid ▸ hroute⟩
    obtain ⟨hfirst, grant, pin, hlookup, hnode, -⟩ := first_of_served (running_start _ _) hroutes
      rfl (by omega) hpublished (hserved [] _ rfl 0 connectAll connectAll)
    obtain ⟨grant', pin', found, hlookup', -, hfound, hnode'⟩ :=
      exists_route hgrants hmem controlPin
    cases hlookup.symm.trans hlookup'
    exact ⟨⟨grants, hgrants⟩, hle, hroom, hfirst, found, hfound, hnode'.symm.trans hnode⟩
  · rintro ⟨⟨grants, hgrants⟩, hle, hroom, hfirst, found, hfound, hnode⟩
    obtain ⟨grant, pin, found', hlookup, hservice, hfound', hnode'⟩ :=
      exists_route hgrants hmem controlPin
    cases hfound.symm.trans hfound'
    refine ⟨_, addrAt i, startRouting_eq_some_iff.mpr ⟨grants, hgrants, hle, hroom, rfl⟩, haddr, ?_⟩
    intro events reached hrun now first second
    have hreached := Tunnel.exec_running (running_start _ _) hrun
    have hserved := served_of_first hreached (by omega) hpublished hfirst hlookup now first second
    rwa [hnode', hnode, hservice] at hserved

/-! ### Two nodes with one service id -/

/-- A catalogue with one service. -/
def sampleCatalog : DeviceCatalogResponse :=
  ⟨[⟨"node-1", "node-1", none, [⟨"svc_web", .https, 1, none, "127.0.0.1:8080", none⟩]⟩]⟩

/-- The tunnel of a phone. -/
def sampleRouting (capacity : Nat) (settings : SessionSettings) (catalog : DeviceCatalogResponse) :
    Option (Tunnel plainInterface) :=
  startRouting plainInterface capacity asciiLowercase
    (openSession sampleTokenCodec dottedText (fun _ => sampleDraw) settings "phone") none
    (fun _ => true) (parseDeviceCatalog catalog)

theorem routed_iff_alone :
    ∃ tunnel addr, sampleRouting IFACE_MAX_ADDR_COUNT sampleSettings sampleCatalog = some tunnel
      ∧ tunnel.stack.network.services[0]?.map VirtualService.addr = some addr
      ∧ ∀ events reached, Trace.exec Tunnel.step tunnel events = some reached →
        ∀ now first second, reached.Served addr "node-1" "svc_web" now first second := by
  have hshown : (entries (parseDeviceCatalog sampleCatalog))[0]?
      = some (⟨"node-1", "node-1", [⟨"svc_web", "https", none, "127.0.0.1:8080"⟩]⟩,
        ⟨"svc_web", "https", none, "127.0.0.1:8080"⟩) := by
    decide +kernel
  have hgrant : (openSession sampleTokenCodec dottedText (fun _ => sampleDraw) sampleSettings
      "phone" 0 "svc_web").toOption.isSome = true := by
    decide +kernel
  have hroute : (sampleSettings.registry.resolveServiceRoute "svc_web").toOption.map
      ServiceRoute.nodeId = some "node-1" := by
    decide +kernel
  refine (routed_iff plainInterface IFACE_MAX_ADDR_COUNT asciiLowercase sampleTokenCodec
    dottedText (fun _ => sampleDraw) sampleSettings "phone" none (fun _ => true) sampleCatalog
    hshown).mpr ⟨?_, by decide, by decide, fun j x hj _ => absurd hj (Nat.not_lt_zero j), ?_⟩
  · intro k x hx
    obtain ⟨hk, -⟩ := List.getElem?_eq_some_iff.mp hx
    obtain rfl : k = 0 := Nat.lt_one_iff.mp hk
    cases hshown.symm.trans hx
    cases hopen : openSession sampleTokenCodec dottedText (fun _ => sampleDraw) sampleSettings
        "phone" 0 "svc_web" with
    | error e =>
      rw [hopen] at hgrant
      cases hgrant
    | ok grant => exact ⟨grant, rfl⟩
  · cases hfound : sampleSettings.registry.resolveServiceRoute "svc_web" with
    | error e =>
      rw [hfound] at hroute
      cases hroute
    | ok found =>
      rw [hfound] at hroute
      exact ⟨found, rfl, Option.some.inj hroute⟩

/-- Two nodes publish `svc_web`.  The app shows both, the fourth service is that of the
second node, and nothing listens at its address.  With the addresses that an interface
holds by default, the tunnel does not start at all. -/
theorem second_node_unserved :
    ∃ catalog, Registry.sampleRegistry.listDevices = .ok catalog
      ∧ (entries (parseDeviceCatalog catalog)).map (fun x => (x.1.id, x.2.id))
        = [("node-1", "svc_ssh"), ("node-1", "svc_web"), ("node-2", "svc_ssh"),
          ("node-2", "svc_web")]
      ∧ (sampleRouting 8 { sampleSettings with registry := Registry.sampleRegistry }
          catalog).map (fun tunnel =>
            (tunnel.stack.network.services[3]?.map VirtualService.addr,
              (tunnel.stack.prepare.toOption.map fun prepared =>
                prepared.tcpSlots.any fun slot =>
                  slot.socket.endpoint = some (⟨10, 88, 0, 13⟩, HTTPS_PORT))))
        = some (some ⟨10, 88, 0, 13⟩, some false)
      ∧ (sampleRouting IFACE_MAX_ADDR_COUNT
          { sampleSettings with registry := Registry.sampleRegistry } catalog).isNone := by
  refine ⟨⟨[⟨"node-1", "label of node-1", some ⟨"svc_ssh", "192.0.2.1", 17001, "overlay"⟩,
      [⟨"svc_ssh", .ssh, 1, some "shell", "127.0.0.1:22", some "overlay"⟩,
        ⟨"svc_web", .https, 1, none, "127.0.0.1:8080", none⟩]⟩,
    ⟨"node-2", "label of node-2", some ⟨"svc_ssh", "192.0.2.2", 17001, "overlay"⟩,
      [⟨"svc_ssh", .ssh, 1, some "shell", "127.0.0.1:22", some "overlay"⟩,
        ⟨"svc_web", .https, 1, none, "127.0.0.1:8080", none⟩]⟩]⟩, ?_⟩
  decide +kernel

end MediumOverlay.Android
