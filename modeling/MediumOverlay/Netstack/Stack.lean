import MediumOverlay.Lib.PacketBuffer
import MediumOverlay.Lib.Trace
import MediumOverlay.Netstack.VirtualNetwork
import MediumOverlay.Protocol.Addr

/-!
# The network stack

`MediumStack` owns the addresses of a virtual network.  A DNS socket answers queries,
and for every service two TCP sockets wait for connections.  The TCP and IP
implementation below it is smoltcp.  Its sockets are modelled with the checks they make
and the buffers of the DNS socket as rings of packets.  What an interface makes of a raw
packet is a parameter (`Interface`), and what becomes of the TCP connections in the
meantime is chosen freely (`IfacePoll`).

The interface has a list of addresses of a fixed capacity, and `MediumStack.new` panics
where the addresses of a network do not fit (`stack_eq_some_iff`).
-/

namespace MediumOverlay.Netstack

open BigEndian

def DNS_PORT : Nat := 53

def HTTP_PORT : Nat := 80

def HTTPS_PORT : Nat := 443

inductive SocketError where
  | unaddressable
  | bufferFull
  | exhausted
  | invalidState
  | finished
deriving DecidableEq, Repr

/-! ## UDP sockets -/

structure IpEndpoint where
  addr : IpAddr
  port : Nat
deriving DecidableEq, Repr

/-- A datagram can be sent to the endpoint. -/
def IpEndpoint.isAddressable (endpoint : IpEndpoint) : Bool :=
  !endpoint.addr.isUnspecified && endpoint.port ≠ 0

/-- A datagram that the interface took from packets.  Its source is the remote end. -/
structure Datagram where
  remote : IpEndpoint
  dstPort : Nat
  payload : Bytes
deriving DecidableEq, Repr

/-- `udp::Socket`, bound to a port unless that is 0. -/
structure UdpSocket where
  port : Nat
  rx : PacketBuffer (IpEndpoint × Bytes)
  tx : PacketBuffer (IpEndpoint × Bytes)
deriving DecidableEq, Repr

namespace UdpSocket

def isOpen (socket : UdpSocket) : Bool := socket.port ≠ 0

def bind (socket : UdpSocket) (port : Nat) : Except SocketError UdpSocket :=
  if port = 0 then .error .unaddressable
  else if socket.isOpen then .error .invalidState
  else .ok { socket with port }

def canRecv (socket : UdpSocket) : Bool := !socket.rx.isEmpty

def recv (socket : UdpSocket) : Except SocketError ((IpEndpoint × Bytes) × UdpSocket) :=
  match socket.rx.dequeue with
  | none => .error .exhausted
  | some (packet, rx) => .ok (packet, { socket with rx })

def sendSlice (socket : UdpSocket) (data : Bytes) (remote : IpEndpoint) :
    Except SocketError UdpSocket :=
  if socket.port = 0 ∨ remote.addr.isUnspecified ∨ remote.port = 0 then .error .unaddressable
  else match socket.tx.enqueue data.length (remote, data) with
    | .error _ => .error .bufferFull
    | .ok tx => .ok { socket with tx }

/-- A datagram for the port is kept if there is room. -/
def process (socket : UdpSocket) (datagram : Datagram) : UdpSocket :=
  if socket.isOpen ∧ datagram.dstPort = socket.port then
    { socket with
      rx := socket.rx.offer datagram.payload.length (datagram.remote, datagram.payload) }
  else socket

end UdpSocket

/-! ## TCP sockets -/

inductive TcpState where
  | closed
  | listen
  | synSent
  | synReceived
  | established
  | finWait1
  | finWait2
  | closeWait
  | closing
  | lastAck
  | timeWait
deriving DecidableEq, Repr

def TCP_BUFFER_SIZE : Nat := 64 * 1024

/-- `tcp::Socket`.  The endpoint is the one it listens on, or the local end of its
connection.  Of the bytes received, `contiguous` ones lie before the end of their ring. -/
structure TcpSocket where
  state : TcpState
  endpoint : Option (Ipv4Address × Nat)
  rx : Bytes
  contiguous : Nat
  tx : Bytes
deriving DecidableEq, Repr

namespace TcpSocket

def new : TcpSocket := ⟨.closed, none, [], 0, []⟩

def isOpen (socket : TcpSocket) : Bool :=
  match socket.state with
  | .closed | .timeWait => false
  | _ => true

def isActive (socket : TcpSocket) : Bool :=
  match socket.state with
  | .closed | .timeWait | .listen => false
  | _ => true

def mayRecv (socket : TcpSocket) : Bool :=
  match socket.state with
  | .established | .finWait1 | .finWait2 => true
  | _ => !socket.rx.isEmpty

def canRecv (socket : TcpSocket) : Bool := socket.mayRecv && !socket.rx.isEmpty

def maySend (socket : TcpSocket) : Bool :=
  match socket.state with
  | .established | .closeWait => true
  | _ => false

def canSend (socket : TcpSocket) : Bool := socket.maySend && socket.tx.length < TCP_BUFFER_SIZE

def localEndpoint (socket : TcpSocket) : Option (Ipv4Address × Nat) :=
  match socket.state with
  | .closed | .listen => none
  | _ => socket.endpoint

def listen (socket : TcpSocket) (addr : Ipv4Address) (port : Nat) :
    Except SocketError TcpSocket :=
  if port = 0 then .error .unaddressable
  else if socket.isOpen then
    if socket.state = .listen ∧ socket.endpoint = some (addr, port) then .ok socket
    else .error .invalidState
  else .ok { new with state := .listen, endpoint := some (addr, port) }

/-- Take out the received bytes that lie before the end of the ring. -/
def recv (socket : TcpSocket) : Except SocketError (Bytes × TcpSocket) :=
  if socket.mayRecv then
    let rest := socket.rx.drop socket.contiguous
    .ok (socket.rx.take socket.contiguous, { socket with rx := rest, contiguous := rest.length })
  else if socket.state = .closeWait ∨ socket.state = .lastAck ∨ socket.state = .closing
      ∨ socket.state = .timeWait then .error .finished
  else .error .invalidState

/-- Queue as many bytes as there is room for. -/
def sendSlice (socket : TcpSocket) (data : Bytes) : Except SocketError (Nat × TcpSocket) :=
  if socket.maySend then
    let sent := data.take (TCP_BUFFER_SIZE - socket.tx.length)
    .ok (sent.length, { socket with tx := socket.tx ++ sent })
  else .error .invalidState

def close (socket : TcpSocket) : TcpSocket :=
  match socket.state with
  | .listen | .synSent => { socket with state := .closed }
  | .synReceived | .established => { socket with state := .finWait1 }
  | .closeWait => { socket with state := .lastAck }
  | _ => socket

/-- What can become of a socket without a call of `listen`: it keeps its endpoint until
it is closed, and a closed socket stays so. -/
structure Evolves (before after : TcpSocket) : Prop where
  closed : before.state = .closed → after.state = .closed
  endpoint : after.state ≠ .closed → after.endpoint = before.endpoint

end TcpSocket

/-! ## The interface -/

structure IpCidr where
  address : Ipv4Address
  prefixLen : Nat
deriving DecidableEq, Repr

/-- `smoltcp::iface::Interface`, as far as it reads packets: from its state and the time,
a raw packet gives a new state and at most one datagram. -/
structure Interface where
  State : Type
  init : List IpCidr → State
  receive : State → Int → Bytes → State × Option Datagram

/-- What else happens in `Interface::poll`: each TCP socket evolves, packets leave the
DNS socket, and packets are written to the device. -/
structure IfacePoll where
  tcp : Nat → TcpSocket → TcpSocket
  evolves : ∀ i (socket : TcpSocket), socket.Evolves (tcp i socket)
  sent : Nat
  written : List Bytes

/-- The capacity of the list of addresses of an interface, `IFACE_MAX_ADDR_COUNT`. -/
def IFACE_MAX_ADDR_COUNT : Nat := 2

/-- What `check_ip_addrs` accepts: neither a broadcast nor a multicast address. -/
def Ipv4Address.isOwnable (addr : Ipv4Address) : Bool :=
  addr ≠ ⟨255, 255, 255, 255⟩ && !(224 ≤ addr.a && addr.a ≤ 239)

/-- `push` of a vector of a fixed capacity, with the `unwrap` behind it. -/
def pushAddr (capacity : Nat) (addrs : List IpCidr) (cidr : IpCidr) : Option (List IpCidr) :=
  if addrs.length < capacity then some (addrs ++ [cidr]) else none

/-- `update_ip_addrs` with the closure of `MediumStack::new`.  `none` is a panic. -/
def updateIpAddrs (capacity : Nat) (network : VirtualNetwork) : Option (List IpCidr) := do
  let addrs ← pushAddr capacity [] ⟨network.dnsAddr, network.prefixLen⟩
  let addrs ← network.services.foldlM
    (fun addrs service => pushAddr capacity addrs ⟨service.addr, 32⟩) addrs
  if addrs.all fun cidr => cidr.address.isOwnable then some addrs else none

/-! ## The stack -/

/-- `TcpSlot`, with the socket itself for its handle. -/
structure TcpSlot where
  socket : TcpSocket
  serviceId : String
  hostname : String
  port : Nat
  streamId : Option String
deriving DecidableEq, Repr

inductive TcpPumpEvent where
  | connected (streamId serviceId : String)
  | received (streamId serviceId : String) (bytes : Bytes)
  | closed (streamId serviceId : String)
deriving DecidableEq, Repr

/-- `MediumStack`.  The device is the packets that came and those that go. -/
structure MediumStack (interface : Interface) where
  network : VirtualNetwork
  ipAddrs : List IpCidr
  iface : interface.State
  deviceRx : List Bytes
  deviceTx : List Bytes
  dns : UdpSocket
  tcpSlots : List TcpSlot
  nextTcpStream : Nat

/-- `poll_socket`. -/
def pollSocket (socket : TcpSocket) (network : VirtualNetwork)
    (streamId fallbackServiceId : String) : Except SocketError (List TcpPumpEvent × TcpSocket) :=
  let serviceId := ((socket.localEndpoint.bind fun endpoint =>
    network.serviceForAddr endpoint.1).map VirtualService.id).getD fallbackServiceId
  if socket.canRecv then do
    let (bytes, socket) ← socket.recv
    return ([.received streamId serviceId bytes], socket)
  else .ok ([], socket)

/-- `redirect_http_to_https`. -/
def redirectHttpToHttps (socket : TcpSocket) (hostname : String) :
    Except SocketError TcpSocket :=
  if ¬socket.canRecv then .ok socket
  else do
    let (_, socket) ← socket.recv
    let socket ←
      if socket.canSend then do
        let response := "HTTP/1.1 308 Permanent Redirect\r\nLocation: https://" ++ hostname
          ++ "/\r\nContent-Length: 0\r\nConnection: close\r\n\r\n"
        let (_, socket) ← socket.sendSlice response.toUTF8.data.toList
        pure socket
      else pure socket
    return socket.close

/-- A new connection of a slot gets a stream. -/
def accept (nextTcpStream : Nat) (slot : TcpSlot) : List TcpPumpEvent × Nat × TcpSlot :=
  if slot.socket.state = .established ∧ slot.streamId = none then
    let streamId := "tcp-" ++ toString (nextTcpStream + 1)
    (if slot.port = HTTPS_PORT then [.connected streamId slot.serviceId] else [],
      nextTcpStream + 1, { slot with streamId := some streamId })
  else ([], nextTcpStream, slot)

/-- A stream of the HTTP port is redirected, one of the HTTPS port is read. -/
def pumpSocket (network : VirtualNetwork) (streamId : String) (slot : TcpSlot) :
    Except SocketError (List TcpPumpEvent × TcpSocket) :=
  if slot.port = HTTP_PORT then do
    let socket ← redirectHttpToHttps slot.socket slot.hostname
    return ([], socket)
  else pollSocket slot.socket network streamId slot.serviceId

/-- The rest of a turn of the loop of `pump_tcp`, for a slot with a stream. -/
def pumpStream (network : VirtualNetwork) (streamId : String) (slot : TcpSlot) :
    Except SocketError (List TcpPumpEvent × TcpSlot) := do
  let (events, socket) ← pumpSocket network streamId slot
  if !socket.isActive && !socket.mayRecv then
    return (events ++ [.closed streamId slot.serviceId], { slot with socket, streamId := none })
  else return (events, { slot with socket })

/-- One turn of the loop of `pump_tcp`. -/
def pumpSlot (network : VirtualNetwork) (nextTcpStream : Nat) (slot : TcpSlot) :
    Except SocketError (List TcpPumpEvent × Nat × TcpSlot) :=
  let (accepted, nextTcpStream, slot) := accept nextTcpStream slot
  match slot.streamId with
  | none => .ok (accepted, nextTcpStream, slot)
  | some streamId => do
    let (events, slot) ← pumpStream network streamId slot
    return (accepted ++ events, nextTcpStream, slot)

/-- `pump_tcp`. -/
def pumpTcp (network : VirtualNetwork) :
    Nat → List TcpSlot → Except SocketError (List TcpPumpEvent × Nat × List TcpSlot)
  | nextTcpStream, [] => .ok ([], nextTcpStream, [])
  | nextTcpStream, slot :: slots => do
    let (events, nextTcpStream, slot) ← pumpSlot network nextTcpStream slot
    let (rest, nextTcpStream, slots) ← pumpTcp network nextTcpStream slots
    return (events ++ rest, nextTcpStream, slot :: slots)

/-- `pump_dns`.  Every turn takes a packet out, so the number of entries is enough fuel. -/
def pumpDns (network : VirtualNetwork) : Nat → UdpSocket → Except SocketError UdpSocket
  | 0, socket => .ok socket
  | fuel + 1, socket =>
    if socket.canRecv then do
      let ((remote, data), socket) ← socket.recv
      let socket ← match answerQuery data network with
        | none => pure socket
        | some response => socket.sendSlice response remote
      pumpDns network fuel socket
    else .ok socket

/-- `ensure_dns_bound`. -/
def ensureDnsBound (socket : UdpSocket) : Except SocketError UdpSocket :=
  if socket.isOpen then .ok socket else socket.bind DNS_PORT

/-- A slot without an open socket listens on the address of its service. -/
def relisten (network : VirtualNetwork) (slot : TcpSlot) : Except SocketError TcpSlot :=
  match network.services.find? (·.id = slot.serviceId) with
  | none => .ok slot
  | some service =>
    if slot.socket.isOpen then .ok slot
    else do
      let socket ← slot.socket.listen service.addr slot.port
      return { slot with socket }

/-- `desired_listeners`. -/
def desiredListeners (network : VirtualNetwork) : List (String × Ipv4Address × Nat) :=
  network.services.flatMap fun service =>
    [HTTP_PORT, HTTPS_PORT].map fun port => (service.id, service.addr, port)

/-- `has_listener`. -/
def hasListener (slots : List TcpSlot) (serviceId : String) (port : Nat) : Bool :=
  slots.any fun slot =>
    slot.serviceId = serviceId ∧ slot.port = port ∧ slot.streamId = none
      ∧ slot.socket.state = .listen

/-- One turn of the loop of `ensure_tcp_listeners` over the desired listeners. -/
def addListener (network : VirtualNetwork) (slots : List TcpSlot)
    (desired : String × Ipv4Address × Nat) : Except SocketError (List TcpSlot) :=
  let (serviceId, addr, port) := desired
  if hasListener slots serviceId port then .ok slots
  else do
    let socket ← TcpSocket.new.listen addr port
    let hostname := ((network.services.find? (·.id = serviceId)).map
      VirtualService.hostname).getD serviceId
    return slots ++ [⟨socket, serviceId, hostname, port, none⟩]

/-- `ensure_tcp_listeners`. -/
def ensureTcpListeners (network : VirtualNetwork) (slots : List TcpSlot) :
    Except SocketError (List TcpSlot) := do
  let slots ← slots.mapM (relisten network)
  (desiredListeners network).foldlM (addListener network) slots

namespace MediumStack

variable {interface : Interface}

/-- The stack with its sockets, for an interface with addresses. -/
def withAddrs (interface : Interface) (network : VirtualNetwork) (ipAddrs : List IpCidr) :
    MediumStack interface where
  network := network
  ipAddrs := ipAddrs
  iface := interface.init ipAddrs
  deviceRx := []
  deviceTx := []
  dns := ⟨0, .new 8 8192, .new 8 8192⟩
  tcpSlots := network.services.flatMap fun service =>
    [HTTP_PORT, HTTPS_PORT].map fun port => ⟨.new, service.id, service.hostname, port, none⟩
  nextTcpStream := 0

/-- `MediumStack::new`.  `none` is a panic. -/
def new (interface : Interface) (capacity : Nat) (network : VirtualNetwork) :
    Option (MediumStack interface) :=
  (updateIpAddrs capacity network).map (withAddrs interface network)

/-- `has_ip_addr` of the interface. -/
def hasIpAddr (stack : MediumStack interface) (addr : Ipv4Address) : Bool :=
  stack.ipAddrs.any (·.address = addr)

/-- The interface reads one packet. -/
def ingress (interface : Interface) (now : Int) (x : interface.State × UdpSocket)
    (packet : Bytes) : interface.State × UdpSocket :=
  match interface.receive x.1 now packet with
  | (state, none) => (state, x.2)
  | (state, some datagram) => (state, x.2.process datagram)

/-- `Interface::poll`. -/
def ifacePoll (stack : MediumStack interface) (now : Int) (io : IfacePoll) :
    MediumStack interface :=
  let (iface, dns) := stack.deviceRx.foldl (ingress interface now) (stack.iface, stack.dns)
  { stack with
    iface
    deviceRx := []
    deviceTx := stack.deviceTx ++ io.written
    dns := { dns with tx := dns.tx.drain io.sent }
    tcpSlots := stack.tcpSlots.mapIdx fun i slot => { slot with socket := io.tcp i slot.socket } }

/-- `poll` up to the first `Interface::poll`. -/
def prepare (stack : MediumStack interface) : Except SocketError (MediumStack interface) := do
  let dns ← ensureDnsBound stack.dns
  let tcpSlots ← ensureTcpListeners stack.network stack.tcpSlots
  return { stack with dns, tcpSlots }

/-- `poll` from the first `Interface::poll` to the second. -/
def pump (stack : MediumStack interface) :
    Except SocketError (List TcpPumpEvent × MediumStack interface) := do
  let dns ← pumpDns stack.network stack.dns.rx.entries.length stack.dns
  let (events, nextTcpStream, tcpSlots) ←
    pumpTcp stack.network stack.nextTcpStream stack.tcpSlots
  return (events, { stack with dns, nextTcpStream, tcpSlots })

/-- `poll`. -/
def poll (stack : MediumStack interface) (now : Int) (first second : IfacePoll) :
    Except SocketError (List TcpPumpEvent × MediumStack interface) := do
  let stack ← stack.prepare
  let (events, stack) ← (stack.ifacePoll now first).pump
  return (events, stack.ifacePoll now second)

/-- `push_tun_packet`. -/
def pushTunPacket (stack : MediumStack interface) (packet : Bytes) : MediumStack interface :=
  { stack with deviceRx := stack.deviceRx ++ [packet] }

/-- `pop_tun_packet`. -/
def popTunPacket (stack : MediumStack interface) : Option Bytes × MediumStack interface :=
  match stack.deviceTx with
  | [] => (none, stack)
  | packet :: rest => (some packet, { stack with deviceTx := rest })

/-- Apply a call to the socket of the slot with a stream, the first one. -/
def modifyStream (streamId : String) (f : TcpSlot → Option TcpSlot) :
    List TcpSlot → Option (List TcpSlot)
  | [] => none
  | slot :: slots =>
    if slot.streamId = some streamId then (f slot).map (· :: slots)
    else (modifyStream streamId f slots).map (slot :: ·)

/-- `send_tcp`.  Where it fails, the stack is as it was. -/
def sendTcp (stack : MediumStack interface) (streamId : String) (bytes : Bytes) :
    Option (MediumStack interface) :=
  (modifyStream streamId (fun slot =>
    match slot.socket.sendSlice bytes with
    | .error _ => none
    | .ok (_, socket) => some { slot with socket }) stack.tcpSlots).map
      fun tcpSlots => { stack with tcpSlots }

/-- `close_tcp`.  Where it fails, the stack is as it was. -/
def closeTcp (stack : MediumStack interface) (streamId : String) :
    Option (MediumStack interface) :=
  (modifyStream streamId (fun slot =>
    some { slot with socket := slot.socket.close, streamId := none }) stack.tcpSlots).map
      fun tcpSlots => { stack with tcpSlots }

/-- The calls of `run_tun_loop` and of its backends. -/
inductive Call where
  | push (packet : Bytes)
  | pop
  | poll (now : Int) (first second : IfacePoll)
  | send (streamId : String) (bytes : Bytes)
  | close (streamId : String)

/-- A call on the stack.  A poll that fails ends the run. -/
def step (stack : MediumStack interface) : Call → Option (MediumStack interface)
  | .push packet => some (stack.pushTunPacket packet)
  | .pop => some stack.popTunPacket.2
  | .poll now first second =>
    match stack.poll now first second with
    | .error _ => none
    | .ok (_, stack) => some stack
  | .send streamId bytes => some ((stack.sendTcp streamId bytes).getD stack)
  | .close streamId => some ((stack.closeTcp streamId).getD stack)

end MediumStack

/-! ## Starting the stack -/

theorem foldlM_pushAddr (capacity : Nat) (cidrs addrs : List IpCidr) :
    cidrs.foldlM (pushAddr capacity) addrs
      = if cidrs = [] ∨ addrs.length + cidrs.length ≤ capacity then some (addrs ++ cidrs)
        else none := by
  induction cidrs generalizing addrs with
  | nil => simp
  | cons cidr cidrs ih =>
    rw [List.foldlM_cons, pushAddr]
    by_cases hroom : addrs.length < capacity
    · rw [if_pos hroom]
      simp only [Option.bind_eq_bind, Option.bind_some, ih, List.append_assoc,
        List.singleton_append, List.length_append, List.length_cons, List.length_nil,
        reduceCtorEq, false_or]
      congr 1
      rw [eq_iff_iff]
      constructor
      · rintro (rfl | h)
        · simpa using hroom
        · omega
      · intro h
        exact .inr (by omega)
    · rw [if_neg hroom, if_neg (by simp; omega)]
      rfl

section Start

variable {capacity : Nat} {lowercase : Lowercase}
  {services : List PublishedService}

/-- The addresses of an interface with a network. -/
def cidrs (network : VirtualNetwork) : List IpCidr :=
  ⟨network.dnsAddr, network.prefixLen⟩ :: network.services.map fun service => ⟨service.addr, 32⟩

theorem isOwnable_of_mem_cidrs {cidr : IpCidr} (h : cidr ∈ cidrs (network lowercase services)) :
    cidr.address.isOwnable = true := by
  have hten : ∀ addr : Ipv4Address, addr.a = 10 → addr.isOwnable = true := by
    rintro ⟨a, b, c, d⟩ rfl
    simp [Ipv4Address.isOwnable]
  refine hten _ ?_
  rcases List.mem_cons.mp h with rfl | hmem
  · rfl
  · obtain ⟨service, hservice, rfl⟩ := List.mem_map.mp hmem
    obtain ⟨x, -, rfl⟩ := List.mem_map.mp hservice
    rfl

theorem updateIpAddrs_network :
    updateIpAddrs capacity (network lowercase services)
      = if 1 + services.length ≤ capacity then some (cidrs (network lowercase services))
        else none := by
  have hfold : updateIpAddrs capacity (network lowercase services)
      = ((cidrs (network lowercase services)).foldlM (pushAddr capacity) []).bind fun addrs =>
          if addrs.all fun cidr => cidr.address.isOwnable then some addrs else none := by
    simp only [updateIpAddrs, cidrs, List.foldlM_cons, List.foldlM_map, Option.bind_eq_bind,
      Option.bind_assoc]
  have hlen : (cidrs (network lowercase services)).length = 1 + services.length := by
    simp [cidrs, network, Nat.add_comm]
  rw [hfold, foldlM_pushAddr, hlen]
  by_cases hroom : 1 + services.length ≤ capacity
  · rw [if_pos (.inr (by simpa using hroom)), if_pos hroom, List.nil_append, Option.bind_some,
      if_pos (List.all_eq_true.mpr fun cidr hcidr => isOwnable_of_mem_cidrs hcidr)]
  · rw [if_neg (by simpa [cidrs] using hroom), if_neg hroom, Option.bind_none]

/-- The stack starts if there is room for the address of the DNS socket and one address
for each service, and then it has them. -/
theorem stack_eq_some_iff {interface : Interface} {stack : MediumStack interface} :
    MediumStack.new interface capacity (network lowercase services) = some stack
      ↔ 1 + services.length ≤ capacity
        ∧ stack = .withAddrs interface (network lowercase services)
          (cidrs (network lowercase services)) := by
  rw [MediumStack.new, updateIpAddrs_network]
  by_cases hroom : 1 + services.length ≤ capacity
  · simp [hroom, eq_comm]
  · simp [hroom]

/-- With the addresses that an interface holds by default, the stack of an accepted list
of services starts exactly if the list has at most one service. -/
theorem stack_starts_iff (interface : Interface) {net : VirtualNetwork}
    (built : VirtualNetwork.new lowercase services = .ok net) :
    (∃ stack, MediumStack.new interface IFACE_MAX_ADDR_COUNT net = some stack
        ∧ stack.hasIpAddr net.dnsAddr
        ∧ ∀ service ∈ net.services, stack.hasIpAddr service.addr)
      ↔ services.length ≤ 1 := by
  obtain ⟨-, rfl⟩ := VirtualNetwork.new_eq_ok_iff.mp built
  constructor
  · rintro ⟨stack, hstack, -⟩
    have hroom := (stack_eq_some_iff.mp hstack).1
    rw [IFACE_MAX_ADDR_COUNT] at hroom
    omega
  · intro hlen
    refine ⟨_, stack_eq_some_iff.mpr ⟨?_, rfl⟩, ?_, ?_⟩
    · rw [IFACE_MAX_ADDR_COUNT]
      omega
    · exact List.any_eq_true.mpr ⟨_, List.mem_cons_self, by simp⟩
    · intro service hservice
      refine List.any_eq_true.mpr ⟨⟨service.addr, 32⟩, ?_, by simp⟩
      exact List.mem_cons_of_mem _ (List.mem_map.mpr ⟨service, hservice, rfl⟩)

end Start

/-! ### Plain packets -/

/-- The sum of the 16-bit words of a header. -/
def headerSum : Bytes → Nat
  | a :: b :: rest => ofBeBytes [a, b] + headerSum rest
  | rest => ofBeBytes rest

/-- The datagram in a plain IPv4 packet: no options, no fragment, no UDP checksum. -/
def plainDatagram (addrs : List IpCidr) (packet : Bytes) : Option Datagram :=
  let word (i : Nat) := ofBeBytes ((packet.drop i).take 2)
  let source := ofBeBytes ((packet.drop 12).take 4)
  if packet.take 1 = [0x45] ∧ word 2 = packet.length ∧ headerSum (packet.take 20) % 65535 = 0
      ∧ word 6 % 0x4000 = 0 ∧ (packet.drop 9).take 1 = [17]
      ∧ (addrs.any fun cidr => cidr.address.octets = (packet.drop 16).take 4)
      ∧ word 24 = packet.length - 20 ∧ 28 ≤ packet.length ∧ word 26 = 0 ∧ word 22 ≠ 0 then
    some ⟨⟨.v4 (.ofNat source), word 20⟩, word 22, packet.drop 28⟩
  else none

/-- An interface that reads plain packets. -/
def plainInterface : Interface where
  State := List IpCidr
  init addrs := addrs
  receive addrs _ packet := (addrs, plainDatagram addrs packet)

/-- A list of one service is accepted, and its stack starts. -/
theorem stack_starts_iff_one :
    ∃ net stack, VirtualNetwork.new asciiLowercase [⟨"svc_web", none, "https"⟩] = .ok net
      ∧ MediumStack.new plainInterface IFACE_MAX_ADDR_COUNT net = some stack
      ∧ stack.hasIpAddr ⟨10, 88, 0, 1⟩ ∧ stack.hasIpAddr ⟨10, 88, 0, 10⟩ := by
  have hbuilt : VirtualNetwork.new asciiLowercase [⟨"svc_web", none, "https"⟩]
      = .ok (network asciiLowercase [⟨"svc_web", none, "https"⟩]) :=
    VirtualNetwork.new_eq_ok_iff.mpr ⟨by decide, rfl⟩
  obtain ⟨stack, hstack, hdns, hservices⟩ :=
    (stack_starts_iff plainInterface hbuilt).mpr (by decide)
  exact ⟨_, stack, hbuilt, hstack, hdns,
    hservices (virtualService asciiLowercase (⟨"svc_web", none, "https"⟩, 0)) List.mem_cons_self⟩

/-- A list of two services is accepted, and starting the stack panics at the address of
the second. -/
theorem second_service_panics :
    ∃ net, VirtualNetwork.new asciiLowercase sampleServices = .ok net
      ∧ net.services.length = 2
      ∧ updateIpAddrs IFACE_MAX_ADDR_COUNT net = none
      ∧ (MediumStack.new plainInterface IFACE_MAX_ADDR_COUNT net).isNone := by
  refine ⟨network asciiLowercase sampleServices, ?_⟩
  decide +kernel

end MediumOverlay.Netstack
