import MediumOverlay.Netstack.Stack

/-!
# Polls of the network stack

A poll reads the packets that were pushed, answers the DNS queries among them and pumps
the TCP connections.  The TCP pump cannot fail: a socket is asked before each call
whether it can receive or send (`pumpTcp_spec`).  Nor can the listeners, which all wait
at the address of the first service with their id (`ensureTcpListeners_spec`).  What
remains is the answers to DNS queries (`pumpDns_spec`).
-/

namespace MediumOverlay.Netstack

open BigEndian

/-! ## Answers to queries -/

/-- The answers to queries, with the ends they go to. -/
def answers (network : VirtualNetwork) (queries : List (IpEndpoint × Bytes)) :
    List (IpEndpoint × Bytes) :=
  queries.filterMap fun query => (answerQuery query.2 network).map fun answer => (query.1, answer)

/-- Queue packets one after the other. -/
def enqueueAll (tx : PacketBuffer (IpEndpoint × Bytes)) :
    List (IpEndpoint × Bytes) →
      Except (PacketBuffer (IpEndpoint × Bytes)) (PacketBuffer (IpEndpoint × Bytes))
  | [] => .ok tx
  | packet :: packets =>
    match tx.enqueue packet.2.length packet with
    | .error tx => .error tx
    | .ok tx => enqueueAll tx packets

/-- All packets can be sent: each one has an end to go to, and there is room for them. -/
def Sendable (tx : PacketBuffer (IpEndpoint × Bytes)) (packets : List (IpEndpoint × Bytes)) :
    Prop :=
  (∀ packet ∈ packets, packet.1.isAddressable) ∧ (enqueueAll tx packets).isOk

instance (tx : PacketBuffer (IpEndpoint × Bytes)) (packets : List (IpEndpoint × Bytes)) :
    Decidable (Sendable tx packets) :=
  inferInstanceAs (Decidable (_ ∧ _))

variable {tx : PacketBuffer (IpEndpoint × Bytes)}

theorem sendable_nil : Sendable tx [] := by
  simp [Sendable, enqueueAll, Except.isOk, Except.toBool]

theorem sendable_cons {packet : IpEndpoint × Bytes} {packets : List (IpEndpoint × Bytes)} :
    Sendable tx (packet :: packets)
      ↔ packet.1.isAddressable
        ∧ ∃ tx', tx.enqueue packet.2.length packet = .ok tx' ∧ Sendable tx' packets := by
  rw [Sendable, List.forall_mem_cons, enqueueAll]
  cases tx.enqueue packet.2.length packet with
  | error e => simp [Except.isOk, Except.toBool]
  | ok tx' => simp [Sendable, and_assoc]

namespace UdpSocket

variable {socket : UdpSocket}

theorem sendSlice_eq_ok_iff (socket : UdpSocket) (hport : socket.port ≠ 0) (data : Bytes)
    (remote : IpEndpoint) (socket' : UdpSocket) :
    socket.sendSlice data remote = .ok socket'
      ↔ remote.isAddressable ∧ ∃ tx, socket.tx.enqueue data.length (remote, data) = .ok tx
        ∧ socket' = { socket with tx } := by
  have haddr : ¬remote.isAddressable = true
      ↔ socket.port = 0 ∨ remote.addr.isUnspecified = true ∨ remote.port = 0 := by
    cases hremote : remote.addr.isUnspecified <;>
      simp [IpEndpoint.isAddressable, hport, hremote]
  rw [sendSlice]
  by_cases hremote : remote.isAddressable = true
  · rw [if_neg (fun h => haddr.mpr h hremote)]
    cases socket.tx.enqueue data.length (remote, data) with
    | error e => simp
    | ok tx => simp [hremote, eq_comm]
  · rw [if_pos (haddr.mp hremote)]
    simp [hremote]

theorem recv_of_unpadded (hrx : socket.rx.Unpadded) (h : socket.canRecv) :
    ∃ packet rx, socket.recv = .ok (packet, { socket with rx }) ∧ rx.Unpadded
      ∧ socket.rx.packets = packet :: rx.packets
      ∧ socket.rx.entries.length = rx.entries.length + 1 := by
  obtain ⟨packet, rx, hdequeue, hrest⟩ := hrx.dequeue (by simpa [canRecv] using h)
  exact ⟨packet, rx, by rw [recv, hdequeue], hrest⟩

/-- What is left to do once nothing can be received. -/
theorem entries_of_not_canRecv (h : ¬socket.canRecv = true) : socket.rx.entries = [] := by
  simpa [canRecv, PacketBuffer.isEmpty] using h

end UdpSocket

/-- The DNS socket is pumped empty if the answers can be sent, and otherwise the pump
fails. -/
theorem pumpDns_spec (network : VirtualNetwork) (fuel : Nat) {socket : UdpSocket}
    (hport : socket.port ≠ 0) (hrx : socket.rx.Unpadded)
    (hfuel : socket.rx.entries.length ≤ fuel) :
    Sendable socket.tx (answers network socket.rx.packets)
        ∧ (∃ socket', pumpDns network fuel socket = .ok socket'
          ∧ socket'.port = socket.port ∧ socket'.rx.isEmpty)
      ∨ ¬Sendable socket.tx (answers network socket.rx.packets)
        ∧ ∃ e, pumpDns network fuel socket = .error e := by
  induction fuel generalizing socket with
  | zero =>
    have hnil : socket.rx.entries = [] := List.length_eq_zero_iff.mp (Nat.le_zero.mp hfuel)
    refine .inl ⟨?_, socket, rfl, rfl, by simp [PacketBuffer.isEmpty, hnil]⟩
    simp [answers, PacketBuffer.packets, hnil, sendable_nil]
  | succ fuel ih =>
    rw [pumpDns]
    by_cases hrecv : socket.canRecv
    · obtain ⟨⟨remote, data⟩, rx, hsocket, hrest, hpackets, hlen⟩ :=
        UdpSocket.recv_of_unpadded hrx hrecv
      rw [if_pos hrecv, hsocket, hpackets, answers, List.filterMap_cons]
      simp only [bind, Except.bind]
      cases hanswer : answerQuery data network with
      | none => exact @ih { socket with rx } hport hrest (by simp only; omega)
      | some response =>
        simp only [Option.map_some, sendable_cons]
        have hsend := UdpSocket.sendSlice_eq_ok_iff { socket with rx } hport response remote
        cases hslice : UdpSocket.sendSlice { socket with rx } response remote with
        | error e =>
          refine .inr ⟨?_, e, rfl⟩
          rintro ⟨haddr, tx, htx, -⟩
          have := (hsend { socket with rx, tx }).mpr ⟨haddr, tx, htx, rfl⟩
          rw [hslice] at this
          cases this
        | ok socket' =>
          obtain ⟨haddr, tx, htx, rfl⟩ := (hsend _).mp hslice
          have hturn : ∀ P : PacketBuffer (IpEndpoint × Bytes) → Prop,
              (∃ tx', socket.tx.enqueue response.length (remote, response) = .ok tx' ∧ P tx')
                ↔ P tx := by
            intro P
            simp [htx]
          simp only [haddr, true_and, hturn]
          exact @ih { socket with rx, tx } hport hrest (by simp only; omega)
    · have hnil := UdpSocket.entries_of_not_canRecv hrecv
      rw [if_neg hrecv]
      refine .inl ⟨?_, socket, rfl, rfl, by simp [PacketBuffer.isEmpty, hnil]⟩
      simp [answers, PacketBuffer.packets, hnil, sendable_nil]

/-! ## TCP connections -/

namespace TcpSocket

variable {socket : TcpSocket}

theorem Evolves.of_eq {before after : TcpSocket} (hstate : after.state = before.state)
    (hendpoint : after.endpoint = before.endpoint) : before.Evolves after :=
  ⟨fun h => hstate.trans h, fun _ => hendpoint⟩

theorem Evolves.trans {a b c : TcpSocket} (hab : a.Evolves b) (hbc : b.Evolves c) :
    a.Evolves c := by
  refine ⟨fun h => hbc.closed (hab.closed h), fun h => ?_⟩
  rw [hbc.endpoint h, hab.endpoint fun hb => h (hbc.closed hb)]

theorem evolves_close (socket : TcpSocket) : socket.Evolves socket.close := by
  refine ⟨fun h => by simp [close, h], fun _ => ?_⟩
  unfold close
  split <;> rfl

theorem recv_of_canRecv (h : socket.canRecv) :
    ∃ bytes socket', socket.recv = .ok (bytes, socket') ∧ socket.Evolves socket' := by
  have hrecv : socket.mayRecv = true := (Bool.and_eq_true_iff.mp h).1
  exact ⟨_, _, if_pos hrecv, .of_eq rfl rfl⟩

theorem sendSlice_of_canSend (h : socket.canSend) (data : Bytes) :
    ∃ sent socket', socket.sendSlice data = .ok (sent, socket') ∧ socket.Evolves socket' := by
  have hsend : socket.maySend = true := (Bool.and_eq_true_iff.mp h).1
  exact ⟨_, _, if_pos hsend, .of_eq rfl rfl⟩

theorem listen_of_not_isOpen (h : ¬socket.isOpen = true) (addr : Ipv4Address) {port : Nat}
    (hport : port ≠ 0) :
    socket.listen addr port
      = .ok { TcpSocket.new with state := .listen, endpoint := some (addr, port) } := by
  rw [listen, if_neg hport, if_neg h]

end TcpSocket

/-- What can become of a slot while it is pumped. -/
structure TcpSlot.Follows (before after : TcpSlot) : Prop where
  serviceId : after.serviceId = before.serviceId
  port : after.port = before.port
  evolves : before.socket.Evolves after.socket

def TcpPumpEvent.isConnected : TcpPumpEvent → Bool
  | .connected _ _ => true
  | _ => false

theorem redirectHttpToHttps_spec (socket : TcpSocket) (hostname : String) :
    ∃ socket', redirectHttpToHttps socket hostname = .ok socket' ∧ socket.Evolves socket' := by
  rw [redirectHttpToHttps]
  by_cases hrecv : socket.canRecv
  · obtain ⟨bytes, read, hread, hevolves⟩ := TcpSocket.recv_of_canRecv hrecv
    rw [if_neg (not_not_intro hrecv), hread]
    simp only [bind, Except.bind, pure, Except.pure]
    by_cases hsend : read.canSend
    · obtain ⟨sent, written, hwritten, hevolves'⟩ := TcpSocket.sendSlice_of_canSend hsend
        ("HTTP/1.1 308 Permanent Redirect\r\nLocation: https://" ++ hostname
          ++ "/\r\nContent-Length: 0\r\nConnection: close\r\n\r\n").toUTF8.data.toList
      rw [if_pos hsend, hwritten]
      exact ⟨_, rfl, (hevolves.trans hevolves').trans written.evolves_close⟩
    · rw [if_neg hsend]
      exact ⟨_, rfl, hevolves.trans read.evolves_close⟩
  · rw [if_pos hrecv]
    exact ⟨socket, rfl, .of_eq rfl rfl⟩

theorem pollSocket_spec (socket : TcpSocket) (network : VirtualNetwork)
    (streamId fallbackServiceId : String) :
    ∃ events socket', pollSocket socket network streamId fallbackServiceId = .ok (events, socket')
      ∧ socket.Evolves socket' ∧ ∀ event ∈ events, event.isConnected = false := by
  rw [pollSocket]
  by_cases hrecv : socket.canRecv
  · obtain ⟨bytes, read, hread, hevolves⟩ := TcpSocket.recv_of_canRecv hrecv
    simp only [if_pos hrecv, hread, bind, Except.bind, pure, Except.pure]
    exact ⟨_, read, rfl, hevolves, by simp [TcpPumpEvent.isConnected]⟩
  · simp only [if_neg hrecv]
    exact ⟨[], socket, rfl, .of_eq rfl rfl, by simp⟩

theorem pumpSocket_spec (network : VirtualNetwork) (streamId : String) (slot : TcpSlot) :
    ∃ events socket', pumpSocket network streamId slot = .ok (events, socket')
      ∧ slot.socket.Evolves socket' ∧ ∀ event ∈ events, event.isConnected = false := by
  unfold pumpSocket
  split
  · obtain ⟨socket', hredirect, hevolves⟩ := redirectHttpToHttps_spec slot.socket slot.hostname
    rw [hredirect]
    exact ⟨[], socket', rfl, hevolves, by simp⟩
  · exact pollSocket_spec ..

theorem pumpStream_spec (network : VirtualNetwork) (streamId : String) (slot : TcpSlot) :
    ∃ events slot', pumpStream network streamId slot = .ok (events, slot')
      ∧ slot.Follows slot' ∧ ∀ event ∈ events, event.isConnected = false := by
  obtain ⟨events, socket', hpump, hevolves, hevents⟩ := pumpSocket_spec network streamId slot
  rw [pumpStream, hpump]
  simp only [bind, Except.bind]
  split
  · refine ⟨_, _, rfl, ⟨rfl, rfl, hevolves⟩, ?_⟩
    simpa [TcpPumpEvent.isConnected, or_imp, forall_and] using hevents
  · exact ⟨events, _, rfl, ⟨rfl, rfl, hevolves⟩, hevents⟩

theorem accept_spec (nextTcpStream : Nat) (slot : TcpSlot) :
    slot.Follows (accept nextTcpStream slot).2.2
      ∧ ∀ event ∈ (accept nextTcpStream slot).1, event.isConnected = true := by
  unfold accept
  split
  · refine ⟨⟨rfl, rfl, .of_eq rfl rfl⟩, ?_⟩
    dsimp only
    split <;> simp [TcpPumpEvent.isConnected]
  · exact ⟨⟨rfl, rfl, .of_eq rfl rfl⟩, by simp⟩

theorem serviceId_of_accept {nextTcpStream : Nat} {slot : TcpSlot} {streamId serviceId : String}
    (h : .connected streamId serviceId ∈ (accept nextTcpStream slot).1) :
    serviceId = slot.serviceId := by
  unfold accept at h
  split at h
  · dsimp only at h
    split at h
    · cases List.mem_singleton.mp h
      rfl
    · cases h
  · cases h

theorem TcpSlot.Follows.trans {a b c : TcpSlot} (hab : a.Follows b) (hbc : b.Follows c) :
    a.Follows c :=
  ⟨hbc.serviceId.trans hab.serviceId, hbc.port.trans hab.port, hab.evolves.trans hbc.evolves⟩

/-- The pump of a slot does not fail.  Its only event of a new connection is the one of
`accept`. -/
theorem pumpSlot_spec (network : VirtualNetwork) (nextTcpStream : Nat) (slot : TcpSlot) :
    ∃ events next' slot', pumpSlot network nextTcpStream slot = .ok (events, next', slot')
      ∧ slot.Follows slot'
      ∧ events.filter TcpPumpEvent.isConnected = (accept nextTcpStream slot).1 := by
  obtain ⟨hfollows, haccepted⟩ := accept_spec nextTcpStream slot
  rw [pumpSlot]
  generalize accept nextTcpStream slot = accepted at *
  obtain ⟨accepted, next, slot'⟩ := accepted
  have hall : accepted.filter TcpPumpEvent.isConnected = accepted :=
    List.filter_eq_self.mpr haccepted
  dsimp only
  cases slot'.streamId with
  | none => exact ⟨accepted, next, slot', rfl, hfollows, hall⟩
  | some streamId =>
    obtain ⟨events, slot'', hstream, hfollows', hevents⟩ :=
      pumpStream_spec network streamId slot'
    have hnone : events.filter TcpPumpEvent.isConnected = [] :=
      List.filter_eq_nil_iff.mpr fun event hevent => by simp [hevents event hevent]
    simp only [hstream, bind, Except.bind, pure, Except.pure]
    refine ⟨_, _, _, rfl, hfollows.trans hfollows', ?_⟩
    rw [List.filter_append, hall, hnone, List.append_nil]

/-- The events tell of every new connection of the HTTPS port, and of no service without a
slot. -/
structure Reports (slots : List TcpSlot) (events : List TcpPumpEvent) : Prop where
  complete : ∀ slot ∈ slots, slot.socket.state = .established → slot.streamId = none →
    slot.port = HTTPS_PORT → ∃ streamId, .connected streamId slot.serviceId ∈ events
  sound : ∀ streamId serviceId, .connected streamId serviceId ∈ events →
    ∃ slot ∈ slots, slot.serviceId = serviceId

/-- The TCP pump does not fail, and it reports the new connections. -/
theorem pumpTcp_spec (network : VirtualNetwork) (nextTcpStream : Nat) (slots : List TcpSlot) :
    ∃ events next' slots', pumpTcp network nextTcpStream slots = .ok (events, next', slots')
      ∧ List.Forall₂ TcpSlot.Follows slots slots' ∧ Reports slots events := by
  induction slots generalizing nextTcpStream with
  | nil => exact ⟨[], nextTcpStream, [], rfl, .nil, by simp, by simp⟩
  | cons slot slots ih =>
    obtain ⟨events, next, slot', hslot, hfollows, hevents⟩ :=
      pumpSlot_spec network nextTcpStream slot
    obtain ⟨rest, next', slots', hslots, hall, hrest, hsound⟩ := ih next
    simp only [pumpTcp, hslot, hslots, bind, Except.bind, pure, Except.pure]
    refine ⟨_, _, _, rfl, .cons hfollows hall, List.forall_mem_cons.mpr ⟨?_, ?_⟩, ?_⟩
    · intro hstate hstream hport
      have haccept : (.connected ("tcp-" ++ toString (nextTcpStream + 1)) slot.serviceId)
          ∈ (accept nextTcpStream slot).1 := by
        simp [accept, hstate, hstream, hport]
      rw [← hevents] at haccept
      exact ⟨_, List.mem_append_left _ (List.mem_of_mem_filter haccept)⟩
    · intro other hother hstate hstream hport
      obtain ⟨streamId, hmem⟩ := hrest other hother hstate hstream hport
      exact ⟨streamId, List.mem_append_right _ hmem⟩
    · intro streamId serviceId hmem
      rcases List.mem_append.mp hmem with hmem | hmem
      · have haccept : .connected streamId serviceId ∈ (accept nextTcpStream slot).1 :=
          hevents ▸ List.mem_filter.mpr ⟨hmem, rfl⟩
        exact ⟨slot, List.mem_cons_self, (serviceId_of_accept haccept).symm⟩
      · obtain ⟨other, hother, hid⟩ := hsound streamId serviceId hmem
        exact ⟨other, List.mem_cons_of_mem _ hother, hid⟩

/-! ## Listeners -/

/-- A slot is for a service of the network.  Unless its socket is closed, it is at the
address of the first service with the id of the slot. -/
structure TcpSlot.Placed (network : VirtualNetwork) (slot : TcpSlot) : Prop where
  port : slot.port = HTTP_PORT ∨ slot.port = HTTPS_PORT
  service : ∃ service, network.services.find? (·.id = slot.serviceId) = some service
    ∧ (slot.socket.state ≠ .closed → slot.socket.endpoint = some (service.addr, slot.port))

namespace TcpSlot

variable {network : VirtualNetwork} {slot slot' : TcpSlot}

theorem Placed.port_ne_zero (h : slot.Placed network) : slot.port ≠ 0 := by
  rcases h.port with hport | hport <;> simp [hport, HTTP_PORT, HTTPS_PORT]

theorem Placed.of_follows (h : slot.Placed network) (hfollows : slot.Follows slot') :
    slot'.Placed network := by
  obtain ⟨service, hfind, hendpoint⟩ := h.service
  refine ⟨by rw [hfollows.port]; exact h.port, service, by rw [hfollows.serviceId]; exact hfind, ?_⟩
  intro hstate
  rw [hfollows.evolves.endpoint hstate, hfollows.port]
  exact hendpoint fun hclosed => hstate (hfollows.evolves.closed hclosed)

theorem Placed.relisten (h : slot.Placed network) :
    ∃ slot', relisten network slot = .ok slot' ∧ slot'.Placed network := by
  obtain ⟨service, hfind, hendpoint⟩ := h.service
  unfold Netstack.relisten
  simp only [hfind]
  by_cases hopen : slot.socket.isOpen
  · exact ⟨slot, if_pos hopen, h⟩
  · rw [if_neg hopen, TcpSocket.listen_of_not_isOpen hopen service.addr h.port_ne_zero]
    exact ⟨_, rfl, h.port, service, hfind, fun _ => rfl⟩

end TcpSlot

variable {network : VirtualNetwork} {slots : List TcpSlot}

theorem mapM_relisten (h : ∀ slot ∈ slots, slot.Placed network) :
    ∃ slots', slots.mapM (relisten network) = .ok slots'
      ∧ ∀ slot ∈ slots', slot.Placed network := by
  induction slots with
  | nil => exact ⟨[], rfl, by simp⟩
  | cons slot slots ih =>
    obtain ⟨hslot, hslots⟩ := List.forall_mem_cons.mp h
    obtain ⟨slot', hslot', hplaced⟩ := hslot.relisten
    obtain ⟨slots', hslots', hall⟩ := ih hslots
    refine ⟨slot' :: slots', ?_, List.forall_mem_cons.mpr ⟨hplaced, hall⟩⟩
    rw [List.mapM_cons, hslot', hslots']
    rfl

theorem hasListener_append (slots : List TcpSlot) (slot : TcpSlot) (serviceId : String)
    (port : Nat) :
    hasListener (slots ++ [slot]) serviceId port
      = (hasListener slots serviceId port || hasListener [slot] serviceId port) := by
  simp [hasListener]

/-- A listener at an address of the first service with its id. -/
theorem addListener_spec {serviceId : String} {addr : Ipv4Address} {port : Nat}
    (h : ∀ slot ∈ slots, slot.Placed network) (hport : port = HTTP_PORT ∨ port = HTTPS_PORT)
    (hdesired : hasListener slots serviceId port
      ∨ ∃ service, network.services.find? (·.id = serviceId) = some service
        ∧ service.addr = addr) :
    ∃ slots', addListener network slots (serviceId, addr, port) = .ok slots'
      ∧ (∀ slot ∈ slots', slot.Placed network) ∧ hasListener slots' serviceId port
      ∧ ∀ id p, hasListener slots id p → hasListener slots' id p := by
  have hzero : port ≠ 0 := by
    rcases hport with rfl | rfl <;> simp [HTTP_PORT, HTTPS_PORT]
  unfold addListener
  dsimp only
  by_cases hlistener : hasListener slots serviceId port
  · rw [if_pos hlistener]
    exact ⟨slots, rfl, h, hlistener, fun _ _ hold => hold⟩
  · obtain ⟨service, hfind, rfl⟩ := hdesired.resolve_left hlistener
    rw [if_neg hlistener, TcpSocket.listen_of_not_isOpen (by decide) service.addr hzero]
    refine ⟨_, rfl, ?_, ?_, ?_⟩
    · intro slot hslot
      rcases List.mem_append.mp hslot with hold | hnew
      · exact h slot hold
      · rw [List.mem_singleton.mp hnew]
        exact ⟨hport, service, hfind, fun _ => rfl⟩
    · rw [hasListener_append]
      simp [hasListener]
    · intro id p hold
      rw [hasListener_append, hold, Bool.true_or]

/-- The listeners for the services at the head of the list. -/
theorem foldlM_addListener (h : ∀ slot ∈ slots, slot.Placed network)
    (services rest : List VirtualService) (hnet : network.services = services ++ rest) :
    ∃ slots', (services.flatMap fun service =>
        [HTTP_PORT, HTTPS_PORT].map fun port => (service.id, service.addr, port)).foldlM
          (addListener network) slots = .ok slots'
      ∧ (∀ slot ∈ slots', slot.Placed network)
      ∧ ∀ service ∈ services, hasListener slots' service.id HTTP_PORT
        ∧ hasListener slots' service.id HTTPS_PORT := by
  induction services using List.reverseRecOn generalizing rest with
  | nil => exact ⟨slots, rfl, h, by simp⟩
  | append_singleton services service ih =>
    obtain ⟨slots₁, hfold, hplaced₁, hlisten₁⟩ := ih (service :: rest) (by simp [hnet])
    -- an earlier service with the id has the listeners, or this one is the first
    have hdesired : (hasListener slots₁ service.id HTTP_PORT
          ∧ hasListener slots₁ service.id HTTPS_PORT)
        ∨ ∃ first, network.services.find? (·.id = service.id) = some first
          ∧ first.addr = service.addr := by
      by_cases hearlier : ∃ other ∈ services, other.id = service.id
      · obtain ⟨other, hother, hid⟩ := hearlier
        exact .inl (hid ▸ hlisten₁ other hother)
      · refine .inr ⟨service, ?_, rfl⟩
        have hnone : services.find? (·.id = service.id) = none := by
          simpa using hearlier
        simp [hnet, List.find?_append, hnone]
    obtain ⟨slots₂, hadd₂, hplaced₂, hlisten₂, hkeep₂⟩ := addListener_spec hplaced₁ (.inl rfl)
      (hdesired.imp And.left id)
    obtain ⟨slots₃, hadd₃, hplaced₃, hlisten₃, hkeep₃⟩ := addListener_spec hplaced₂ (.inr rfl)
      (hdesired.imp (fun hboth => hkeep₂ _ _ hboth.2) id)
    refine ⟨slots₃, ?_, hplaced₃, ?_⟩
    · rw [List.flatMap_append, List.foldlM_append, hfold]
      simp [bind, Except.bind, hadd₂, hadd₃, pure, Except.pure]
    · intro other hother
      rcases List.mem_append.mp hother with hold | hnew
      · obtain ⟨hhttp, hhttps⟩ := hlisten₁ other hold
        exact ⟨hkeep₃ _ _ (hkeep₂ _ _ hhttp), hkeep₃ _ _ (hkeep₂ _ _ hhttps)⟩
      · rw [List.mem_singleton.mp hnew]
        exact ⟨hkeep₃ _ _ hlisten₂, hlisten₃⟩

/-- `ensure_tcp_listeners` does not fail, and then every service has a listener on both
ports. -/
theorem ensureTcpListeners_spec (h : ∀ slot ∈ slots, slot.Placed network) :
    ∃ slots', ensureTcpListeners network slots = .ok slots'
      ∧ (∀ slot ∈ slots', slot.Placed network)
      ∧ ∀ service ∈ network.services, hasListener slots' service.id HTTP_PORT
        ∧ hasListener slots' service.id HTTPS_PORT := by
  obtain ⟨slots₁, hmap, hplaced⟩ := mapM_relisten h
  obtain ⟨slots₂, hfold, hrest⟩ := foldlM_addListener hplaced network.services [] (by simp)
  refine ⟨slots₂, ?_, hrest⟩
  rw [ensureTcpListeners, hmap]
  exact hfold

/-! ## Runs -/

namespace MediumStack

variable {interface : Interface} {stack stack' : MediumStack interface}

/-- The stack between two calls: every query was taken out, and the slots are at their
addresses. -/
structure Ready (stack : MediumStack interface) : Prop where
  rx : stack.dns.rx.isEmpty
  port : stack.dns.port = 0 ∨ stack.dns.port = DNS_PORT
  slots : ∀ slot ∈ stack.tcpSlots, slot.Placed stack.network

/-- The DNS socket after the packets of the device were read. -/
def received (stack : MediumStack interface) (now : Int) : UdpSocket :=
  (stack.deviceRx.foldl (ingress interface now)
    (stack.iface, { stack.dns with port := DNS_PORT })).2

/-- A call is not a poll that fails. -/
def Succeeds (stack : MediumStack interface) : Call → Prop
  | .poll now first second => (stack.poll now first second).isOk
  | _ => True

/-- A call is not a poll with an answer that cannot be sent. -/
def Answerable (stack : MediumStack interface) : Call → Prop
  | .poll now first _ =>
    Sendable ((stack.received now).tx.drain first.sent)
      (answers stack.network (stack.received now).rx.packets)
  | _ => True

variable {network : VirtualNetwork}

theorem new_ready {capacity : Nat} (h : new interface capacity network = some stack) :
    stack.Ready := by
  obtain ⟨addrs, -, rfl⟩ := Option.map_eq_some_iff.mp h
  refine ⟨rfl, .inl rfl, fun slot hslot => ?_⟩
  obtain ⟨service, hservice, hmem⟩ := List.mem_flatMap.mp hslot
  obtain ⟨port, hport, rfl⟩ := List.mem_map.mp hmem
  have hfirst : (network.services.find? (·.id = service.id)).isSome :=
    List.find?_isSome.mpr ⟨service, hservice, by simp⟩
  obtain ⟨first, hfirst⟩ := Option.isSome_iff_exists.mp hfirst
  exact ⟨by simpa using hport, first, hfirst, fun hclosed => absurd rfl hclosed⟩

/-- The stack with a bound DNS socket and other slots. -/
def listening (stack : MediumStack interface) (tcpSlots : List TcpSlot) : MediumStack interface :=
  { stack with dns := { stack.dns with port := DNS_PORT }, tcpSlots }

theorem prepare_spec (h : stack.Ready) :
    ∃ tcpSlots, stack.prepare = .ok (stack.listening tcpSlots)
      ∧ (∀ slot ∈ tcpSlots, slot.Placed stack.network)
      ∧ ∀ service ∈ stack.network.services, hasListener tcpSlots service.id HTTP_PORT
        ∧ hasListener tcpSlots service.id HTTPS_PORT := by
  obtain ⟨tcpSlots, hslots, hrest⟩ := ensureTcpListeners_spec h.slots
  have hdns : ensureDnsBound stack.dns = .ok { stack.dns with port := DNS_PORT } := by
    rw [ensureDnsBound, UdpSocket.isOpen]
    rcases h.port with hport | hport
    · simp [hport, UdpSocket.bind, UdpSocket.isOpen, DNS_PORT]
    · rw [if_pos (by simp [hport, DNS_PORT]), ← hport]
  refine ⟨tcpSlots, ?_, hrest⟩
  rw [prepare, hdns, hslots]
  rfl

theorem ingress_spec (now : Int) (packets : List Bytes) (x : interface.State × UdpSocket)
    (h : x.2.rx.Fresh) :
    (packets.foldl (ingress interface now) x).2.rx.Fresh
      ∧ (packets.foldl (ingress interface now) x).2.port = x.2.port := by
  induction packets generalizing x with
  | nil => exact ⟨h, rfl⟩
  | cons packet packets ih =>
    have hstep : (ingress interface now x packet).2.rx.Fresh
        ∧ (ingress interface now x packet).2.port = x.2.port := by
      unfold ingress
      split
      · exact ⟨h, rfl⟩
      · unfold UdpSocket.process
        split
        · exact ⟨h.offer _ _, rfl⟩
        · exact ⟨h, rfl⟩
    rw [List.foldl_cons]
    obtain ⟨hfresh, hport⟩ := ih _ hstep.1
    exact ⟨hfresh, hport.trans hstep.2⟩

variable {slots : List TcpSlot}

theorem placed_mapIdx (io : IfacePoll) (h : ∀ slot ∈ slots, slot.Placed network) :
    ∀ slot ∈ slots.mapIdx fun i slot => { slot with socket := io.tcp i slot.socket },
      slot.Placed network := by
  intro slot hslot
  obtain ⟨i, hi, rfl⟩ := List.mem_mapIdx.mp hslot
  exact (h _ (List.getElem_mem hi)).of_follows ⟨rfl, rfl, io.evolves i _⟩

/-- What related elements hand on holds of all of them. -/
theorem forall_mem_of_forall₂ {α β : Type} {R : α → β → Prop} {P : α → Prop} {Q : β → Prop}
    {as : List α} {bs : List β} (h : List.Forall₂ R as bs) (hstep : ∀ a b, R a b → P a → Q b)
    (hall : ∀ a ∈ as, P a) : ∀ b ∈ bs, Q b := by
  induction h with
  | nil => simp
  | cons hab _ ih =>
    obtain ⟨hhead, htail⟩ := List.forall_mem_cons.mp hall
    exact List.forall_mem_cons.mpr ⟨hstep _ _ hab hhead, ih htail⟩

/-- The pump succeeds if the answers can be sent, and otherwise it fails. -/
theorem pump_spec (stack : MediumStack interface) (hport : stack.dns.port = DNS_PORT)
    (hrx : stack.dns.rx.Unpadded) (hslots : ∀ slot ∈ stack.tcpSlots, slot.Placed stack.network) :
    Sendable stack.dns.tx (answers stack.network stack.dns.rx.packets)
        ∧ (∃ events stack', stack.pump = .ok (events, stack') ∧ stack'.Ready
          ∧ stack'.network = stack.network ∧ stack'.deviceRx = stack.deviceRx
          ∧ Reports stack.tcpSlots events)
      ∨ ¬Sendable stack.dns.tx (answers stack.network stack.dns.rx.packets)
        ∧ ∃ e, stack.pump = .error e := by
  have hopen : stack.dns.port ≠ 0 := by simp [hport, DNS_PORT]
  refine (pumpDns_spec stack.network _ hopen hrx (Nat.le_refl _)).imp ?_ ?_
  · rintro ⟨hsend, dns, hdns, hport', hempty⟩
    obtain ⟨events, next, slots, hpump, hfollows, hevents⟩ :=
      pumpTcp_spec stack.network stack.nextTcpStream stack.tcpSlots
    refine ⟨hsend, events, { stack with dns, nextTcpStream := next, tcpSlots := slots }, ?_, ?_,
      rfl, rfl, hevents⟩
    · rw [pump, hdns, hpump]
      rfl
    · exact ⟨hempty, .inr (hport'.trans hport), forall_mem_of_forall₂ hfollows
        (fun _ _ hslot hplaced => hplaced.of_follows hslot) hslots⟩
  · rintro ⟨hsend, e, he⟩
    refine ⟨hsend, e, ?_⟩
    rw [pump, he]
    rfl

/-- A poll of an interface without packets keeps the stack ready. -/
theorem Ready.ifacePoll (h : stack.Ready) (hrx : stack.deviceRx = []) (now : Int)
    (io : IfacePoll) : (stack.ifacePoll now io).Ready := by
  refine ⟨?_, ?_, placed_mapIdx io h.slots⟩
  · simpa [MediumStack.ifacePoll, hrx] using h.rx
  · simpa [MediumStack.ifacePoll, hrx] using h.port

/-- A poll succeeds and leaves the stack ready if the answers can be sent, and otherwise
it fails.  What it reports are the connections that are there between the two polls of
the interface. -/
theorem poll_spec (h : stack.Ready) (now : Int) (first second : IfacePoll) :
    Answerable stack (.poll now first second)
        ∧ (∃ events stack', stack.poll now first second = .ok (events, stack') ∧ stack'.Ready
          ∧ stack'.network = stack.network
          ∧ ∀ prepared, stack.prepare = .ok prepared →
            Reports (prepared.ifacePoll now first).tcpSlots events)
      ∨ ¬Answerable stack (.poll now first second)
        ∧ ∃ e, stack.poll now first second = .error e := by
  obtain ⟨tcpSlots, hprepare, hslots, -⟩ := prepare_spec h
  have hempty : ({ stack.dns with port := DNS_PORT } : UdpSocket).rx.Fresh :=
    PacketBuffer.fresh_of_isEmpty h.rx
  obtain ⟨hfresh, hport⟩ := ingress_spec now stack.deviceRx (stack.iface, _) hempty
  have hpoll : stack.poll now first second =
      (((stack.listening tcpSlots).ifacePoll now first).pump >>= fun pumped =>
        pure (pumped.1, pumped.2.ifacePoll now second)) := by
    rw [poll, hprepare]
    rfl
  rw [hpoll]
  refine (pump_spec ((stack.listening tcpSlots).ifacePoll now first) hport hfresh.unpadded
    (placed_mapIdx first hslots)).imp ?_ ?_
  · rintro ⟨hsend, events, pumped, hpump, hready, hnetwork, hrx, hevents⟩
    refine ⟨hsend, events, pumped.ifacePoll now second, ?_, hready.ifacePoll hrx now second,
      hnetwork, ?_⟩
    · rw [hpump]
      rfl
    · intro prepared hprepared
      cases hprepare.symm.trans hprepared
      exact hevents
  · rintro ⟨hsend, e, he⟩
    refine ⟨hsend, e, ?_⟩
    rw [he]
    rfl

variable {streamId : String} {f : TcpSlot → Option TcpSlot} {slots' : List TcpSlot}

/-- A call for a stream changes the first slot with the stream, and no other. -/
theorem modifyStream_eq_some_iff :
    modifyStream streamId f slots = some slots'
      ↔ ∃ before slot slot' after, slots = before ++ slot :: after
        ∧ slots' = before ++ slot' :: after ∧ (∀ s ∈ before, s.streamId ≠ some streamId)
        ∧ slot.streamId = some streamId ∧ f slot = some slot' := by
  constructor
  · intro h
    induction slots generalizing slots' with
    | nil => cases h
    | cons slot slots ih =>
      rw [modifyStream] at h
      split at h
      next hstream =>
        obtain ⟨slot', hslot', rfl⟩ := Option.map_eq_some_iff.mp h
        exact ⟨[], slot, slot', slots, rfl, rfl, by simp, hstream, hslot'⟩
      next hother =>
        obtain ⟨rest, hrest, rfl⟩ := Option.map_eq_some_iff.mp h
        obtain ⟨before, found, found', after, rfl, rfl, hbefore, hfound⟩ := ih hrest
        exact ⟨slot :: before, found, found', after, rfl, rfl,
          List.forall_mem_cons.mpr ⟨hother, hbefore⟩, hfound⟩
  · rintro ⟨before, slot, slot', after, rfl, rfl, hbefore, hstream, hslot'⟩
    induction before with
    | nil => rw [List.nil_append, modifyStream, if_pos hstream, hslot']; rfl
    | cons first before ih =>
      obtain ⟨hfirst, hbefore⟩ := List.forall_mem_cons.mp hbefore
      rw [List.cons_append, modifyStream, if_neg hfirst, ih hbefore]
      rfl

theorem modifyStream_forall₂ {R : TcpSlot → TcpSlot → Prop} (hrefl : ∀ slot, R slot slot)
    (hf : ∀ slot slot', slot.streamId = some streamId → f slot = some slot' → R slot slot')
    (hmodify : modifyStream streamId f slots = some slots') : List.Forall₂ R slots slots' := by
  have hsame : ∀ slots, List.Forall₂ R slots slots :=
    fun slots => List.forall₂_same.mpr fun slot _ => hrefl slot
  obtain ⟨before, slot, slot', after, rfl, rfl, -, hstream, hslot'⟩ :=
    modifyStream_eq_some_iff.mp hmodify
  exact List.rel_append (hsame before) (.cons (hf _ _ hstream hslot') (hsame after))

variable {bytes : Bytes}

/-- Sending to a stream changes what its socket has to send. -/
theorem sendTcp_forall₂ (hsend : stack.sendTcp streamId bytes = some stack') :
    ∃ tcpSlots, stack' = { stack with tcpSlots } ∧
      List.Forall₂ (fun before after => ∃ tx,
        after = { before with socket := { before.socket with tx } }) stack.tcpSlots tcpSlots := by
  obtain ⟨slots, hslots, rfl⟩ := Option.map_eq_some_iff.mp hsend
  refine ⟨slots, rfl, modifyStream_forall₂ (fun slot => ⟨slot.socket.tx, rfl⟩) ?_ hslots⟩
  intro slot slot' _ hslot
  cases hslice : slot.socket.sendSlice bytes with
  | error e => simp [hslice] at hslot
  | ok x =>
    simp only [hslice, Option.some.injEq] at hslot
    subst hslot
    rw [TcpSocket.sendSlice] at hslice
    split at hslice <;> cases hslice
    exact ⟨_, rfl⟩

/-- Closing a stream closes its socket and frees the slot. -/
theorem closeTcp_forall₂ (hclose : stack.closeTcp streamId = some stack') :
    ∃ tcpSlots, stack' = { stack with tcpSlots } ∧
      List.Forall₂ (fun before after => after = before ∨
        after = { before with socket := before.socket.close, streamId := none })
        stack.tcpSlots tcpSlots := by
  obtain ⟨slots, hslots, rfl⟩ := Option.map_eq_some_iff.mp hclose
  refine ⟨slots, rfl, modifyStream_forall₂ (fun _ => Or.inl rfl) ?_ hslots⟩
  rintro slot _ _ ⟨⟩
  exact Or.inr rfl

theorem Ready.sendTcp (h : stack.Ready) (hsend : stack.sendTcp streamId bytes = some stack') :
    stack'.Ready := by
  obtain ⟨slots, rfl, hslots⟩ := sendTcp_forall₂ hsend
  refine ⟨h.rx, h.port, forall_mem_of_forall₂ hslots ?_ h.slots⟩
  rintro before _ ⟨tx, rfl⟩ hplaced
  exact hplaced.of_follows ⟨rfl, rfl, .of_eq rfl rfl⟩

theorem Ready.closeTcp (h : stack.Ready) (hclose : stack.closeTcp streamId = some stack') :
    stack'.Ready := by
  obtain ⟨slots, rfl, hslots⟩ := closeTcp_forall₂ hclose
  refine ⟨h.rx, h.port, forall_mem_of_forall₂ hslots ?_ h.slots⟩
  rintro before after (rfl | rfl) hplaced
  · exact hplaced
  · exact hplaced.of_follows ⟨rfl, rfl, before.socket.evolves_close⟩

/-- The stack stays ready. -/
theorem step_ready (h : stack.Ready) {call : Call} (hstep : stack.step call = some stack') :
    stack'.Ready := by
  cases call with
  | push packet =>
    cases hstep
    exact ⟨h.rx, h.port, h.slots⟩
  | pop =>
    cases hstep
    unfold popTunPacket
    split
    · exact h
    · exact ⟨h.rx, h.port, h.slots⟩
  | poll now first second =>
    rcases poll_spec h now first second with ⟨-, events, after, hpoll, hready, -⟩ | ⟨-, e, he⟩
    · simp only [step, hpoll, Option.some.injEq] at hstep
      exact hstep ▸ hready
    · simp [step, he] at hstep
  | send streamId bytes =>
    cases hsend : stack.sendTcp streamId bytes with
    | none =>
      simp only [step, hsend, Option.getD_none, Option.some.injEq] at hstep
      exact hstep ▸ h
    | some after =>
      simp only [step, hsend, Option.getD_some, Option.some.injEq] at hstep
      exact hstep ▸ h.sendTcp hsend
  | close streamId =>
    cases hclose : stack.closeTcp streamId with
    | none =>
      simp only [step, hclose, Option.getD_none, Option.some.injEq] at hstep
      exact hstep ▸ h
    | some after =>
      simp only [step, hclose, Option.getD_some, Option.some.injEq] at hstep
      exact hstep ▸ h.closeTcp hclose

theorem succeeds_iff (h : stack.Ready) (call : Call) :
    stack.Succeeds call ↔ stack.Answerable call := by
  cases call with
  | poll now first second =>
    rcases poll_spec h now first second with ⟨hanswer, events, after, hpoll, -⟩ | ⟨hanswer, e, he⟩
    · simp [Succeeds, hpoll, hanswer, Except.isOk, Except.toBool]
    · simp [Succeeds, he, hanswer, Except.isOk, Except.toBool]
  | push packet => exact Iff.rfl
  | pop => exact Iff.rfl
  | send streamId bytes => exact Iff.rfl
  | close streamId => exact Iff.rfl

/-- In a run of the stack every poll succeeds exactly if at every poll the answers to the
queries that were pushed have a port and an address to go to and fit into the buffer of
the DNS socket. -/
theorem polls_succeed_iff {capacity : Nat} {network : VirtualNetwork}
    (started : new interface capacity network = some stack) (calls : List Call) :
    Trace.Meets step Succeeds stack calls ↔ Trace.Meets step Answerable stack calls :=
  Trace.meets_congr (fun _ _ _ h hstep => step_ready h hstep) (fun _ call h => succeeds_iff h call)
    calls stack (new_ready started)

/-! ### A query from port 0 -/

/-- Nothing happens in the interface. -/
def idle : IfacePoll where
  tcp _ socket := socket
  evolves _ _ := .of_eq rfl rfl
  sent := 0
  written := []

/-- A plain packet with a datagram from the client to the DNS address. -/
def plainPacket (sourcePort : Nat) (payload : Bytes) : Bytes :=
  let header (checksum : Nat) : Bytes :=
    [0x45, 0] ++ toBeBytes 2 (28 + payload.length) ++ [0, 0, 0, 0, 64, 17]
      ++ toBeBytes 2 checksum ++ DEFAULT_CLIENT_ADDR.octets ++ DEFAULT_DNS_ADDR.octets
  header (65535 - headerSum (header 0) % 65535)
    ++ toBeBytes 2 sourcePort ++ toBeBytes 2 DNS_PORT ++ toBeBytes 2 (8 + payload.length) ++ [0, 0]
    ++ payload

def sampleNetwork : VirtualNetwork :=
  Netstack.network asciiLowercase [⟨"svc_web", none, "https"⟩]

/-- The stack of one service. -/
def sampleStack : MediumStack plainInterface :=
  .withAddrs plainInterface sampleNetwork (cidrs sampleNetwork)

theorem new_sampleStack :
    new plainInterface IFACE_MAX_ADDR_COUNT sampleNetwork = some sampleStack :=
  stack_eq_some_iff.mpr ⟨by decide, rfl⟩

/-- A query from another port is answered. -/
theorem polls_succeed_iff_query :
    new plainInterface IFACE_MAX_ADDR_COUNT sampleNetwork = some sampleStack
      ∧ answers sampleNetwork
          ((sampleStack.pushTunPacket (plainPacket 5353 sampleQuery.packet)).received 0).rx.packets
        = [(⟨.v4 0x0a580002, 5353⟩, sampleQuery.answer ⟨10, 88, 0, 10⟩)]
      ∧ Trace.Meets step Succeeds sampleStack
        [.push (plainPacket 5353 sampleQuery.packet), .poll 0 idle idle] := by
  refine ⟨new_sampleStack, by decide +kernel, ?_⟩
  refine (polls_succeed_iff new_sampleStack _).mpr ⟨trivial, ?_⟩
  rintro _ ⟨⟩
  refine ⟨?_, fun _ _ => trivial⟩
  show Sendable _ _
  decide +kernel

/-- A query from port 0 makes the poll fail. -/
theorem query_from_port_zero :
    ∃ stack, new plainInterface IFACE_MAX_ADDR_COUNT sampleNetwork = some stack
      ∧ ((stack.pushTunPacket (plainPacket 0 sampleQuery.packet)).poll 0 idle idle).map Prod.fst
        = .error .unaddressable := by
  refine ⟨sampleStack, new_sampleStack, ?_⟩
  decide +kernel

end MediumStack

end MediumOverlay.Netstack
