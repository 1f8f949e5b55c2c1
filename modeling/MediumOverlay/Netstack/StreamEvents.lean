import MediumOverlay.Netstack.Segments

/-!
# The events of a stream

A connection gets a stream id when `pump_tcp` first sees it established.  From then on
the slot reports under that id: that the connection is there, the bytes received, and
that it is closed.  `Pumped` says what the pump of one slot can do, and `Labelled` is
what it keeps: no two slots have the same id, an id is not used again, and what was
reported under it is the beginning of an orderly stream.
-/

namespace MediumOverlay.Netstack

open Fallible Trace

/-! ## Ids and logs -/

/-- The id of the `n`-th stream. -/
def tcpId (n : Nat) : String := "tcp-" ++ toString n

theorem tcpId_inj {m n : Nat} : tcpId m = tcpId n ↔ m = n := by
  unfold tcpId
  rw [String.append_right_inj]
  exact Nat.repr_inj

namespace TcpPumpEvent

def streamId : TcpPumpEvent → String
  | connected streamId _ => streamId
  | received streamId _ _ => streamId
  | closed streamId _ => streamId

def isClosed : TcpPumpEvent → Bool
  | closed _ _ => true
  | connected _ _ | received _ _ _ => false

end TcpPumpEvent

/-- The events of a stream. -/
def eventsOf (streamId : String) (log : List TcpPumpEvent) : List TcpPumpEvent :=
  log.filter fun event => event.streamId = streamId

variable {streamId : String}

@[simp] theorem eventsOf_append (streamId : String) (log log' : List TcpPumpEvent) :
    eventsOf streamId (log ++ log') = eventsOf streamId log ++ eventsOf streamId log' :=
  List.filter_append ..

theorem eventsOf_eq_self {log : List TcpPumpEvent} (h : ∀ event ∈ log, event.streamId = streamId) :
    eventsOf streamId log = log :=
  List.filter_eq_self.mpr fun event hevent => decide_eq_true (h event hevent)

theorem eventsOf_eq_nil {log : List TcpPumpEvent} (h : ∀ event ∈ log, event.streamId ≠ streamId) :
    eventsOf streamId log = [] :=
  List.filter_eq_nil_iff.mpr fun event hevent => by simpa using h event hevent

variable {streamId streamId' serviceId : String} {log events : List TcpPumpEvent}

/-- Events of one stream come after those that it had. -/
theorem eventsOf_append_self (h : ∀ event ∈ events, event.streamId = streamId) :
    eventsOf streamId (log ++ events) = eventsOf streamId log ++ events := by
  rw [eventsOf_append, eventsOf_eq_self h]

/-- Another stream has the events that it had. -/
theorem eventsOf_append_of_ne (h : ∀ event ∈ events, event.streamId = streamId)
    (hne : streamId' ≠ streamId) : eventsOf streamId' (log ++ events) = eventsOf streamId' log := by
  have hnil : eventsOf streamId' events = [] := eventsOf_eq_nil fun event hevent hid =>
    hne (hid.symm.trans (h event hevent))
  rw [eventsOf_append, hnil, List.append_nil]

theorem streamId_received (streamId serviceId : String) (payloads : List Bytes) :
    ∀ event ∈ payloads.map (TcpPumpEvent.received streamId serviceId),
      event.streamId = streamId := by
  intro event hevent
  obtain ⟨bytes, -, rfl⟩ := List.mem_map.mp hevent
  rfl

/-- A stream that is open: it was connected, and bytes were received. -/
def OpenStream (streamId serviceId : String) (events : List TcpPumpEvent) : Prop :=
  ∃ payloads : List Bytes,
    events = .connected streamId serviceId :: payloads.map (.received streamId serviceId)

/-- An orderly stream: it was connected, bytes were received, and it may be closed, all
for one service. -/
def OrderlyStream (streamId : String) (events : List TcpPumpEvent) : Prop :=
  ∃ serviceId start rest, events = start ++ rest ∧ OpenStream streamId serviceId start ∧
    (rest = [] ∨ rest = [.closed streamId serviceId])

/-! ## The pump of one slot -/

/-- What `poll_socket` leaves of a socket. -/
def TcpSocket.read (socket : TcpSocket) : TcpSocket :=
  if socket.canRecv then
    { socket with
      rx := socket.rx.drop socket.contiguous
      contiguous := (socket.rx.drop socket.contiguous).length }
  else socket

@[simp] theorem TcpSocket.read_state (socket : TcpSocket) : socket.read.state = socket.state := by
  unfold TcpSocket.read
  split <;> rfl

/-- The service of an address is the one that has it. -/
def VirtualNetwork.Addressed (network : VirtualNetwork) : Prop :=
  ∀ service ∈ network.services, network.serviceForAddr service.addr = some service

theorem addressed_network {lowercase : Lowercase} {services : List PublishedService}
    {network : VirtualNetwork} (built : VirtualNetwork.new lowercase services = .ok network) :
    network.Addressed := by
  obtain ⟨hlen, rfl⟩ := VirtualNetwork.new_eq_ok_iff.mp built
  intro service hservice
  obtain ⟨i, hi⟩ := List.getElem?_of_mem hservice
  obtain ⟨published, hpublished, rfl⟩ := services_getElem?.mp hi
  exact serviceForAddr_addrAt hlen hpublished

variable {network : VirtualNetwork} {slot slot' : TcpSlot}

/-- A slot reports for its own service. -/
theorem pollSocket_eq (haddr : network.Addressed) (h : slot.Placed network) (streamId : String) :
    pollSocket slot.socket network streamId slot.serviceId =
      .ok (if slot.socket.canRecv then
          [.received streamId slot.serviceId (slot.socket.rx.take slot.socket.contiguous)]
        else [], slot.socket.read) := by
  obtain ⟨service, hfind, hendpoint⟩ := h.service
  have hid : service.id = slot.serviceId := by simpa using List.find?_some hfind
  have hservice : ((slot.socket.localEndpoint.bind fun endpoint =>
      network.serviceForAddr endpoint.1).map VirtualService.id).getD slot.serviceId =
        slot.serviceId := by
    cases hlocal : slot.socket.localEndpoint with
    | none => rfl
    | some endpoint =>
      have hstate : slot.socket.state ≠ .closed := by
        intro hclosed
        simp [TcpSocket.localEndpoint, hclosed] at hlocal
      have hsame : slot.socket.localEndpoint = none ∨
          slot.socket.localEndpoint = slot.socket.endpoint := by
        unfold TcpSocket.localEndpoint
        split <;> simp
      rw [hlocal, hendpoint hstate] at hsame
      have hendpoint : endpoint = (service.addr, slot.port) := by simpa using hsame
      rw [hendpoint, Option.bind_some, haddr service (List.mem_of_find?_eq_some hfind),
        Option.map_some, Option.getD_some, hid]
  rw [pollSocket, hservice, TcpSocket.read]
  by_cases hrecv : slot.socket.canRecv
  · have hmay : slot.socket.mayRecv = true := (Bool.and_eq_true_iff.mp hrecv).1
    simp only [if_pos hrecv, TcpSocket.recv, if_pos hmay]
    rfl
  · simp only [if_neg hrecv]

variable {socket : TcpSocket}

/-- An established connection stays active while it is redirected. -/
theorem redirect_isActive {socket' : TcpSocket} {hostname : String}
    (h : redirectHttpToHttps socket hostname = .ok socket') (hstate : socket.state = .established) :
    socket'.isActive = true := by
  unfold redirectHttpToHttps at h
  split at h
  next =>
    cases h
    simp [TcpSocket.isActive, hstate]
  next =>
    obtain ⟨⟨bytes, read⟩, hread, h⟩ := bind_eq_ok_iff.mp h
    have hreadState : read.state = .established := by
      unfold TcpSocket.recv at hread
      split at hread
      next =>
        cases hread
        exact hstate
      next => split at hread <;> cases hread
    dsimp only at h
    split at h
    next =>
      obtain ⟨⟨sent, written⟩, hsent, h⟩ := bind_eq_ok_iff.mp h
      cases h
      have hwrittenState : written.state = .established := by
        unfold TcpSocket.sendSlice at hsent
        split at hsent <;> cases hsent
        exact hreadState
      simp [TcpSocket.isActive, TcpSocket.close, hwrittenState]
    next =>
      cases h
      simp [TcpSocket.isActive, TcpSocket.close, hreadState]

/-- A stream whose connection is over. -/
def TcpSocket.isOver (socket : TcpSocket) : Bool := !socket.isActive && !socket.mayRecv

/-- A socket without a connection is over once it is read. -/
theorem TcpSocket.isOver_read (h : socket.hasConnection = false) : socket.read.isOver = true := by
  obtain ⟨hactive, hrx⟩ := Bool.or_eq_false_iff.mp h
  have hempty : socket.rx.isEmpty = true := by simpa using hrx
  have hread : socket.read = socket := by
    unfold TcpSocket.read
    rw [if_neg (by simp [TcpSocket.canRecv, hempty])]
  rw [hread]
  cases hstate : socket.state <;>
    simp_all [TcpSocket.isOver, TcpSocket.isActive, TcpSocket.mayRecv]

/-- What the pump of a slot can do.  Only a slot of the HTTPS port reports bytes, and it
reads its socket as `poll_socket` does. -/
inductive Pumped (slot : TcpSlot) (next : Nat) : List TcpPumpEvent → Nat → TcpSlot → Prop where
  /-- There is no stream. -/
  | idle (none : slot.streamId = none) (state : slot.socket.state ≠ .established) :
      Pumped slot next [] next slot
  /-- A stream begins. -/
  | accepted (none : slot.streamId = none) (state : slot.socket.state = .established)
      (payloads : List Bytes) (socket : TcpSocket)
      (https : slot.port = HTTPS_PORT → socket = slot.socket.read)
      (http : slot.port ≠ HTTPS_PORT → payloads = []) :
      Pumped slot next
        ((if slot.port = HTTPS_PORT then [.connected (tcpId (next + 1)) slot.serviceId] else []) ++
          payloads.map (.received (tcpId (next + 1)) slot.serviceId))
        (next + 1) { slot with socket, streamId := some (tcpId (next + 1)) }
  /-- A stream goes on. -/
  | kept (streamId : String) (some : slot.streamId = some streamId) (payloads : List Bytes)
      (socket : TcpSocket) (https : slot.port = HTTPS_PORT → socket = slot.socket.read)
      (http : slot.port ≠ HTTPS_PORT → payloads = []) (goesOn : socket.isOver = false) :
      Pumped slot next (payloads.map (.received streamId slot.serviceId)) next { slot with socket }
  /-- A stream ends. -/
  | closed (streamId : String) (some : slot.streamId = some streamId) (payloads : List Bytes)
      (socket : TcpSocket) (https : slot.port = HTTPS_PORT → socket = slot.socket.read)
      (http : slot.port ≠ HTTPS_PORT → payloads = []) (ended : socket.isOver = true) :
      Pumped slot next
        (payloads.map (.received streamId slot.serviceId) ++ [.closed streamId slot.serviceId])
        next { slot with socket, streamId := none }

variable {events : List TcpPumpEvent}

/-- What is read from a slot with a stream. -/
theorem pumpSocket_payloads (haddr : network.Addressed) (h : slot.Placed network)
    (hpump : pumpSocket network streamId slot = .ok (events, socket)) :
    ∃ payloads : List Bytes, events = payloads.map (.received streamId slot.serviceId) ∧
      (slot.port = HTTPS_PORT → socket = slot.socket.read) ∧
      (slot.port ≠ HTTPS_PORT → payloads = []) ∧
      (slot.socket.state = .established → socket.isActive = true) := by
  unfold pumpSocket at hpump
  split at hpump
  next hhttp =>
    obtain ⟨socket', hredirect, hpump⟩ := bind_eq_ok_iff.mp hpump
    cases hpump
    refine ⟨[], rfl, fun hhttps => ?_, fun _ => rfl, redirect_isActive hredirect⟩
    rw [hhttp] at hhttps
    cases hhttps
  next hhttp =>
    rw [pollSocket_eq haddr h] at hpump
    cases hpump
    refine ⟨if slot.socket.canRecv then [slot.socket.rx.take slot.socket.contiguous] else [], ?_,
      fun _ => rfl, fun hhttps => absurd (h.port.resolve_left hhttp) hhttps, ?_⟩
    · split <;> rfl
    · intro hstate
      simp [TcpSocket.isActive, hstate]

/-- What the pump of a slot with a stream does. -/
theorem pumpStream_cases (slot : TcpSlot) (haddr : network.Addressed) (h : slot.Placed network)
    (hpump : pumpStream network streamId slot = .ok (events, slot')) :
    ∃ payloads socket, (slot.port = HTTPS_PORT → socket = slot.socket.read) ∧
      (slot.port ≠ HTTPS_PORT → payloads = []) ∧
      (slot.socket.state = .established → socket.isActive = true) ∧
      ((socket.isOver = false ∧ events = payloads.map (.received streamId slot.serviceId) ∧
          slot' = { slot with socket }) ∨
        (socket.isOver = true ∧ events =
            payloads.map (.received streamId slot.serviceId) ++ [.closed streamId slot.serviceId] ∧
          slot' = { slot with socket, streamId := none })) := by
  obtain ⟨⟨read, socket⟩, hsocket, hpump⟩ := bind_eq_ok_iff.mp hpump
  obtain ⟨payloads, rfl, hhttps, hhttp, hactive⟩ := pumpSocket_payloads haddr h hsocket
  refine ⟨payloads, socket, hhttps, hhttp, hactive, ?_⟩
  dsimp only at hpump
  split at hpump
  next hover =>
    cases hpump
    exact Or.inr ⟨hover, rfl, rfl⟩
  next hover =>
    cases hpump
    exact Or.inl ⟨Bool.eq_false_iff.mpr hover, rfl, rfl⟩

variable {next next' : Nat}

theorem pumpSlot_pumped (haddr : network.Addressed) (h : slot.Placed network)
    (hpump : pumpSlot network next slot = .ok (events, next', slot')) :
    Pumped slot next events next' slot' := by
  unfold pumpSlot accept at hpump
  by_cases hnew : slot.socket.state = .established ∧ slot.streamId = none
  · obtain ⟨hstate, hnone⟩ := hnew
    simp only [hstate, hnone, and_self, if_true] at hpump
    obtain ⟨⟨read, after⟩, hstream, hpump⟩ := bind_eq_ok_iff.mp hpump
    cases hpump
    obtain ⟨payloads, socket, hhttps, hhttp, hactive, hcases⟩ :=
      pumpStream_cases { slot with streamId := some (tcpId (next + 1)) } haddr ⟨h.port, h.service⟩
        hstream
    rcases hcases with ⟨-, rfl, rfl⟩ | ⟨hover, -⟩
    · exact .accepted hnone hstate payloads socket hhttps hhttp
    · simp [TcpSocket.isOver, hactive hstate] at hover
  · rw [if_neg hnew] at hpump
    dsimp only at hpump
    cases hid : slot.streamId with
    | none =>
      simp only [hid] at hpump
      cases hpump
      exact .idle hid fun hstate => hnew ⟨hstate, hid⟩
    | some streamId =>
      simp only [hid] at hpump
      obtain ⟨⟨read, after⟩, hstream, hpump⟩ := bind_eq_ok_iff.mp hpump
      cases hpump
      obtain ⟨payloads, socket, hhttps, hhttp, -, hcases⟩ :=
        pumpStream_cases slot haddr h hstream
      rcases hcases with ⟨hover, rfl, rfl⟩ | ⟨hover, rfl, rfl⟩
      · exact .kept streamId hid payloads socket hhttps hhttp hover
      · exact .closed streamId hid payloads socket hhttps hhttp hover

/-- What the pump of all slots can do. -/
inductive PumpedAll : Nat → List TcpSlot → List TcpPumpEvent → Nat → List TcpSlot → Prop where
  | nil (next : Nat) : PumpedAll next [] [] next []
  | cons {next next' next'' : Nat} {slot slot' : TcpSlot} {slots slots' : List TcpSlot}
      {events rest : List TcpPumpEvent} (head : Pumped slot next events next' slot')
      (tail : PumpedAll next' slots rest next'' slots') :
      PumpedAll next (slot :: slots) (events ++ rest) next'' (slot' :: slots')

variable {slots slots' : List TcpSlot}

theorem pumpTcp_pumpedAll (haddr : network.Addressed) (h : ∀ slot ∈ slots, slot.Placed network)
    (hpump : pumpTcp network next slots = .ok (events, next', slots')) :
    PumpedAll next slots events next' slots' := by
  induction slots generalizing next events slots' with
  | nil =>
    cases hpump
    exact .nil _
  | cons slot slots ih =>
    obtain ⟨hslot, hslots⟩ := List.forall_mem_cons.mp h
    obtain ⟨⟨head, next₁, slot'⟩, hhead, hpump⟩ := bind_eq_ok_iff.mp hpump
    obtain ⟨⟨rest, next₂, slots₂⟩, htail, hpump⟩ := bind_eq_ok_iff.mp hpump
    cases hpump
    exact .cons (pumpSlot_pumped haddr hslot hhead) (ih hslots htail)

/-- What became of one slot. -/
theorem PumpedAll.get (h : PumpedAll next slots events next' slots') {i : Nat}
    (hslot : slots'[i]? = some slot') :
    ∃ slot n own n', slots[i]? = some slot ∧ next ≤ n ∧ Pumped slot n own n' slot' ∧
      ∀ event ∈ own, event ∈ events := by
  induction h generalizing i with
  | nil next => simp at hslot
  | @cons next next' next'' slot slot₁ slots slots₁ events rest head tail ih =>
    cases i with
    | zero =>
      rw [List.getElem?_cons_zero, Option.some_inj] at hslot
      subst hslot
      exact ⟨slot, next, events, next', rfl, Nat.le_refl _, head, fun event hevent =>
        List.mem_append_left _ hevent⟩
    | succ i =>
      obtain ⟨old, n, own, n', hold, hle, hpumped, hown⟩ := ih hslot
      have hnext : next ≤ next' := by cases head <;> omega
      exact ⟨old, n, own, n', hold, hnext.trans hle, hpumped, fun event hevent =>
        List.mem_append_right _ (hown event hevent)⟩

/-- Every event is one of a slot. -/
theorem PumpedAll.of_mem (h : PumpedAll next slots events next' slots') {event : TcpPumpEvent}
    (hevent : event ∈ events) :
    ∃ (i : Nat) (slot : TcpSlot) (n : Nat) (own : List TcpPumpEvent) (n' : Nat) (slot' : TcpSlot),
      slots[i]? = some slot ∧ Pumped slot n own n' slot' ∧ event ∈ own := by
  induction h with
  | nil next => cases hevent
  | @cons next next' next'' slot slot' slots slots' events rest head tail ih =>
    rcases List.mem_append.mp hevent with hhead | htail
    · exact ⟨0, slot, next, events, next', slot', rfl, head, hhead⟩
    · obtain ⟨i, slot, n, own, n', slot', hslot, hpumped, hown⟩ := ih htail
      exact ⟨i + 1, slot, n, own, n', slot', hslot, hpumped, hown⟩

theorem PumpedAll.length_eq (h : PumpedAll next slots events next' slots') :
    slots'.length = slots.length := by
  induction h with
  | nil next => rfl
  | cons head tail ih => rw [List.length_cons, List.length_cons, ih]

/-! ## What the pump keeps -/

/-- The slot is one of the HTTPS port and has this stream. -/
def TcpSlot.Serves (slot : TcpSlot) (streamId : String) : Prop :=
  slot.port = HTTPS_PORT ∧ slot.streamId = some streamId

/-- What is true of the slots and of the events so far.  `https` are the streams that
slots of the HTTPS port have had. -/
structure Labelled (https : String → Prop) (log : List TcpPumpEvent) (next : Nat)
    (slots : List TcpSlot) : Prop where
  /-- No two slots have the same stream. -/
  distinct : (slots.filterMap TcpSlot.streamId).Nodup
  /-- No stream has a number that is still to come. -/
  slotNumber : ∀ slot ∈ slots, ∀ streamId ∈ slot.streamId, ∃ n ≤ next, streamId = tcpId n
  eventNumber : ∀ event ∈ log, ∃ n ≤ next, event.streamId = tcpId n
  httpsNumber : ∀ streamId, https streamId → ∃ n ≤ next, streamId = tcpId n
  /-- The streams that slots have now. -/
  serving : ∀ slot ∈ slots, ∀ streamId, slot.Serves streamId → https streamId ∧
    OpenStream streamId slot.serviceId (eventsOf streamId log)
  plain : ∀ slot ∈ slots, ∀ streamId ∈ slot.streamId, slot.port ≠ HTTPS_PORT → ¬ https streamId
  orderly : ∀ streamId, https streamId → OrderlyStream streamId (eventsOf streamId log)
  reported : ∀ event ∈ log, event.isClosed = false → https event.streamId

variable {https : String → Prop} {next next' : Nat} {slots slots' before after : List TcpSlot}

theorem OpenStream.orderly (h : OpenStream streamId serviceId events) :
    OrderlyStream streamId events :=
  ⟨serviceId, events, [], (List.append_nil events).symm, h, Or.inl rfl⟩

/-- The slot keeps its stream, or gives it up. -/
structure TcpSlot.Keeps (before after : TcpSlot) : Prop where
  serviceId : after.serviceId = before.serviceId
  port : after.port = before.port
  streamId : after.streamId = before.streamId ∨ after.streamId = none

theorem TcpSlot.Keeps.streamId_eq (h : slot.Keeps slot') (hid : slot'.streamId = some streamId) :
    slot.streamId = some streamId := by
  rcases h.streamId with hsame | hnone
  · exact hsame.symm.trans hid
  · rw [hnone] at hid
    cases hid

theorem TcpSlot.Keeps.serves (h : slot.Keeps slot') (hserves : slot'.Serves streamId) :
    slot.Serves streamId :=
  ⟨h.port.symm.trans hserves.1, h.streamId_eq hserves.2⟩

theorem streamId_sublist (h : List.Forall₂ TcpSlot.Keeps slots slots') :
    (slots'.filterMap TcpSlot.streamId).Sublist (slots.filterMap TcpSlot.streamId) := by
  induction h with
  | nil => exact List.Sublist.refl _
  | @cons slot slot' _ _ hslot _ ih =>
    cases hid : slot'.streamId with
    | none =>
      rw [List.filterMap_cons_none hid]
      exact ih.trans ((List.sublist_cons_self slot _).filterMap _)
    | some streamId =>
      rw [List.filterMap_cons_some hid, List.filterMap_cons_some (hslot.streamId_eq hid)]
      exact ih.cons_cons streamId

/-- Only the labels of the slots matter, and a stream may be given up. -/
theorem Labelled.relabel (h : Labelled https log next slots)
    (hkeeps : List.Forall₂ TcpSlot.Keeps slots slots') : Labelled https log next slots' where
  distinct := h.distinct.sublist (streamId_sublist hkeeps)
  slotNumber := MediumStack.forall_mem_of_forall₂ hkeeps
    (fun _ _ hslot hnumber id hid => hnumber id (hslot.streamId_eq hid)) h.slotNumber
  eventNumber := h.eventNumber
  httpsNumber := h.httpsNumber
  serving := MediumStack.forall_mem_of_forall₂ hkeeps (fun _ _ hslot hserving id hserves => by
    rw [hslot.serviceId]
    exact hserving id (hslot.serves hserves)) h.serving
  plain := MediumStack.forall_mem_of_forall₂ hkeeps (fun _ _ hslot hplain id hid hport =>
    hplain id (hslot.streamId_eq hid) fun hhttps => hport (hslot.port.trans hhttps)) h.plain
  orderly := h.orderly
  reported := h.reported

/-- The new streams are counted as such. -/
theorem Labelled.congr {https' : String → Prop} (h : Labelled https log next slots)
    (heq : ∀ streamId, https streamId ↔ https' streamId) : Labelled https' log next slots := by
  rw [← funext fun streamId => propext (heq streamId)]
  exact h

/-- Slots without a stream can be added. -/
theorem Labelled.add {added : List TcpSlot} (h : Labelled https log next slots)
    (hnone : ∀ slot ∈ added, slot.streamId = none) :
    Labelled https log next (slots ++ added) := by
  have hids : added.filterMap TcpSlot.streamId = [] := List.filterMap_eq_nil_iff.mpr hnone
  refine { h with distinct := ?_, slotNumber := ?_, serving := ?_, plain := ?_ }
  · rw [List.filterMap_append, hids, List.append_nil]
    exact h.distinct
  · refine List.forall_mem_append.mpr ⟨h.slotNumber, fun slot hslot => ?_⟩
    simp [hnone slot hslot]
  · refine List.forall_mem_append.mpr ⟨h.serving, fun slot hslot => ?_⟩
    simp [TcpSlot.Serves, hnone slot hslot]
  · refine List.forall_mem_append.mpr ⟨h.plain, fun slot hslot => ?_⟩
    simp [hnone slot hslot]

/-- The stream that comes next is new. -/
theorem Labelled.fresh (h : Labelled https log next slots) :
    (∀ slot ∈ slots, slot.streamId ≠ some (tcpId (next + 1))) ∧
      eventsOf (tcpId (next + 1)) log = [] ∧ ¬ https (tcpId (next + 1)) := by
  have hnumber : ∀ streamId, (∃ n ≤ next, streamId = tcpId n) → streamId ≠ tcpId (next + 1) := by
    rintro streamId ⟨n, hn, rfl⟩ heq
    have := tcpId_inj.mp heq
    omega
  refine ⟨fun slot hslot hid => ?_, eventsOf_eq_nil fun event hevent => ?_, fun hid => ?_⟩
  · exact hnumber _ (h.slotNumber slot hslot _ hid) rfl
  · exact hnumber _ (h.eventNumber event hevent)
  · exact hnumber _ (h.httpsNumber _ hid) rfl

theorem nodup_streamId_of_some (hid : slot.streamId = some streamId) :
    ((before ++ slot :: after).filterMap TcpSlot.streamId).Nodup ↔
      (∀ other ∈ before ++ after, other.streamId ≠ some streamId) ∧
        ((before ++ after).filterMap TcpSlot.streamId).Nodup := by
  rw [List.filterMap_append, List.filterMap_cons_some hid, List.nodup_middle, List.nodup_cons,
    ← List.filterMap_append, List.mem_filterMap]
  simp only [not_exists, not_and, ne_eq]

theorem nodup_streamId_of_none (hnone : slot.streamId = none) :
    ((before ++ slot :: after).filterMap TcpSlot.streamId).Nodup ↔
      ((before ++ after).filterMap TcpSlot.streamId).Nodup := by
  rw [List.filterMap_append, List.filterMap_cons_none hnone, List.filterMap_append]

/-- A stream has one slot. -/
theorem Labelled.slot_unique (h : Labelled https log next slots) {i j : Nat}
    (hi : slots[i]? = some slot) (hj : slots[j]? = some slot')
    (hid : slot.streamId = some streamId) (hid' : slot'.streamId = some streamId) : i = j := by
  have hpairs : slots.Pairwise fun a b => ∀ id ∈ a.streamId, ∀ id' ∈ b.streamId, id ≠ id' :=
    List.pairwise_filterMap.mp h.distinct
  obtain ⟨hilen, hi⟩ := List.getElem?_eq_some_iff.mp hi
  obtain ⟨hjlen, hj⟩ := List.getElem?_eq_some_iff.mp hj
  subst hi hj
  by_contra hne
  rcases Nat.lt_or_gt_of_ne hne with hlt | hlt
  · exact List.pairwise_iff_getElem.mp hpairs i j hilen hjlen hlt _ hid _ hid' rfl
  · exact List.pairwise_iff_getElem.mp hpairs j i hjlen hilen hlt _ hid' _ hid rfl

/-- The other slots have other streams. -/
theorem Labelled.other (h : Labelled https log next (before ++ slot :: after))
    (hid : slot.streamId = some streamId) :
    ∀ other ∈ before ++ after, other.streamId ≠ some streamId :=
  ((nodup_streamId_of_some hid).mp h.distinct).1

theorem forall_mem_middle {P : TcpSlot → Prop} :
    (∀ s ∈ before ++ slot :: after, P s) ↔ P slot ∧ ∀ s ∈ before ++ after, P s := by
  simp only [List.forall_mem_append, List.forall_mem_cons, and_left_comm]

theorem eventNumber_append {new : List TcpPumpEvent}
    (hlog : ∀ event ∈ log, ∃ n ≤ next, event.streamId = tcpId n)
    (hnew : ∀ event ∈ new, event.streamId = streamId) (hnumber : ∃ n ≤ next, streamId = tcpId n) :
    ∀ event ∈ log ++ new, ∃ n ≤ next, event.streamId = tcpId n := by
  refine List.forall_mem_append.mpr ⟨hlog, fun event hevent => ?_⟩
  rw [hnew event hevent]
  exact hnumber

/-- Events of a stream do not concern the slots that do not have it. -/
theorem Labelled.serving_other {new : List TcpPumpEvent}
    (h : Labelled https log next (before ++ slot :: after))
    (hothers : ∀ other ∈ before ++ after, other.streamId ≠ some streamId)
    (hnew : ∀ event ∈ new, event.streamId = streamId) :
    ∀ other ∈ before ++ after, ∀ id, other.Serves id → https id ∧
      OpenStream id other.serviceId (eventsOf id (log ++ new)) := by
  intro other hother id hserves
  rw [eventsOf_append_of_ne hnew fun heq => hothers other hother (heq ▸ hserves.2)]
  exact (forall_mem_middle.mp h.serving).2 other hother id hserves

/-- A slot gets the next stream. -/
theorem Labelled.accept (h : Labelled https log next (before ++ slot :: after))
    (hnone : slot.streamId = none) :
    Labelled (fun id => https id ∨ (slot.port = HTTPS_PORT ∧ id = tcpId (next + 1)))
      (log ++ if slot.port = HTTPS_PORT then [.connected (tcpId (next + 1)) slot.serviceId] else [])
      (next + 1) (before ++ { slot with streamId := some (tcpId (next + 1)) } :: after) := by
  obtain ⟨hslots, hevents, hhttps⟩ := h.fresh
  have hothers := (forall_mem_middle.mp hslots).2
  have hnew : ∀ event ∈ (if slot.port = HTTPS_PORT then
      [TcpPumpEvent.connected (tcpId (next + 1)) slot.serviceId] else []),
      event.streamId = tcpId (next + 1) := by
    intro event hevent
    split at hevent
    next =>
      rw [List.mem_singleton.mp hevent]
      rfl
    next => cases hevent
  have hlater : ∀ {id : String}, (∃ n ≤ next, id = tcpId n) → ∃ n ≤ next + 1, id = tcpId n :=
    fun ⟨n, hn, hid⟩ => ⟨n, Nat.le_succ_of_le hn, hid⟩
  have hopen : slot.port = HTTPS_PORT → OpenStream (tcpId (next + 1)) slot.serviceId
      (eventsOf (tcpId (next + 1)) (log ++ if slot.port = HTTPS_PORT then
        [.connected (tcpId (next + 1)) slot.serviceId] else [])) := by
    intro hport
    rw [eventsOf_append_self hnew, hevents, if_pos hport]
    exact ⟨[], rfl⟩
  constructor
  case distinct =>
    exact (nodup_streamId_of_some rfl).mpr ⟨hothers, (nodup_streamId_of_none hnone).mp h.distinct⟩
  case slotNumber =>
    refine forall_mem_middle.mpr ⟨?_, fun other hother id hid => ?_⟩
    · intro id hid
      exact ⟨next + 1, Nat.le_refl _, (Option.some_inj.mp hid).symm⟩
    · exact hlater ((forall_mem_middle.mp h.slotNumber).2 other hother id hid)
  case eventNumber =>
    exact eventNumber_append (fun event hold => hlater (h.eventNumber event hold)) hnew
      ⟨next + 1, Nat.le_refl _, rfl⟩
  case httpsNumber =>
    rintro id (hid | ⟨-, rfl⟩)
    · exact hlater (h.httpsNumber id hid)
    · exact ⟨next + 1, Nat.le_refl _, rfl⟩
  case serving =>
    refine forall_mem_middle.mpr ⟨?_, fun other hother id hid => ?_⟩
    · rintro id ⟨hport, hid⟩
      cases hid
      exact ⟨Or.inr ⟨hport, rfl⟩, hopen hport⟩
    · obtain ⟨hserved, hstream⟩ := h.serving_other hothers hnew other hother id hid
      exact ⟨Or.inl hserved, hstream⟩
  case plain =>
    refine forall_mem_middle.mpr ⟨?_, fun other hother id hid hport => ?_⟩
    · rintro id hid hport (hold | ⟨hport', -⟩)
      · cases hid
        exact hhttps hold
      · exact hport hport'
    · rintro (hold | ⟨-, rfl⟩)
      · exact (forall_mem_middle.mp h.plain).2 other hother id hid hport hold
      · exact hothers other hother hid
  case orderly =>
    rintro id (hid | ⟨hport, rfl⟩)
    · rw [eventsOf_append_of_ne hnew fun heq => hhttps (heq ▸ hid)]
      exact h.orderly id hid
    · exact (hopen hport).orderly
  case reported =>
    intro event hevent hclosed
    rcases List.mem_append.mp hevent with hold | hevent
    · exact Or.inl (h.reported event hold hclosed)
    · refine Or.inr ⟨?_, hnew event hevent⟩
      by_contra hport
      rw [if_neg hport] at hevent
      cases hevent

/-- Bytes are reported for the stream of a slot. -/
theorem Labelled.receive (h : Labelled https log next (before ++ slot :: after))
    (hid : slot.streamId = some streamId) (payloads : List Bytes)
    (hhttp : slot.port ≠ HTTPS_PORT → payloads = []) :
    Labelled https (log ++ payloads.map (.received streamId slot.serviceId)) next
      (before ++ slot :: after) := by
  by_cases hport : slot.port = HTTPS_PORT
  · have hnew := streamId_received streamId slot.serviceId payloads
    obtain ⟨hserved, hstream⟩ := (forall_mem_middle.mp h.serving).1 streamId ⟨hport, hid⟩
    have hopen : OpenStream streamId slot.serviceId
        (eventsOf streamId (log ++ payloads.map (.received streamId slot.serviceId))) := by
      obtain ⟨earlier, heq⟩ := hstream
      rw [eventsOf_append_self hnew, heq]
      exact ⟨earlier ++ payloads, by simp⟩
    refine { h with eventNumber := ?_, serving := ?_, orderly := ?_, reported := ?_ }
    · exact eventNumber_append h.eventNumber hnew (h.httpsNumber streamId hserved)
    · refine forall_mem_middle.mpr ⟨?_, h.serving_other (h.other hid) hnew⟩
      rintro id ⟨-, hsame⟩
      rw [hid, Option.some_inj] at hsame
      rw [← hsame]
      exact ⟨hserved, hopen⟩
    · intro id hhttps
      by_cases heq : id = streamId
      · rw [heq]
        exact hopen.orderly
      · rw [eventsOf_append_of_ne hnew heq]
        exact h.orderly id hhttps
    · intro event hevent hclosed
      rcases List.mem_append.mp hevent with hold | hevent
      · exact h.reported event hold hclosed
      · rw [hnew event hevent]
        exact hserved
  · rw [hhttp hport, List.map_nil, List.append_nil]
    exact h

/-- The stream of a slot is closed. -/
theorem Labelled.finish (h : Labelled https log next (before ++ slot :: after))
    (hid : slot.streamId = some streamId) :
    Labelled https (log ++ [.closed streamId slot.serviceId]) next
      (before ++ { slot with streamId := none } :: after) := by
  have hnew : ∀ event ∈ [TcpPumpEvent.closed streamId slot.serviceId],
      event.streamId = streamId := by simp [TcpPumpEvent.streamId]
  obtain ⟨hnumber, hnumbers⟩ := forall_mem_middle.mp h.slotNumber
  constructor
  case distinct =>
    exact (nodup_streamId_of_none rfl).mpr ((nodup_streamId_of_some hid).mp h.distinct).2
  case slotNumber =>
    exact forall_mem_middle.mpr ⟨by simp, hnumbers⟩
  case eventNumber =>
    exact eventNumber_append h.eventNumber hnew (hnumber streamId hid)
  case httpsNumber => exact h.httpsNumber
  case serving =>
    exact forall_mem_middle.mpr ⟨by simp [TcpSlot.Serves], h.serving_other (h.other hid) hnew⟩
  case plain =>
    exact forall_mem_middle.mpr ⟨by simp, (forall_mem_middle.mp h.plain).2⟩
  case orderly =>
    intro id hhttps
    by_cases heq : id = streamId
    · -- the stream is one of the HTTPS port, and it was open
      subst heq
      have hport : slot.port = HTTPS_PORT := by
        by_contra hport
        exact (forall_mem_middle.mp h.plain).1 id hid hport hhttps
      obtain ⟨-, hstream⟩ := (forall_mem_middle.mp h.serving).1 id ⟨hport, hid⟩
      rw [eventsOf_append_self hnew]
      exact ⟨slot.serviceId, _, _, rfl, hstream, Or.inr rfl⟩
    · rw [eventsOf_append_of_ne hnew heq]
      exact h.orderly id hhttps
  case reported =>
    intro event hevent hclosed
    rcases List.mem_append.mp hevent with hold | hevent
    · exact h.reported event hold hclosed
    · rw [List.mem_singleton.mp hevent] at hclosed
      cases hclosed

/-- What the pump of one slot keeps. -/
theorem Labelled.pumped (h : Labelled https log next (before ++ slot :: after))
    (hpump : Pumped slot next events next' slot') :
    Labelled (fun id => https id ∨ slot'.Serves id) (log ++ events) next'
      (before ++ slot' :: after) := by
  have hsocket : ∀ (slot : TcpSlot) (socket : TcpSocket), List.Forall₂ TcpSlot.Keeps
      (before ++ slot :: after) (before ++ { slot with socket } :: after) := by
    intro slot socket
    have hsame : ∀ slots : List TcpSlot, List.Forall₂ TcpSlot.Keeps slots slots := by
      intro slots
      exact List.forall₂_same.mpr fun _ _ => ⟨rfl, rfl, Or.inl rfl⟩
    exact List.rel_append (hsame before) (.cons ⟨rfl, rfl, Or.inl rfl⟩ (hsame after))
  cases hpump with
  | idle hnone hstate =>
    rw [List.append_nil]
    exact h.congr fun id => by simp [TcpSlot.Serves, hnone]
  | accepted hnone hstate payloads socket hhttps hhttp =>
    have haccept := (h.accept hnone).receive rfl payloads hhttp
    rw [List.append_assoc] at haccept
    refine (haccept.relabel (hsocket _ socket)).congr fun id => ?_
    simp [TcpSlot.Serves, eq_comm]
  | kept streamId hid payloads socket hhttps hhttp hover =>
    refine ((h.receive hid payloads hhttp).relabel (hsocket slot socket)).congr fun id => ?_
    refine ⟨Or.inl, fun hserves => hserves.elim (fun hold => hold) fun hserves => ?_⟩
    exact ((forall_mem_middle.mp h.serving).1 id hserves).1
  | closed streamId hid payloads socket hhttps hhttp hover =>
    have hfinish := (h.receive hid payloads hhttp).finish hid
    rw [List.append_assoc] at hfinish
    refine (hfinish.relabel (hsocket _ socket)).congr fun id => ?_
    simp [TcpSlot.Serves]

/-- What the pump keeps.  The slots before those that are left were pumped already. -/
theorem Labelled.pumpedAll (before : List TcpSlot) (h : Labelled https log next (before ++ slots))
    (hpump : PumpedAll next slots events next' slots') :
    Labelled (fun id => https id ∨ ∃ slot ∈ slots', slot.Serves id) (log ++ events) next'
      (before ++ slots') := by
  induction hpump generalizing before log https with
  | nil next =>
    rw [List.append_nil]
    exact h.congr fun id => by simp
  | @cons next next' next'' slot slot' slots slots' events rest head tail ih =>
    have hhead := h.pumped head
    rw [← List.singleton_append, ← List.append_assoc] at hhead
    have htail := ih (before ++ [slot']) hhead
    rw [List.append_assoc, List.append_assoc, List.singleton_append] at htail
    refine htail.congr fun id => ?_
    rw [List.exists_mem_cons_iff, or_assoc]

end MediumOverlay.Netstack
