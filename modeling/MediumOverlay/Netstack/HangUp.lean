import MediumOverlay.Netstack.Connections

/-!
# Clients that hang up

The pump closes a stream when its socket is not active and has nothing to receive.  A
socket whose client has sent a FIN is in `CloseWait`, which is active.  So a client that
hangs up in order is not reported, and its slot stays taken until the backend closes the
stream.  Only a reset is reported, and that only if no new connection is faster
(`hang_up_reported_iff`).
-/

namespace MediumOverlay.Netstack

open Fallible Trace

/-! ## Sockets that this side has not closed -/

namespace TcpSocket

variable {socket : TcpSocket}

/-- The client has closed its side: there is no connection from which bytes may come. -/
def HungUp (socket : TcpSocket) : Prop :=
  socket.state ∉ [.synSent, .synReceived, .established, .finWait1, .finWait2]

/-- This side has not closed the connection. -/
def Upright (socket : TcpSocket) : Prop :=
  socket.state ∈ [.closed, .listen, .synReceived, .established, .closeWait]

theorem Upright.process (h : socket.Upright) (segment : Segment) :
    (socket.process segment).Upright := by
  cases hstate : socket.state <;> cases segment <;> simp_all [Upright, TcpSocket.process]

theorem Upright.receive (h : socket.Upright) (segments : List Segment) :
    (socket.receive segments).Upright := by
  induction segments generalizing socket with
  | nil => exact h
  | cons segment segments ih => exact ih (h.process segment)

/-- A socket of a client that has hung up. -/
theorem Upright.hungUp (h : socket.Upright) (hungUp : socket.HungUp) :
    socket.state = .closeWait ∨ socket.state = .closed ∨ socket.state = .listen := by
  cases hstate : socket.state <;> simp_all [Upright, HungUp]

theorem receive_closed (h : socket.state = .closed) (segments : List Segment) :
    socket.receive segments = socket := by
  induction segments with
  | nil => rfl
  | cons segment segments ih =>
    have hsame : socket.process segment = socket := by
      cases segment <;> simp [process, h]
    rw [receive_cons, hsame, ih]

/-- A closed socket is over if one read takes all that it holds. -/
theorem isOver_closed (h : socket.state = .closed) :
    socket.read.isOver = decide (socket.rx.length ≤ socket.contiguous) := by
  by_cases hrx : socket.rx = []
  · simp [read, canRecv, mayRecv, isOver, isActive, h, hrx]
  · rw [Bool.eq_iff_iff, decide_eq_true_iff, ← List.drop_eq_nil_iff]
    simp [read, canRecv, mayRecv, isOver, isActive, h, hrx]

/-- In `CloseWait` only a reset ends the connection. -/
theorem isOver_closeWait (h : socket.state = .closeWait) (segments : List Segment) :
    (socket.receive segments).read.isOver =
      decide (socket.rx.length ≤ socket.contiguous ∧ .rst ∈ segments) := by
  induction segments generalizing socket with
  | nil => simp [isOver, isActive, h]
  | cons segment segments ih =>
    rw [receive_cons]
    by_cases hrst : segment = .rst
    · subst hrst
      have hreset : socket.process .rst = { socket with state := .closed } := by simp [process, h]
      rw [hreset, receive_closed rfl, isOver_closed rfl]
      simp
    · have hstate : (socket.process segment).state = .closeWait := by
        cases segment <;> simp_all [process]
      have hrx : (socket.process segment).rx = socket.rx := by
        cases segment <;> simp_all [process]
      have hcontiguous : (socket.process segment).contiguous = socket.contiguous := by
        cases segment <;> simp_all [process]
      rw [ih hstate, hrx, hcontiguous]
      simp [Ne.symm hrst]

/-- No more bytes lie before the end of the ring than there are. -/
def Measured (socket : TcpSocket) : Prop := socket.contiguous ≤ socket.rx.length

theorem Measured.receive (h : socket.Measured) (segments : List Segment) :
    (socket.receive segments).Measured := by
  induction segments generalizing socket with
  | nil => exact h
  | cons segment segments ih =>
    refine ih ?_
    cases segment <;> simp only [process] <;> split <;>
      first | exact h | (split <;> exact h) | exact Nat.min_le_left _ _ | exact Nat.le_refl 0

theorem Measured.read (h : socket.Measured) : socket.read.Measured := by
  unfold TcpSocket.read
  split
  · exact Nat.le_refl _
  · exact h

end TcpSocket

/-! ## Segments for a socket that listens -/

/-- A connection that holds `length` bytes, of which `contiguous` lie before the end of
their ring, is reset, and one read takes all its bytes. -/
def resets (length contiguous : Nat) : List Segment → Bool
  | [] => false
  | .data bytes more :: segments =>
    resets (length + bytes.length)
      (min (length + bytes.length) (max 1 (max contiguous more))) segments
  -- nothing is taken after a FIN
  | .fin _ :: segments => length ≤ contiguous ∧ .rst ∈ segments
  | .rst :: _ => length ≤ contiguous
  | .syn :: segments | .ack _ _ :: segments | .expire :: segments =>
    resets length contiguous segments

/-- The segments leave a socket that listens, or that has got a SYN if `opening`, without
a connection and without bytes that one read does not take. -/
def passes : Bool → List Segment → Bool
  | opening, [] => !opening
  | false, .syn :: segments => passes true segments
  | false, _ :: segments => passes false segments
  | true, .ack _ _ :: segments => resets 0 0 segments
  | true, .fin _ :: segments => .rst ∈ segments
  | true, .rst :: segments => passes false segments
  | true, _ :: segments => passes true segments

namespace TcpSocket

variable {socket : TcpSocket}

theorem isOver_established (h : socket.state = .established) (segments : List Segment) :
    (socket.receive segments).read.isOver =
      resets socket.rx.length socket.contiguous segments := by
  induction segments generalizing socket with
  | nil => simp [resets, isOver, isActive, h]
  | cons segment segments ih =>
    rw [receive_cons]
    cases segment with
    | data bytes more =>
      rw [ih (by simp [process, h])]
      simp [resets, process, h]
    | fin ofFin =>
      rw [isOver_closeWait (by simp [process, h])]
      simp [resets, process, h]
    | rst =>
      have hclosed : (socket.process .rst).state = .closed := by simp [process, h]
      rw [receive_closed hclosed, isOver_closed hclosed]
      simp [resets, process, h]
    | syn | ack acked ofFin | expire =>
      rw [ih (by simp [process, h])]
      simp [resets, process, h]

/-- A socket that listens is over after the segments that leave it nothing. -/
theorem isOver_passes (opening : Bool)
    (h : socket.state = if opening then .synReceived else .listen) (hrx : socket.rx = [])
    (hcontiguous : socket.contiguous = 0) (segments : List Segment) :
    (socket.receive segments).read.isOver = passes opening segments := by
  induction segments generalizing socket opening with
  | nil => cases opening <;> simp_all [passes, read, canRecv, mayRecv, isOver, isActive]
  | cons segment segments ih =>
    rw [receive_cons]
    cases opening with
    | false =>
      have hlisten : socket.state = .listen := h
      by_cases hsyn : segment = .syn
      · subst hsyn
        exact ih true (by simp [process, hlisten]) (by simp [process, hlisten, hrx])
          (by simp [process, hlisten, hcontiguous])
      · rw [process_listen hlisten hsyn, ih false hlisten hrx hcontiguous]
        cases segment <;> simp_all [passes]
    | true =>
      have hreceived : socket.state = .synReceived := h
      cases segment with
      | ack acked ofFin =>
        rw [isOver_established (by simp [process, hreceived])]
        simp [passes, process, hreceived, hrx, hcontiguous]
      | fin ofFin =>
        rw [isOver_closeWait (by simp [process, hreceived])]
        simp [passes, process, hreceived, hrx]
      | rst =>
        exact ih false (by simp [process, hreceived]) (by simp [process, hreceived, hrx])
          (by simp [process, hreceived, hcontiguous])
      | syn | data bytes more | expire =>
        exact ih true (by simp [process, hreceived]) (by simp [process, hreceived, hrx])
          (by simp [process, hreceived, hcontiguous])

end TcpSocket

/-! ## The event -/

/-- The pump closes a stream exactly if its socket is over when it is read. -/
theorem PumpedAll.closed_mem_iff {https : String → Prop} {log events : List TcpPumpEvent}
    {next next' : Nat} {slots slots' : List TcpSlot} {slot : TcpSlot} {streamId : String} {i : Nat}
    (h : PumpedAll next slots events next' slots') (hlabelled : Labelled https log next slots)
    (hslot : slots[i]? = some slot) (hserves : slot.Serves streamId) :
    .closed streamId slot.serviceId ∈ events ↔ slot.socket.read.isOver = true := by
  constructor
  · intro hevent
    obtain ⟨j, other, n, own, n', other', hother, hpumped, hown⟩ := h.of_mem hevent
    cases hpumped with
    | idle => cases hown
    | accepted hnone hstate payloads socket hhttps hhttp =>
      exfalso
      rcases List.mem_append.mp hown with hown | hown
      · split at hown <;> simp at hown
      · simp at hown
    | kept => simp at hown
    | closed streamId' hid payloads socket hhttps hhttp hover =>
      have hsame : streamId = streamId' ∧ slot.serviceId = other.serviceId := by simpa using hown
      obtain ⟨rfl, -⟩ := hsame
      cases hlabelled.slot_unique hslot hother hserves.2 hid
      cases hslot.symm.trans hother
      rw [← hhttps hserves.1]
      exact hover
  · intro hover
    have hlt : i < slots'.length := by
      rw [h.length_eq]
      exact (List.getElem?_eq_some_iff.mp hslot).1
    obtain ⟨before, n, own, n', hbefore, -, hpumped, hown⟩ := h.get (List.getElem?_eq_getElem hlt)
    cases hslot.symm.trans hbefore
    generalize slots'[i] = after at hpumped
    cases hpumped with
    | idle hnone => cases hnone.symm.trans hserves.2
    | accepted hnone => cases hnone.symm.trans hserves.2
    | kept streamId' hid payloads socket hhttps hhttp hover' =>
      rw [hhttps hserves.1, hover] at hover'
      cases hover'
    | closed streamId' hid payloads socket hhttps hhttp =>
      cases hid.symm.trans hserves.2
      exact hown _ (by simp)

namespace Connections

variable {interface : Interface} {x y : Connections interface}

/-- What is true in every run, also where a stream gets a second connection. -/
structure Kept (x : Connections interface) : Prop extends Working x where
  labelled : ∃ https, Labelled https x.log x.stack.nextTcpStream x.stack.tcpSlots
  measured : ∀ slot ∈ x.stack.tcpSlots, slot.port = HTTPS_PORT → slot.socket.Measured
  upright : ∀ slot ∈ x.stack.tcpSlots, ∀ streamId, slot.Serves streamId → slot.socket.Upright

section Poll

variable {first second : Segments} {listening pumped : List TcpSlot} {events : List TcpPumpEvent}
  {slot : TcpSlot} {streamId : String} {i : Nat}

theorem Kept.upright_received (h : x.Kept)
    (hpoll : Polled x first second listening pumped events y)
    (hslot : (first.ifacePoll.evolve listening)[i]? = some slot) (hserves : slot.Serves streamId) :
    slot.socket.Upright := by
  rw [getElem?_evolve] at hslot
  obtain ⟨again, hagain, rfl⟩ := Option.map_eq_some_iff.mp hslot
  refine TcpSocket.Upright.receive ?_ _
  rcases h.get_listening hpoll hagain with ⟨before, hbefore, hrelisten⟩ | ⟨hnone, -⟩
  · rcases hrelisten.socket with ⟨-, hsocket⟩ | ⟨-, endpoint, hsocket⟩ <;> rw [hsocket]
    · exact h.upright before (List.mem_of_getElem? hbefore) streamId
        ⟨hrelisten.port.symm.trans hserves.1, hrelisten.streamId.symm.trans hserves.2⟩
    · simp [TcpSocket.Upright, TcpSocket.listening]
  · cases hnone.symm.trans hserves.2

theorem Kept.upright_polled (h : x.Kept) (hpoll : Polled x first second listening pumped events y) :
    ∀ slot ∈ y.stack.tcpSlots, ∀ streamId, slot.Serves streamId → slot.socket.Upright := by
  intro slot hslot streamId hserves
  obtain ⟨i, hi⟩ := List.getElem?_of_mem hslot
  rw [hpoll.slots, getElem?_evolve] at hi
  obtain ⟨after, hafter, rfl⟩ := Option.map_eq_some_iff.mp hi
  refine TcpSocket.Upright.receive ?_ _
  obtain ⟨before, n, own, n', hbefore, -, hpumped, -⟩ := (h.pumpedAll hpoll).get hafter
  obtain ⟨hport, hid⟩ := hserves
  cases hpumped with
  | idle hnone => cases hnone.symm.trans hid
  | accepted hnone hstate payloads socket hhttps =>
    cases hhttps hport
    simp [TcpSocket.Upright, hstate]
  | kept streamId' hsome payloads socket hhttps =>
    cases hhttps hport
    rw [TcpSocket.Upright, TcpSocket.read_state]
    exact h.upright_received hpoll hbefore ⟨hport, hid⟩
  | closed => cases hid

end Poll

theorem Kept.step {event : Event} (h : x.Kept) (hstep : x.step event = some y) : y.Kept := by
  obtain ⟨https, hlabelled⟩ := h.labelled
  have hworking := h.toWorking.step hstep
  have hother : (∀ now first second, event ≠ .poll now first second) → y.Kept := by
    intro hother
    obtain ⟨hy, hnext, hslots⟩ := step_touched hother hstep
    have hlog : y.log = x.log := by rw [hy]
    refine ⟨hworking, ⟨https, ?_⟩, ?_, ?_⟩
    · rw [hnext, hlog]
      exact hlabelled.relabel (hslots.imp fun _ _ hslot => hslot.keeps)
    · refine MediumStack.forall_mem_of_forall₂ hslots (fun before after hslot hmeasured => ?_)
        h.measured
      intro hport
      rw [TcpSocket.Measured, hslot.rx, hslot.contiguous]
      exact hmeasured (hslot.keeps.port.symm.trans hport)
    · refine MediumStack.forall_mem_of_forall₂ hslots (fun before after hslot hupright => ?_)
        h.upright
      intro streamId hserves
      rw [TcpSocket.Upright, hslot.state (by simp [hserves.2])]
      exact hupright streamId (hslot.keeps.serves hserves)
  cases event with
  | poll now first second =>
    obtain ⟨listening, pumped, events, hpoll, -⟩ := step_poll hstep
    have hpumped := (h.labelled_pumped hlabelled hpoll).relabel (keeps_evolve second pumped)
    rw [← hpoll.slots] at hpumped
    have hmeasured := h.forall_polled (P := TcpSocket.Measured) (fun _ => Nat.le_refl 0)
      TcpSocket.Measured.receive TcpSocket.Measured.read hpoll h.measured
    exact ⟨hworking, ⟨_, hpumped⟩, hmeasured, h.upright_polled hpoll⟩
  | push packet | pop | send streamId bytes | close streamId => exact hother (by simp)

theorem kept_run {lowercase : Lowercase} {services : List PublishedService}
    {network : VirtualNetwork} {capacity : Nat} {stack : MediumStack interface}
    {events : List Event} (built : VirtualNetwork.new lowercase services = .ok network)
    (started : MediumStack.new interface capacity network = some stack)
    (run : exec step (start stack) events = some x) : x.Kept := by
  have hstart := sound_start built started
  refine exec_invariant_all (fun _ _ _ hkept hstep => hkept.step hstep) events (start stack) x
    ⟨hstart.toWorking, ⟨_, hstart.labelled⟩, ?_, ?_⟩ run
  · obtain ⟨addrs, -, rfl⟩ := Option.map_eq_some_iff.mp started
    intro slot hslot _
    rw [(slots_start slot hslot).2]
    exact Nat.le_refl 0
  · intro slot hslot streamId hserves
    obtain ⟨i, hi⟩ := List.getElem?_of_mem hslot
    -- nothing is attached yet
    exact absurd (hstart.held i slot streamId hi hserves).2 (by simp [start])

/-- The poll succeeds and closes the stream. -/
def Reports (x : Connections interface) (now : Int) (first second : Segments)
    (streamId serviceId : String) : Prop :=
  ∃ events stack, x.stack.poll now first.ifacePoll second.ifacePoll = .ok (events, stack) ∧
    .closed streamId serviceId ∈ events

/-- Whether the socket of a client that has hung up is over in the next poll, after the
listeners and the segments. -/
theorem Kept.isOver_hungUp (h : x.Kept) {slot again : TcpSlot} {streamId : String}
    (hslot : slot ∈ x.stack.tcpSlots) (hserves : slot.Serves streamId)
    (hungUp : slot.socket.HungUp) (hread : slot.socket.rx = []) (hrelisten : Relistened slot again)
    (segments : List Segment) :
    (again.socket.receive segments).read.isOver = true ↔
      (slot.socket.state = .closeWait ∧ .rst ∈ segments) ∨
        ((slot.socket.state = .closed ∨ slot.socket.state = .listen) ∧
          passes false segments = true) := by
  rcases hrelisten.socket with ⟨hopen, hsocket⟩ | ⟨hclosed, endpoint, hsocket⟩ <;> rw [hsocket]
  · rcases (h.upright slot hslot streamId hserves).hungUp hungUp with hstate | hstate | hstate
    · rw [TcpSocket.isOver_closeWait hstate]
      simp [hstate, hread]
    · simp [TcpSocket.isOpen, hstate] at hopen
    · have hcontiguous : slot.socket.contiguous = 0 := by
        simpa [TcpSocket.Measured, hread] using h.measured slot hslot hserves.1
      rw [TcpSocket.isOver_passes false hstate hread hcontiguous]
      simp [hstate]
  · have hstate : slot.socket.state = .closed := by
      rcases (h.upright slot hslot streamId hserves).hungUp hungUp with hstate | hstate | hstate <;>
        simp_all [TcpSocket.isOpen]
    rw [TcpSocket.isOver_passes false rfl rfl rfl]
    simp [hstate]

/-- A poll closes a stream exactly if its socket is over after the listeners and the
segments, once it is read. -/
theorem Kept.closed_mem_iff (h : x.Kept) {now : Int} {first second : Segments}
    {events : List TcpPumpEvent} {stack : MediumStack interface} {i : Nat} {slot : TcpSlot}
    {streamId : String}
    (hpoll : x.stack.poll now first.ifacePoll second.ifacePoll = .ok (events, stack))
    (hslot : x.stack.tcpSlots[i]? = some slot) (hserves : slot.Serves streamId) :
    ∃ again, Relistened slot again ∧ (.closed streamId slot.serviceId ∈ events ↔
      (again.socket.receive (first.tcp i)).read.isOver = true) := by
  obtain ⟨https, hlabelled⟩ := h.labelled
  obtain ⟨listening, pumped, hpolled⟩ := polled_of_poll hpoll
  obtain ⟨again, hagain, hrelisten⟩ := h.listening_get hpolled hslot
  have hreceived : (first.ifacePoll.evolve listening)[i]? =
      some { again with socket := again.socket.receive (first.tcp i) } := by
    rw [getElem?_evolve, hagain, Option.map_some]
  rw [← hrelisten.serviceId]
  exact ⟨again, hrelisten, (h.pumpedAll hpolled).closed_mem_iff
    (h.labelled_received hlabelled hpolled) hreceived
    ⟨hrelisten.port.trans hserves.1, hrelisten.streamId.trans hserves.2⟩⟩

/-- **Hanging up.**  In every run of a stack, take a stream of the HTTPS port whose client
has closed its side and whose bytes were all reported.  It was reported as connected and
not as closed.  The next poll closes it exactly if its answers to queries can be sent and
either the client has sent a FIN and a reset follows, or the connection is gone and the
segments of the poll leave nothing to the socket, which listens then. -/
theorem hang_up_reported_iff (interface : Interface) (lowercase : Lowercase)
    (services : List PublishedService) (network : VirtualNetwork) (capacity : Nat)
    (stack : MediumStack interface) (events : List Event) (x : Connections interface)
    (built : VirtualNetwork.new lowercase services = .ok network)
    (started : MediumStack.new interface capacity network = some stack)
    (run : exec step (start stack) events = some x) (i : Nat) (slot : TcpSlot) (streamId : String)
    (hslot : x.stack.tcpSlots[i]? = some slot) (serves : slot.Serves streamId)
    (hungUp : slot.socket.HungUp) (read : slot.socket.rx = []) (now : Int)
    (first second : Segments) :
    OpenStream streamId slot.serviceId (eventsOf streamId x.log) ∧
      (x.Reports now first second streamId slot.serviceId ↔
        x.stack.Answerable (.poll now first.ifacePoll second.ifacePoll) ∧
          ((slot.socket.state = .closeWait ∧ .rst ∈ first.tcp i) ∨
            ((slot.socket.state = .closed ∨ slot.socket.state = .listen) ∧
              passes false (first.tcp i) = true))) := by
  have hkept := kept_run built started run
  obtain ⟨https, hlabelled⟩ := hkept.labelled
  have hmem := List.mem_of_getElem? hslot
  refine ⟨(hlabelled.serving slot hmem streamId serves).2, ?_⟩
  rw [← MediumStack.succeeds_iff hkept.ready]
  constructor
  · rintro ⟨events, stack, hpoll, hclosed⟩
    obtain ⟨again, hrelisten, hover⟩ := hkept.closed_mem_iff hpoll hslot serves
    refine ⟨by simp [MediumStack.Succeeds, hpoll, Except.isOk, Except.toBool], ?_⟩
    exact (hkept.isOver_hungUp hmem serves hungUp read hrelisten _).mp (hover.mp hclosed)
  · rintro ⟨hsucceeds, hcases⟩
    cases hpoll : x.stack.poll now first.ifacePoll second.ifacePoll with
    | error e => simp [MediumStack.Succeeds, hpoll, Except.isOk, Except.toBool] at hsucceeds
    | ok result =>
      obtain ⟨events, stack⟩ := result
      obtain ⟨again, hrelisten, hover⟩ := hkept.closed_mem_iff hpoll hslot serves
      refine ⟨events, stack, hpoll, hover.mpr ?_⟩
      exact (hkept.isOver_hungUp hmem serves hungUp read hrelisten _).mpr hcases

/-! ### A client that is done -/

/-- A client connects, sends a byte and closes its side. -/
def hangingUp : List Event :=
  [sampleEvent [.syn], sampleEvent [.ack 0 false], sampleEvent [.data [1] 1, .fin false]]

/-- A reset after that is reported. -/
theorem hang_up_reported_iff_reset : ∃ (x : Connections plainInterface) (slot : TcpSlot),
    exec step (start MediumStack.sampleStack) hangingUp = some x ∧
    x.stack.tcpSlots[1]? = some slot ∧ slot.socket.state = .closeWait ∧ slot.socket.rx = [] ∧
    x.Reports 0 (.only 1 [.rst]) .none "tcp-1" "svc_web" := by
  obtain ⟨x, run, hanswer, slot, hslot, hstate, hrx, hport, hid, hservice⟩ :
      ∃ x, exec step (start MediumStack.sampleStack) hangingUp = some x ∧
        Sendable ((x.stack.received 0).tx.drain 0)
          (answers x.stack.network (x.stack.received 0).rx.packets) ∧
        ∃ slot : TcpSlot, x.stack.tcpSlots[1]? = some slot ∧ slot.socket.state = .closeWait ∧
          slot.socket.rx = [] ∧ slot.port = HTTPS_PORT ∧ slot.streamId = some "tcp-1" ∧
          slot.serviceId = "svc_web" := by
    decide +kernel
  have hungUp : slot.socket.HungUp := by simp [TcpSocket.HungUp, hstate]
  obtain ⟨-, hreports⟩ := hang_up_reported_iff plainInterface asciiLowercase
    [⟨"svc_web", none, "https"⟩] MediumStack.sampleNetwork IFACE_MAX_ADDR_COUNT
    MediumStack.sampleStack hangingUp x (VirtualNetwork.new_eq_ok_iff.mpr ⟨by decide, rfl⟩)
    MediumStack.new_sampleStack run 1 slot "tcp-1" hslot ⟨hport, hid⟩ hungUp hrx 0
    (.only 1 [.rst]) .none
  rw [hservice] at hreports
  exact ⟨x, slot, run, hslot, hstate, hrx, hreports.mpr ⟨hanswer, Or.inl ⟨hstate, by decide⟩⟩⟩

/-- The state, the buffer and the stream of the first HTTPS slot. -/
def sampleSlot (x : Connections plainInterface) : Option (TcpState × Bytes × Option String) :=
  x.stack.tcpSlots[1]?.map fun slot => (slot.socket.state, slot.socket.rx, slot.streamId)

/-- Without a reset nothing is reported, poll after poll. -/
theorem hang_up_not_reported : ∃ x y : Connections plainInterface,
    exec step (start MediumStack.sampleStack) hangingUp = some x ∧
    x.log = [.connected "tcp-1" "svc_web", .received "tcp-1" "svc_web" [1]] ∧
    sampleSlot x = some (.closeWait, [], some "tcp-1") ∧
    exec step x (List.replicate 3 (sampleEvent [])) = some y ∧ y.log = x.log ∧
    sampleSlot y = some (.closeWait, [], some "tcp-1") := by
  obtain ⟨x, run, hlog, hslot, y, hmore, hsame⟩ :
      ∃ x, exec step (start MediumStack.sampleStack) hangingUp = some x ∧
        x.log = [.connected "tcp-1" "svc_web", .received "tcp-1" "svc_web" [1]] ∧
        sampleSlot x = some (.closeWait, [], some "tcp-1") ∧
        ∃ y, exec step x (List.replicate 3 (sampleEvent [])) = some y ∧ y.log = x.log ∧
          sampleSlot y = some (.closeWait, [], some "tcp-1") := by
    decide +kernel
  exact ⟨x, y, run, hlog, hslot, hmore, hsame⟩

end Connections

end MediumOverlay.Netstack
