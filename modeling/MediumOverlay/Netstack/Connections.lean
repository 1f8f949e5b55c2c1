import MediumOverlay.Netstack.StreamEvents

/-!
# Streams and connections

A stream id should stand for one connection.  To see whether it does, the connections of
each slot are counted while the segments arrive, and it is noted which connection a slot
of the HTTPS port has while it has a stream (`Attachment`).

A slot can lose its connection and keep its stream: where a reset arrives and there are
bytes left, they are read in the next turn, and only then is the stream closed.  But the
next poll lets the socket listen again first.  If a new connection comes at once, it is
reported under the old stream.  Apart from this, streams are as they should be
(`stream_protocol_iff`).
-/

namespace MediumOverlay.Netstack

open Fallible Trace

/-! ## Attachments -/

/-- A stream, the slot that has it, and the number of the connection that the slot has. -/
@[ext] structure Attachment where
  streamId : String
  slot : Nat
  connection : Nat
deriving DecidableEq, Repr

/-- The number of connections that each slot has had, after the segments of a poll. -/
def Segments.count (segments : Segments) (slots : List TcpSlot) (counts : Nat → Nat) (i : Nat) :
    Nat :=
  counts i + (slots[i]?.map fun slot => slot.socket.connections (segments.tcp i)).getD 0

/-- The streams of the HTTPS port that have a connection, or bytes of one. -/
def attachments (slots : List TcpSlot) (counts : Nat → Nat) : List Attachment :=
  slots.zipIdx.filterMap fun (slot, i) =>
    if slot.port = HTTPS_PORT ∧ slot.socket.hasConnection then
      slot.streamId.map fun streamId => ⟨streamId, i, counts i⟩
    else none

theorem mem_attachments {slots : List TcpSlot} {counts : Nat → Nat} {a : Attachment} :
    a ∈ attachments slots counts ↔ ∃ slot, slots[a.slot]? = some slot ∧ slot.Serves a.streamId ∧
      slot.socket.hasConnection = true ∧ a.connection = counts a.slot := by
  rw [attachments, List.mem_filterMap]
  constructor
  · rintro ⟨⟨slot, i⟩, hslot, ha⟩
    obtain ⟨⟨hport, hconnection⟩, hid⟩ := Option.ite_none_right_eq_some.mp ha
    obtain ⟨streamId, hstream, rfl⟩ := Option.map_eq_some_iff.mp hid
    exact ⟨slot, List.mem_zipIdx_iff_getElem?.mp hslot, ⟨hport, hstream⟩, hconnection, rfl⟩
  · rintro ⟨slot, hslot, ⟨hport, hstream⟩, hconnection, hcount⟩
    refine ⟨(slot, a.slot), List.mem_zipIdx_iff_getElem?.mpr hslot, ?_⟩
    refine Option.ite_none_right_eq_some.mpr ⟨⟨hport, hconnection⟩, ?_⟩
    exact Option.map_eq_some_iff.mpr ⟨a.streamId, hstream, by rw [← hcount]⟩

/-- The stack, with a log of its events and the attachments so far. -/
structure Connections (interface : Interface) where
  stack : MediumStack interface
  counts : Nat → Nat
  log : List TcpPumpEvent
  attached : List Attachment

namespace Connections

variable {interface : Interface} {x y : Connections interface}

/-- The calls, with the segments that arrive in a poll. -/
inductive Event where
  | push (packet : Bytes)
  | pop
  | poll (now : Int) (first second : Segments)
  | send (streamId : String) (bytes : Bytes)
  | close (streamId : String)

def Event.toCall : Event → MediumStack.Call
  | push packet => .push packet
  | pop => .pop
  | poll now first second => .poll now first.ifacePoll second.ifacePoll
  | send streamId bytes => .send streamId bytes
  | close streamId => .close streamId

def start (stack : MediumStack interface) : Connections interface := ⟨stack, fun _ => 0, [], []⟩

/-- What a poll adds.  It is looked at the attachments after the first poll of the
interface, after the pump and after the second poll. -/
def polled (x : Connections interface) (first second : Segments) (listening pumped : List TcpSlot)
    (events : List TcpPumpEvent) (stack : MediumStack interface) : Connections interface :=
  let counts := first.count listening x.counts
  { stack
    counts := second.count pumped counts
    log := x.log ++ events
    attached := x.attached ++ (attachments (first.ifacePoll.evolve listening) counts ++
      attachments pumped counts ++ attachments stack.tcpSlots (second.count pumped counts)) }

/-- A call on the stack. -/
def step (x : Connections interface) : Event → Option (Connections interface)
  | .poll now first second => Except.toOption do
      let (events, stack) ← x.stack.poll now first.ifacePoll second.ifacePoll
      let listening ← ensureTcpListeners x.stack.network x.stack.tcpSlots
      let (_, _, pumped) ←
        pumpTcp x.stack.network x.stack.nextTcpStream (first.ifacePoll.evolve listening)
      return x.polled first second listening pumped events stack
  | event => (x.stack.step event.toCall).map fun stack => { x with stack }

/-- A stream is never attached to two connections. -/
def OneConnection (attached : List Attachment) : Prop :=
  ∀ a ∈ attached, ∀ b ∈ attached, a.streamId = b.streamId → a = b

/-- What should be true of the streams of the HTTPS port. -/
structure Protocol (x : Connections interface) : Prop where
  /-- The events of a stream: it is connected, bytes are received, and it may be closed. -/
  orderly : ∀ a ∈ x.attached, OrderlyStream a.streamId (eventsOf a.streamId x.log)
  /-- Only these streams have events other than that they are closed. -/
  reported : ∀ event ∈ x.log, event.isClosed = false → ∃ a ∈ x.attached, a.streamId = event.streamId
  /-- A connection begins without bytes, so that those of a slot are of its connection. -/
  clean : ∀ slot ∈ x.stack.tcpSlots, slot.port = HTTPS_PORT → slot.socket.Clean
  oneConnection : OneConnection x.attached

/-- No slot of the HTTPS port gets a connection while it still has the stream of the one
before: its socket is closed, and in the next poll no new connection comes. -/
def NoReattach (x : Connections interface) : Event → Prop
  | .poll _ first _ => ∀ p ∈ x.stack.tcpSlots.zipIdx, p.1.port = HTTPS_PORT →
      p.1.streamId ≠ none → p.1.socket.isOpen = false → connects (first.tcp p.2) = false
  | _ => True

instance (x : Connections interface) : ∀ event, Decidable (x.NoReattach event)
  | .poll _ first _ => inferInstanceAs (Decidable (∀ p ∈ x.stack.tcpSlots.zipIdx,
      p.1.port = HTTPS_PORT → p.1.streamId ≠ none → p.1.socket.isOpen = false →
        connects (first.tcp p.2) = false))
  | .push _ | .pop | .send _ _ | .close _ => .isTrue trivial

/-! ## Steps -/

/-- The stages of a poll. -/
structure Polled (x : Connections interface) (first second : Segments)
    (listening pumped : List TcpSlot) (events : List TcpPumpEvent) (y : Connections interface) :
    Prop where
  listen : ensureTcpListeners x.stack.network x.stack.tcpSlots = .ok listening
  pump : pumpTcp x.stack.network x.stack.nextTcpStream (first.ifacePoll.evolve listening) =
    .ok (events, y.stack.nextTcpStream, pumped)
  slots : y.stack.tcpSlots = second.ifacePoll.evolve pumped
  eq : y = x.polled first second listening pumped events y.stack

variable {first second : Segments} {events : List TcpPumpEvent}

theorem Polled.log {listening pumped : List TcpSlot}
    (h : Polled x first second listening pumped events y) : y.log = x.log ++ events := by
  rw [h.eq]
  rfl

variable {now : Int} {stack : MediumStack interface}

theorem polled_of_poll
    (h : x.stack.poll now first.ifacePoll second.ifacePoll = .ok (events, stack)) :
    ∃ listening pumped, Polled x first second listening pumped events
      (x.polled first second listening pumped events stack) := by
  obtain ⟨listening, next, pumped, hlistening, hpump, hslots, rfl, -⟩ := MediumStack.poll_stages h
  exact ⟨listening, pumped, ⟨hlistening, hpump, hslots, rfl⟩⟩

theorem step_poll (h : x.step (.poll now first second) = some y) :
    ∃ listening pumped events, Polled x first second listening pumped events y ∧
      x.stack.poll now first.ifacePoll second.ifacePoll = .ok (events, y.stack) := by
  have h := toOption_eq_some_iff.mp h
  obtain ⟨⟨events, stack⟩, hpoll, h⟩ := bind_eq_ok_iff.mp h
  obtain ⟨listening, hlistening, h⟩ := bind_eq_ok_iff.mp h
  obtain ⟨⟨events', next, pumped⟩, hpump, h⟩ := bind_eq_ok_iff.mp h
  cases h
  obtain ⟨listening', pumped', hpolled⟩ := polled_of_poll hpoll
  cases hlistening.symm.trans hpolled.listen
  cases hpump.symm.trans hpolled.pump
  exact ⟨listening, pumped, events, hpolled, hpoll⟩

variable {event : Event}

theorem step_other (hother : ∀ now first second, event ≠ .poll now first second) :
    x.step event = (x.stack.step event.toCall).map fun stack => { x with stack } := by
  cases event with
  | poll now first second => exact absurd rfl (hother now first second)
  | push packet | pop | send streamId bytes | close streamId => rfl

/-- The stack makes the call. -/
theorem step_stack (h : x.step event = some y) : x.stack.step event.toCall = some y.stack := by
  cases event with
  | poll now first second =>
    obtain ⟨_, _, _, -, hpoll⟩ := step_poll h
    simp only [Event.toCall, MediumStack.step, hpoll]
  | push packet | pop | send streamId bytes | close streamId =>
    rw [step_other (by simp)] at h
    obtain ⟨stack, hstack, rfl⟩ := Option.map_eq_some_iff.mp h
    exact hstack

/-- What the other calls do to a slot. -/
structure Touched (before after : TcpSlot) : Prop where
  keeps : before.Keeps after
  state : after.streamId ≠ none → after.socket.state = before.socket.state
  clean : before.socket.Clean → after.socket.Clean
  rx : after.socket.rx = before.socket.rx
  contiguous : after.socket.contiguous = before.socket.contiguous

theorem Touched.refl (slot : TcpSlot) : Touched slot slot :=
  ⟨⟨rfl, rfl, Or.inl rfl⟩, fun _ => rfl, id, rfl, rfl⟩

variable {socket : TcpSocket}

theorem clean_close (h : socket.Clean) : socket.close.Clean := by
  unfold TcpSocket.close
  split <;> first | exact h | simp [TcpSocket.Clean]

/-- What was received stays when the socket is closed. -/
theorem received_close (socket : TcpSocket) :
    socket.close.rx = socket.rx ∧ socket.close.contiguous = socket.contiguous := by
  unfold TcpSocket.close
  split <;> exact ⟨rfl, rfl⟩

/-- What the other calls do. -/
theorem step_touched (hother : ∀ now first second, event ≠ .poll now first second)
    (h : x.step event = some y) :
    y = { x with stack := y.stack } ∧
      y.stack.nextTcpStream = x.stack.nextTcpStream ∧
      List.Forall₂ Touched x.stack.tcpSlots y.stack.tcpSlots := by
  have hcall : ∀ now first second, event.toCall ≠ .poll now first second := by
    intro now first second
    cases event with
    | poll now first second => exact absurd rfl (hother now first second)
    | push packet | pop | send streamId bytes | close streamId => simp [Event.toCall]
  obtain ⟨-, hnext, hslots⟩ := MediumStack.step_forall₂ Touched.refl
    (fun _ _ => ⟨⟨rfl, rfl, Or.inl rfl⟩, fun _ => rfl, id, rfl, rfl⟩)
    (fun slot => ⟨⟨rfl, rfl, Or.inr rfl⟩, fun hsome => absurd rfl hsome, clean_close,
      (received_close slot.socket).1, (received_close slot.socket).2⟩)
    hcall (step_stack h)
  rw [step_other hother] at h
  obtain ⟨stack, -, rfl⟩ := Option.map_eq_some_iff.mp h
  exact ⟨rfl, hnext, hslots⟩

/-! ## What polls keep -/

/-- A slot with a stream is past the beginning of its connection, and the stream is
attached to it. -/
def Held (counts : Nat → Nat) (attached : List Attachment) (slots : List TcpSlot) : Prop :=
  ∀ i slot streamId, slots[i]? = some slot → slot.Serves streamId →
    slot.socket.Begun ∧ ⟨streamId, i, counts i⟩ ∈ attached

/-- The stream was attached to a connection. -/
def WasAttached (attached : List Attachment) (streamId : String) : Prop :=
  ∃ a ∈ attached, a.streamId = streamId

/-- What is true in every run. -/
structure Working (x : Connections interface) : Prop where
  addressed : x.stack.network.Addressed
  ready : x.stack.Ready

/-- What is true as long as no stream gets a second connection. -/
structure Sound (x : Connections interface) : Prop extends Working x where
  clean : ∀ slot ∈ x.stack.tcpSlots, slot.port = HTTPS_PORT → slot.socket.Clean
  labelled : Labelled (WasAttached x.attached) x.log x.stack.nextTcpStream x.stack.tcpSlots
  held : Held x.counts x.attached x.stack.tcpSlots
  oneConnection : OneConnection x.attached

theorem Sound.protocol (h : x.Sound) : x.Protocol where
  orderly a ha := h.labelled.orderly a.streamId ⟨a, ha, rfl⟩
  reported := h.labelled.reported
  clean := h.clean
  oneConnection := h.oneConnection

theorem exists_of_forall₂ {R : TcpSlot → TcpSlot → Prop} {slots slots' : List TcpSlot}
    {slot' : TcpSlot} {i : Nat} (h : List.Forall₂ R slots slots')
    (hslot : slots'[i]? = some slot') :
    ∃ slot, slots[i]? = some slot ∧ R slot slot' := by
  induction h generalizing i with
  | nil => simp at hslot
  | @cons slot first _ _ hfirst _ ih =>
    cases i with
    | zero => exact ⟨slot, rfl, Option.some_inj.mp hslot ▸ hfirst⟩
    | succ i => exact ih hslot

variable {network : VirtualNetwork}

theorem slots_start {addrs : List IpCidr} :
    ∀ slot ∈ (MediumStack.withAddrs interface network addrs).tcpSlots,
      slot.streamId = none ∧ slot.socket = .new := by
  intro slot hslot
  obtain ⟨service, -, hmem⟩ := List.mem_flatMap.mp hslot
  obtain ⟨port, -, rfl⟩ := List.mem_map.mp hmem
  exact ⟨rfl, rfl⟩

theorem sound_start {lowercase : Lowercase} {services : List PublishedService} {capacity : Nat}
    (built : VirtualNetwork.new lowercase services = .ok network)
    (started : MediumStack.new interface capacity network = some stack) : (start stack).Sound := by
  have hready := MediumStack.new_ready started
  obtain ⟨addrs, -, rfl⟩ := Option.map_eq_some_iff.mp started
  refine ⟨⟨addressed_network built, hready⟩, ?_, ?_, ?_, fun a ha => by cases ha⟩
  · intro slot hslot _
    rw [(slots_start slot hslot).2]
    decide
  · have hempty : Labelled (WasAttached []) [] 0 [] := by
      constructor <;> simp [WasAttached]
    exact hempty.add fun slot (hslot : slot ∈ (MediumStack.withAddrs interface network
      addrs).tcpSlots) => (slots_start slot hslot).1
  · intro i slot streamId hslot hserves
    cases (slots_start slot (List.mem_of_getElem? hslot)).1.symm.trans hserves.2

theorem Working.step (h : x.Working) (hstep : x.step event = some y) : y.Working := by
  refine ⟨?_, MediumStack.step_ready h.ready (step_stack hstep)⟩
  have hnetwork := (MediumStack.step_slotCount "" 0 (step_stack hstep)).1
  rw [hnetwork]
  exact h.addressed

/-- The other calls keep it. -/
theorem Sound.touched (h : x.Sound) (hother : ∀ now first second, event ≠ .poll now first second)
    (hstep : x.step event = some y) : y.Sound := by
  have hworking := h.toWorking.step hstep
  obtain ⟨hy, hnext, hslots⟩ := step_touched hother hstep
  generalize y.stack = stack at *
  subst hy
  refine ⟨hworking, ?_, ?_, ?_, h.oneConnection⟩
  · refine MediumStack.forall_mem_of_forall₂ hslots (fun _ _ hslot hclean hport => ?_) h.clean
    exact hslot.clean (hclean (hslot.keeps.port.symm.trans hport))
  · rw [hnext]
    exact h.labelled.relabel (hslots.imp fun _ _ hslot => hslot.keeps)
  · intro i slot streamId hi hserves
    obtain ⟨before, hbefore, hslot⟩ := exists_of_forall₂ hslots hi
    obtain ⟨hbegun, hattached⟩ := h.held i before streamId hbefore (hslot.keeps.serves hserves)
    refine ⟨?_, hattached⟩
    rw [TcpSocket.Begun, hslot.state (by simp [hserves.2])]
    exact hbegun

/-! ### The stages of a poll -/

variable {https : String → Prop}

section Poll

variable {now : Int} {first second : Segments} {listening pumped : List TcpSlot}
  {events : List TcpPumpEvent} {slot : TcpSlot} {streamId : String} {i : Nat}

theorem getElem?_evolve (segments : Segments) (slots : List TcpSlot) :
    (segments.ifacePoll.evolve slots)[i]? = slots[i]?.map fun slot =>
      { slot with socket := slot.socket.receive (segments.tcp i) } := by
  rw [IfacePoll.evolve, List.getElem?_mapIdx]
  rfl

theorem keeps_evolve (segments : Segments) (slots : List TcpSlot) :
    List.Forall₂ TcpSlot.Keeps slots (segments.ifacePoll.evolve slots) :=
  segments.ifacePoll.forall₂_evolve slots fun _ _ => ⟨rfl, rfl, Or.inl rfl⟩

/-- The pump, slot by slot. -/
theorem Working.pumpedAll (h : x.Working)
    (hpoll : Polled x first second listening pumped events y) :
    PumpedAll x.stack.nextTcpStream (first.ifacePoll.evolve listening) events
      y.stack.nextTcpStream pumped := by
  obtain ⟨listening', hlistening', hplaced, -⟩ := ensureTcpListeners_spec h.ready.slots
  cases hpoll.listen.symm.trans hlistening'
  exact pumpTcp_pumpedAll h.addressed (MediumStack.placed_mapIdx first.ifacePoll hplaced) hpoll.pump

/-- A slot after the listeners is one from before, or a new one without a stream. -/
theorem Working.get_listening (h : x.Working)
    (hpoll : Polled x first second listening pumped events y) (hslot : listening[i]? = some slot) :
    (∃ before, x.stack.tcpSlots[i]? = some before ∧ Relistened before slot) ∨
      (slot.streamId = none ∧ ∃ endpoint, slot.socket = .listening endpoint) := by
  obtain ⟨again, added, rfl, hagain, hadded⟩ :=
    ensureTcpListeners_slots h.ready.slots hpoll.listen
  by_cases hi : i < again.length
  · rw [List.getElem?_append_left hi] at hslot
    exact Or.inl (exists_of_forall₂ hagain hslot)
  · rw [List.getElem?_append_right (Nat.le_of_not_lt hi)] at hslot
    exact Or.inr (hadded slot (List.mem_of_getElem? hslot))

/-- A slot is still there after the listeners. -/
theorem Working.listening_get (h : x.Working)
    (hpoll : Polled x first second listening pumped events y)
    (hslot : x.stack.tcpSlots[i]? = some slot) :
    ∃ slot', listening[i]? = some slot' ∧ Relistened slot slot' := by
  obtain ⟨again, added, rfl, hagain, -⟩ := ensureTcpListeners_slots h.ready.slots hpoll.listen
  obtain ⟨slot', hslot', hrelisten⟩ := exists_of_forall₂ hagain.flip hslot
  refine ⟨slot', ?_, hrelisten⟩
  rw [List.getElem?_append_left (List.getElem?_eq_some_iff.mp hslot').1]
  exact hslot'

/-- After the first poll of the interface a slot with a stream is still with its
connection, or it has none. -/
theorem Sound.get_received (h : x.Sound)
    (hpoll : Polled x first second listening pumped events y)
    (hno : x.NoReattach (.poll now first second))
    (hslot : (first.ifacePoll.evolve listening)[i]? = some slot) (hserves : slot.Serves streamId) :
    (slot.socket.Begun ∧ ⟨streamId, i, first.count listening x.counts i⟩ ∈ x.attached) ∨
      slot.socket.hasConnection = false := by
  rw [getElem?_evolve] at hslot
  obtain ⟨again, hagain, rfl⟩ := Option.map_eq_some_iff.mp hslot
  rcases h.get_listening hpoll hagain with ⟨before, hbefore, hrelisten⟩ | ⟨hnone, -⟩
  · have hbeforeServes : before.Serves streamId :=
      ⟨hrelisten.port.symm.trans hserves.1, hrelisten.streamId.symm.trans hserves.2⟩
    rcases hrelisten.socket with ⟨hopen, hsocket⟩ | ⟨hclosed, endpoint, hsocket⟩
    · left
      obtain ⟨hbegun, hattached⟩ := h.held i before streamId hbefore hbeforeServes
      rw [← hsocket] at hbegun
      obtain ⟨hreceived, hzero⟩ := hbegun.receive (first.tcp i)
      refine ⟨hreceived, ?_⟩
      rw [Segments.count, hagain, Option.map_some, hzero]
      exact hattached
    · right
      dsimp only
      rw [hsocket, hasConnection_listening]
      exact hno (before, i) (List.mem_zipIdx_iff_getElem?.mpr hbefore) hbeforeServes.1
        (by simp [hbeforeServes.2]) hclosed
  · cases hnone.symm.trans hserves.2

/-- After the pump a slot with a stream is with its connection, or the stream is new. -/
theorem Sound.get_pumped (h : x.Sound) (hpoll : Polled x first second listening pumped events y)
    (hno : x.NoReattach (.poll now first second)) (hslot : pumped[i]? = some slot)
    (hserves : slot.Serves streamId) :
    slot.socket.Begun ∧ (⟨streamId, i, first.count listening x.counts i⟩ ∈ x.attached ∨
      (slot.socket.hasConnection = true ∧ ¬ WasAttached x.attached streamId)) := by
  obtain ⟨before, n, own, n', hbefore, hn, hpumped, -⟩ := (h.pumpedAll hpoll).get hslot
  obtain ⟨hport, hid⟩ := hserves
  cases hpumped with
  | idle hnone => cases hnone.symm.trans hid
  | accepted hnone hstate payloads socket hhttps =>
    cases hhttps hport
    cases hid
    refine ⟨by simp [TcpSocket.Begun, hstate], Or.inr ⟨?_, fun hold => ?_⟩⟩
    · simp [TcpSocket.hasConnection, TcpSocket.isActive, hstate]
    · obtain ⟨m, hm, heq⟩ := h.labelled.httpsNumber _ hold
      have := tcpId_inj.mp heq
      omega
  | kept streamId' hsome payloads socket hhttps hhttp hover =>
    cases hhttps hport
    rcases h.get_received hpoll hno hbefore ⟨hport, hid⟩ with ⟨hbegun, hattached⟩ | hnone
    · refine ⟨?_, Or.inl hattached⟩
      rw [TcpSocket.Begun, TcpSocket.read_state]
      exact hbegun
    · rw [TcpSocket.isOver_read hnone] at hover
      cases hover
  | closed => cases hid

/-- After the second poll it is with the connection that it had after the pump. -/
theorem Sound.get_polled (h : x.Sound) (hpoll : Polled x first second listening pumped events y)
    (hno : x.NoReattach (.poll now first second)) (hslot : y.stack.tcpSlots[i]? = some slot)
    (hserves : slot.Serves streamId) :
    slot.socket.Begun ∧ y.counts i = first.count listening x.counts i ∧
      ∃ before, pumped[i]? = some before ∧ before.Serves streamId := by
  rw [hpoll.slots, getElem?_evolve] at hslot
  obtain ⟨before, hbefore, rfl⟩ := Option.map_eq_some_iff.mp hslot
  obtain ⟨hbegun, -⟩ := h.get_pumped hpoll hno hbefore hserves
  obtain ⟨hreceived, hzero⟩ := hbegun.receive (second.tcp i)
  refine ⟨hreceived, ?_, before, hbefore, hserves⟩
  rw [hpoll.eq]
  dsimp only [polled]
  rw [Segments.count, hbefore, Option.map_some, hzero]
  rfl

/-- The stream is new in the poll, and the attachment is the one after the pump. -/
structure NewStream (x : Connections interface) (first : Segments) (listening pumped : List TcpSlot)
    (a : Attachment) : Prop where
  fresh : ¬ WasAttached x.attached a.streamId
  connection : a.connection = first.count listening x.counts a.slot
  slot : ∃ slot, pumped[a.slot]? = some slot ∧ slot.Serves a.streamId

/-- The attachments after a poll are those before it and those of new streams. -/
theorem Sound.mem_attached (h : x.Sound) (hpoll : Polled x first second listening pumped events y)
    (hno : x.NoReattach (.poll now first second)) {a : Attachment} (ha : a ∈ y.attached) :
    a ∈ x.attached ∨ NewStream x first listening pumped a := by
  have hpumped : ∀ {slot}, pumped[a.slot]? = some slot → slot.Serves a.streamId →
      a.connection = first.count listening x.counts a.slot →
      a ∈ x.attached ∨ NewStream x first listening pumped a := by
    intro slot hslot hserves hcount
    refine (h.get_pumped hpoll hno hslot hserves).2.imp (fun hold => ?_) fun hnew =>
      ⟨hnew.2, hcount, slot, hslot, hserves⟩
    rw [← hcount] at hold
    exact hold
  rw [hpoll.eq] at ha
  simp only [polled, List.mem_append] at ha
  rcases ha with ha | (ha | ha) | ha
  · exact Or.inl ha
  · obtain ⟨slot, hslot, hserves, hconnection, hcount⟩ := mem_attachments.mp ha
    rcases h.get_received hpoll hno hslot hserves with ⟨-, hold⟩ | hnone
    · rw [← hcount] at hold
      exact Or.inl hold
    · rw [hnone] at hconnection
      cases hconnection
  · obtain ⟨slot, hslot, hserves, -, hcount⟩ := mem_attachments.mp ha
    exact hpumped hslot hserves hcount
  · obtain ⟨slot, hslot, hserves, -, hcount⟩ := mem_attachments.mp ha
    obtain ⟨-, hsame, before, hbefore, hbeforeServes⟩ := h.get_polled hpoll hno hslot hserves
    rw [hpoll.eq] at hsame
    exact hpumped hbefore hbeforeServes (hcount.trans hsame)

theorem attached_subset (hpoll : Polled x first second listening pumped events y) :
    x.attached ⊆ y.attached := by
  rw [hpoll.eq]
  exact List.subset_append_left _ _

theorem Sound.held_polled (h : x.Sound) (hpoll : Polled x first second listening pumped events y)
    (hno : x.NoReattach (.poll now first second)) :
    Held y.counts y.attached y.stack.tcpSlots := by
  intro i slot streamId hslot hserves
  obtain ⟨hbegun, hcount, before, hbefore, hbeforeServes⟩ := h.get_polled hpoll hno hslot hserves
  refine ⟨hbegun, ?_⟩
  rw [hcount]
  rcases (h.get_pumped hpoll hno hbefore hbeforeServes).2 with hold | hnew
  · exact attached_subset hpoll hold
  · rw [hpoll.eq]
    refine List.mem_append_right _ (List.mem_append_left _ (List.mem_append_right _ ?_))
    exact mem_attachments.mpr ⟨before, hbefore, hbeforeServes, hnew.1, rfl⟩

/-- The labels after the first poll of the interface. -/
theorem Working.labelled_received (h : x.Working)
    (hlabelled : Labelled https x.log x.stack.nextTcpStream x.stack.tcpSlots)
    (hpoll : Polled x first second listening pumped events y) :
    Labelled https x.log x.stack.nextTcpStream (first.ifacePoll.evolve listening) := by
  obtain ⟨again, added, hagain, hrelisten, hadded⟩ :=
    ensureTcpListeners_slots h.ready.slots hpoll.listen
  refine Labelled.relabel ?_ (keeps_evolve first listening)
  rw [hagain]
  refine (hlabelled.relabel (hrelisten.imp fun _ _ hslot => ?_)).add fun slot hslot =>
    (hadded slot hslot).1
  exact ⟨hslot.serviceId, hslot.port, Or.inl hslot.streamId⟩

/-- The labels after the pump. -/
theorem Working.labelled_pumped (h : x.Working)
    (hlabelled : Labelled https x.log x.stack.nextTcpStream x.stack.tcpSlots)
    (hpoll : Polled x first second listening pumped events y) :
    Labelled (fun id => https id ∨ ∃ slot ∈ pumped, slot.Serves id) y.log y.stack.nextTcpStream
      pumped := by
  rw [hpoll.log]
  exact Labelled.pumpedAll [] (h.labelled_received hlabelled hpoll) (h.pumpedAll hpoll)

theorem Sound.labelled_polled (h : x.Sound)
    (hpoll : Polled x first second listening pumped events y)
    (hno : x.NoReattach (.poll now first second)) :
    Labelled (WasAttached y.attached) y.log y.stack.nextTcpStream y.stack.tcpSlots := by
  have hlabelled := (h.labelled_pumped h.labelled hpoll).relabel (keeps_evolve second pumped)
  rw [← hpoll.slots] at hlabelled
  refine hlabelled.congr fun id => ⟨?_, ?_⟩
  · rintro (⟨a, ha, hid⟩ | ⟨slot, hslot, hserves⟩)
    · exact ⟨a, attached_subset hpoll ha, hid⟩
    · obtain ⟨i, hi⟩ := List.getElem?_of_mem hslot
      have hfinal : y.stack.tcpSlots[i]? = some
          { slot with socket := slot.socket.receive (second.tcp i) } := by
        rw [hpoll.slots, getElem?_evolve, hi, Option.map_some]
      exact ⟨_, (h.held_polled hpoll hno i _ id hfinal hserves).2, rfl⟩
  · rintro ⟨a, ha, rfl⟩
    rcases h.mem_attached hpoll hno ha with ha | hnew
    · exact Or.inl ⟨a, ha, rfl⟩
    · obtain ⟨slot, hslot, hserves⟩ := hnew.slot
      exact Or.inr ⟨slot, List.mem_of_getElem? hslot, hserves⟩

theorem Sound.oneConnection_polled (h : x.Sound)
    (hpoll : Polled x first second listening pumped events y)
    (hno : x.NoReattach (.poll now first second)) : OneConnection y.attached := by
  intro a ha b hb hid
  rcases h.mem_attached hpoll hno ha with ha | hnewA <;>
    rcases h.mem_attached hpoll hno hb with hb | hnewB
  · exact h.oneConnection a ha b hb hid
  · exact absurd ⟨a, ha, hid⟩ hnewB.fresh
  · exact absurd ⟨b, hb, hid.symm⟩ hnewA.fresh
  · -- a new stream has one slot
    obtain ⟨slotA, hslotA, hservesA⟩ := hnewA.slot
    obtain ⟨slotB, hslotB, hservesB⟩ := hnewB.slot
    have hslot : a.slot = b.slot := (h.labelled_pumped h.labelled hpoll).slot_unique hslotA hslotB
      hservesA.2 (hid ▸ hservesB.2)
    exact Attachment.ext hid hslot (by rw [hnewA.connection, hnewB.connection, hslot])

theorem clean_read (h : socket.Clean) : socket.read.Clean := by
  intro hstate
  rw [TcpSocket.read_state] at hstate
  unfold TcpSocket.read
  split
  · simp [h hstate]
  · exact h hstate

/-- A poll keeps of the sockets of the HTTPS port what holds of a socket that listens and
is kept by segments and by reading. -/
theorem Working.forall_polled {P : TcpSocket → Prop} (h : x.Working)
    (hlistening : ∀ endpoint, P (.listening endpoint))
    (hreceive : ∀ {socket : TcpSocket}, P socket → ∀ segments, P (socket.receive segments))
    (hread : ∀ {socket : TcpSocket}, P socket → P socket.read)
    (hpoll : Polled x first second listening pumped events y)
    (hall : ∀ slot ∈ x.stack.tcpSlots, slot.port = HTTPS_PORT → P slot.socket) :
    ∀ slot ∈ y.stack.tcpSlots, slot.port = HTTPS_PORT → P slot.socket := by
  intro slot hslot hport
  obtain ⟨i, hi⟩ := List.getElem?_of_mem hslot
  rw [hpoll.slots, getElem?_evolve] at hi
  obtain ⟨after, hafter, rfl⟩ := Option.map_eq_some_iff.mp hi
  refine hreceive ?_ _
  obtain ⟨before, n, own, n', hbefore, -, hpumped, -⟩ := (h.pumpedAll hpoll).get hafter
  rw [getElem?_evolve] at hbefore
  obtain ⟨again, hagain, rfl⟩ := Option.map_eq_some_iff.mp hbefore
  have hreceived : again.port = HTTPS_PORT → P (again.socket.receive (first.tcp i)) := by
    refine fun hhttps => hreceive ?_ _
    rcases h.get_listening hpoll hagain with ⟨old, hold, hrelisten⟩ | ⟨-, endpoint, hsocket⟩
    · rcases hrelisten.socket with ⟨-, hsocket⟩ | ⟨-, endpoint, hsocket⟩ <;> rw [hsocket]
      · exact hall old (List.mem_of_getElem? hold) (hrelisten.port.symm.trans hhttps)
      · exact hlistening endpoint
    · rw [hsocket]
      exact hlistening endpoint
  cases hpumped with
  | idle => exact hreceived hport
  | accepted _ _ _ socket hhttps | kept _ _ _ socket hhttps | closed _ _ _ socket hhttps =>
    cases hhttps hport
    exact hread (hreceived hport)

/-- A poll keeps it, if no stream gets a second connection. -/
theorem Sound.poll (h : x.Sound) (hno : x.NoReattach (.poll now first second))
    (hstep : x.step (.poll now first second) = some y) : y.Sound := by
  obtain ⟨listening, pumped, events, hpoll, -⟩ := step_poll hstep
  have hclean := h.forall_polled (P := TcpSocket.Clean) (fun _ _ => rfl) TcpSocket.Clean.receive
    clean_read hpoll h.clean
  exact ⟨h.toWorking.step hstep, hclean, h.labelled_polled hpoll hno, h.held_polled hpoll hno,
    h.oneConnection_polled hpoll hno⟩

/-- A stream gets a second connection, if a poll lets it. -/
theorem Sound.reattach (h : x.Sound) (hno : ¬ x.NoReattach (.poll now first second))
    (hstep : x.step (.poll now first second) = some y) : ¬ OneConnection y.attached := by
  obtain ⟨listening, pumped, events, hpoll, -⟩ := step_poll hstep
  simp only [NoReattach, not_forall] at hno
  obtain ⟨⟨slot, i⟩, hslot, hport, hsome, hclosed, hconnects⟩ := hno
  have hslot : x.stack.tcpSlots[i]? = some slot := List.mem_zipIdx_iff_getElem?.mp hslot
  obtain ⟨streamId, hid⟩ := Option.ne_none_iff_exists'.mp hsome
  obtain ⟨slot', hlistening, hslotAgain⟩ := h.listening_get hpoll hslot
  have hserves : slot'.Serves streamId :=
    ⟨hslotAgain.port.trans hport, hslotAgain.streamId.trans hid⟩
  rcases hslotAgain.socket with ⟨hopen, -⟩ | ⟨-, endpoint, hsocket⟩
  · cases hclosed.symm.trans hopen
  -- the stream is attached to the connection before, and to the one that has begun
  have hold : ⟨streamId, i, x.counts i⟩ ∈ y.attached :=
    attached_subset hpoll (h.held i slot streamId hslot ⟨hport, hid⟩).2
  have hnew : ⟨streamId, i, first.count listening x.counts i⟩ ∈ y.attached := by
    rw [hpoll.eq]
    refine List.mem_append_right _ (List.mem_append_left _ (List.mem_append_left _ ?_))
    refine mem_attachments.mpr ⟨{ slot' with socket := slot'.socket.receive (first.tcp i) }, ?_,
      hserves, ?_, rfl⟩
    · rw [getElem?_evolve, hlistening, Option.map_some]
    · rw [hsocket, hasConnection_listening]
      simpa using hconnects
  intro hone
  have hsame := congrArg Attachment.connection (hone _ hold _ hnew rfl)
  have hpos := connections_pos (by simpa using hconnects) endpoint
  simp only [Segments.count, hlistening, Option.map_some, hsocket, Option.getD_some] at hsame
  omega

end Poll

/-- Attachments stay. -/
theorem step_attached (h : x.step event = some y) : x.attached ⊆ y.attached := by
  cases event with
  | poll now first second =>
    obtain ⟨listening, pumped, events, hpoll, -⟩ := step_poll h
    exact attached_subset hpoll
  | push packet | pop | send streamId bytes | close streamId =>
    obtain ⟨hy, -⟩ := step_touched (by simp) h
    rw [hy]
    exact List.Subset.refl _

/-- **Streams.**  In every run of a stack, the streams of the HTTPS port are as they
should be exactly if at no poll a slot that still has the stream of a closed socket gets a
new connection. -/
theorem stream_protocol_iff (interface : Interface) (lowercase : Lowercase)
    (services : List PublishedService) (network : VirtualNetwork) (capacity : Nat)
    (stack : MediumStack interface) (events : List Event) (x : Connections interface)
    (built : VirtualNetwork.new lowercase services = .ok network)
    (started : MediumStack.new interface capacity network = some stack)
    (run : exec step (start stack) events = some x) :
    x.Protocol ↔ Meets step NoReattach (start stack) events := by
  refine exec_good_iff (G := Sound) (B := fun x => ¬ OneConnection x.attached) (P := Protocol)
    ?_ ?_ ?_ (fun _ hsound => hsound.protocol)
    (fun _ hbad hprotocol => hbad hprotocol.oneConnection)
    events (start stack) x (sound_start built started) run
  · intro x event y hsound hno hstep
    cases event with
    | poll now first second => exact hsound.poll hno hstep
    | push packet | pop | send streamId bytes | close streamId =>
      exact hsound.touched (by simp) hstep
  · intro x event y hsound hno hstep
    cases event with
    | poll now first second => exact hsound.reattach hno hstep
    | push packet | pop | send streamId bytes | close streamId => exact absurd trivial hno
  · intro x event y hbad hstep hone
    refine hbad fun a ha b hb => hone a (step_attached hstep ha) b (step_attached hstep hb)

/-! ### An upload that is aborted -/

/-- A poll with segments for the HTTPS port of the one service. -/
def sampleEvent (segments : List Segment) : Event := .poll 0 (.only 1 segments) .none

/-- A client connects, sends and resets the connection, and then another one connects. -/
def twoClients : List Event :=
  [sampleEvent [.syn], sampleEvent [.ack 0 false], sampleEvent [.data [1, 2] 2, .rst],
    sampleEvent [], sampleEvent [.syn], sampleEvent [.ack 0 false, .data [3] 1]]

theorem stream_protocol_iff_two_clients : ∃ x : Connections plainInterface,
    exec step (start MediumStack.sampleStack) twoClients = some x ∧
    x.log = [.connected "tcp-1" "svc_web", .received "tcp-1" "svc_web" [1, 2],
      .closed "tcp-1" "svc_web", .connected "tcp-2" "svc_web", .received "tcp-2" "svc_web" [3]] ∧
    x.Protocol := by
  obtain ⟨x, run, hlog⟩ : ∃ x, exec step (start MediumStack.sampleStack) twoClients = some x ∧
      x.log = [.connected "tcp-1" "svc_web", .received "tcp-1" "svc_web" [1, 2],
        .closed "tcp-1" "svc_web", .connected "tcp-2" "svc_web",
        .received "tcp-2" "svc_web" [3]] := by
    decide +kernel
  refine ⟨x, run, hlog, ?_⟩
  refine (stream_protocol_iff plainInterface asciiLowercase [⟨"svc_web", none, "https"⟩]
    MediumStack.sampleNetwork IFACE_MAX_ADDR_COUNT MediumStack.sampleStack twoClients x
    (VirtualNetwork.new_eq_ok_iff.mpr ⟨by decide, rfl⟩) MediumStack.new_sampleStack run).mpr ?_
  decide +kernel

/-- A client connects and sends 65535 bytes, which are read.  The buffer holds one more,
so of the next two bytes one lies before its end.  Then the client resets the connection,
and another one connects. -/
def abortedUpload : List Event :=
  [sampleEvent [.syn], sampleEvent [.ack 0 false]] ++
    List.replicate 7 (sampleEvent [.data (List.replicate 8192 0) 8192]) ++
    [sampleEvent [.data (List.replicate 8191 0) 8191], sampleEvent [.data [1, 2] 1, .rst],
      sampleEvent [.syn], sampleEvent [.ack 0 false, .data [3] 1]]

/-- The stream is still that of the first client when the second one connects. -/
theorem stream_of_two_connections : ∃ x : Connections plainInterface,
    exec step (start MediumStack.sampleStack) abortedUpload = some x ∧
    x.log.drop 9 = [.received "tcp-1" "svc_web" [1], .received "tcp-1" "svc_web" [3]] ∧
    ⟨"tcp-1", 1, 1⟩ ∈ x.attached ∧ ⟨"tcp-1", 1, 2⟩ ∈ x.attached := by
  decide +kernel

end Connections

end MediumOverlay.Netstack
