import MediumOverlay.Transport.Listener

/-!
# Who makes a node punch

A node registers with the rendezvous server of its relay, and the server sends a
`Peer` message with the address of each client that asks for the node.  The listener
answers it with a burst of punches to that address.  The message is handed to
`handle_listener_message` without its source, so a `Peer` message of anyone has the
same effect.

`mem_sent_run` says which punches have left after a run.  `punches_asked` is about runs in
which `Peer` messages come from the relay alone.
-/

namespace MediumOverlay

open Trace

/-- The first datagram of a burst leaves. -/
def SocketIo.SendsFirst (io : SocketIo) : Prop := ∀ failed ∈ io.failedSend, 0 < failed.1

/-- What leaves in a burst is the datagram, to the address. -/
theorem SocketIo.mem_burst_iff {io : SocketIo} {n : Nat} {addr : SocketAddr} {datagram : Bytes}
    {s : SocketAddr × Bytes} (hn : 0 < n) :
    s ∈ (io.burst n addr datagram).1 ↔ s = (addr, datagram) ∧ io.SendsFirst := by
  unfold SocketIo.burst SocketIo.SendsFirst
  cases io.failedSend with
  | none => simp [hn.ne', List.mem_replicate]
  | some failed =>
    by_cases h : failed.1 < n
    · simp [h, List.mem_replicate, Nat.pos_iff_ne_zero, and_comm]
    · have hpos : 0 < failed.1 := hn.trans_le (Nat.le_of_not_lt h)
      simp [h, List.mem_replicate, hn.ne', hpos]

namespace Listener

/-- The event is a `Peer` message of `source` that names `addr`. -/
def Event.Names (codec : Codec) (source addr : SocketAddr) : Event → Prop
  | .received _ peerAddr datagram _ => peerAddr = source ∧ peerNamed codec datagram = some addr
  | .failed _ | .drop => False

instance (codec : Codec) (source addr : SocketAddr) :
    ∀ e : Event, Decidable (e.Names codec source addr)
  | .received _ _ _ _ => inferInstanceAs (Decidable (_ ∧ _))
  | .failed _ | .drop => .isFalse id

/-- The event is a `Peer` message that names `addr`, and at least one punch leaves for it. -/
def Event.Punches (codec : Codec) (addr : SocketAddr) : Event → Prop
  | .received _ _ datagram io => packetOf datagram = none ∧ peerNamed codec datagram = some addr ∧
      io.SendsFirst
  | .failed _ | .drop => False

/-- A datagram that is a `Peer` message with an address, and no packet of a session, is from
`source`. -/
def Event.PeersFrom (codec : Codec) (source : SocketAddr) : Event → Prop
  | .received _ peerAddr datagram _ =>
    packetOf datagram = none → (peerNamed codec datagram).isSome → peerAddr = source
  | .failed _ | .drop => True

instance (codec : Codec) (source : SocketAddr) : ∀ e : Event, Decidable (e.PeersFrom codec source)
  | .received _ _ _ _ => inferInstanceAs (Decidable (_ → _ → _))
  | .failed _ | .drop => .isTrue trivial

variable {codec : Codec} {l l' : Listener} {e : Event} {now : Nat} {addr source relay : SocketAddr}
  {datagram : Bytes} {io : SocketIo}

theorem Event.Punches.names (h : e.Punches codec addr) (hfrom : e.PeersFrom codec relay) :
    e.Names codec relay addr := by
  cases e with
  | received =>
    obtain ⟨hpacket, hnamed, -⟩ := h
    exact ⟨hfrom hpacket (by rw [hnamed]; rfl), hnamed⟩
  | failed | drop => exact h

/-! ## What is sent for a datagram -/

/-- A message is answered with punches to the address it names. -/
theorem mem_handleListenerMessage_iff {s : SocketAddr × Bytes} :
    s ∈ (handleListenerMessage codec io (received datagram)).1 ↔
      peerNamed codec datagram = some s.1 ∧ s.2 = codec.toVec .punch ∧ io.SendsFirst := by
  unfold handleListenerMessage peerNamed
  rcases codec.parseMessage (received datagram) with message | (_ | _ | _ | text | _)
  case ok.peer =>
    dsimp only
    cases codec.parseAddr text with
    | error message => simp [Except.toOption]
    | ok peerAddr =>
      simp only [Except.toOption, sendPunchBurst, Option.some.injEq]
      rw [SocketIo.mem_burst_iff (by decide), Prod.ext_iff, and_assoc, @eq_comm _ s.1]
  all_goals simp

/-- No packet is the JSON of a punch. -/
theorem encodePacket_ne_punchJson {packet : Packet} {bytes : Bytes}
    (h : encodePacket packet = .ok bytes) : bytes ≠ punchJson := by
  unfold encodePacket at h
  split at h
  next => cases h
  next =>
    cases h
    simp [MAGIC, punchJson]

/-- No acknowledgement is a punch. -/
theorem notMem_sendAckBurst (peer : SocketAddr) (packet : Packet) :
    (addr, punchJson) ∉ (sendAckBurst io peer packet).1 := by
  unfold sendAckBurst
  split
  next => simp
  next encoded hencoded =>
    rw [SocketIo.mem_burst_iff (by decide)]
    rintro ⟨heq, -⟩
    exact encodePacket_ne_punchJson hencoded (Prod.ext_iff.mp heq).2.symm

@[simp] theorem send_sent (l : Listener) (m : Except AnyhowError AcceptedUdpSession) :
    (l.send m).sent = l.sent := by
  obtain ⟨more, h, -⟩ := l.send_eq m
  rw [h]

/-- A `Hello` is answered with acknowledgements at most. -/
theorem handleHello_sent (peer : SocketAddr) (packet : Packet) :
    ∃ more, (l.handleHello codec now peer packet io).sent = l.sent ++ more ∧
      ∀ addr, (addr, punchJson) ∉ more := by
  unfold handleHello
  split
  next => exact ⟨[], by simp, by simp⟩
  next =>
    refine ⟨(sendAckBurst io peer ⟨.helloAck, packet.seq, []⟩).1, ?_,
      fun addr => notMem_sendAckBurst peer _⟩
    dsimp only
    split
    next => rw [send_sent]
    next =>
      split
      next => rfl
      next =>
        obtain ⟨more, h, -⟩ := openSession_eq _ peer _ io
        rw [h]

/-- A datagram adds the punches it asks for. -/
theorem handle_sent (json : codec.toVec .punch = punchJson) :
    ∃ more, (l.handle codec now source datagram io).sent = l.sent ++ more ∧
      ∀ addr, (addr, punchJson) ∈ more ↔
        packetOf datagram = none ∧ peerNamed codec datagram = some addr ∧ io.SendsFirst := by
  cases hp : packetOf datagram with
  | none =>
    rw [handle_control hp]
    refine ⟨_, rfl, fun addr => ?_⟩
    rw [mem_handleListenerMessage_iff, json]
    simp
  | some packet =>
    by_cases hk : packet.kind = .hello
    · rw [handle_hello hp hk]
      obtain ⟨more, hmore, hnone⟩ := handleHello_sent source packet
      exact ⟨more, hmore, fun addr => by simp [hnone addr]⟩
    · rw [handle_packet hp hk]
      exact ⟨[], by simp, by simp⟩

/-- One step. -/
theorem step_sent (json : codec.toVec .punch = punchJson) (h : l.step codec e = some l') :
    ∃ more, l'.sent = l.sent ++ more ∧
      ∀ addr, (addr, punchJson) ∈ more ↔ e.Punches codec addr := by
  cases e with
  | received now source datagram io =>
    simp only [step] at h
    split at h
    next => cases h
    next =>
      cases h
      obtain ⟨more, hmore, hiff⟩ := handle_sent json
      exact ⟨more, hmore, hiff⟩
  | failed error =>
    refine ⟨[], ?_, by simp [Event.Punches]⟩
    simp only [step] at h
    split at h
    next => cases h
    next =>
      split at h
      next => cases h; simp [loopTest]
      next => cases h; simp
  | drop =>
    refine ⟨[], ?_, by simp [Event.Punches]⟩
    simp only [step] at h
    split at h
    next => cases h; simp
    next => cases h

/-- The punches that have left after a run are those its events ask for. -/
theorem mem_sent_run (json : codec.toVec .punch = punchJson) (es : List Event)
    (run : exec (step codec) l es = some l') (addr : SocketAddr) :
    (addr, punchJson) ∈ l'.sent ↔
      (addr, punchJson) ∈ l.sent ∨ ∃ e ∈ es, e.Punches codec addr := by
  induction es generalizing l with
  | nil =>
    cases run
    simp
  | cons e es ih =>
    obtain ⟨l₁, h₁, hrest⟩ := exec_cons_eq_some.mp run
    obtain ⟨more, hmore, hiff⟩ := step_sent json h₁
    rw [ih hrest, hmore, List.mem_append, hiff addr]
    simp only [List.mem_cons, exists_eq_or_imp, or_assoc]

/-! ## What the relay asked for -/

/-- **Punches the relay asked for.**  In every run in which `Peer` messages come from the relay
alone, each punch that a step sends goes to an address that a `Peer` message of the relay has
named, in the step or before it. -/
theorem punches_asked (codec : Codec) (relay : SocketAddr) (es : List Event) (l l' : Listener)
    (e : Event) (json : codec.toVec .punch = punchJson)
    (asked : ∀ e' ∈ es ++ [e], e'.PeersFrom codec relay)
    (run : exec (step codec) init es = some l) (hs : l.step codec e = some l') :
    ∃ sent, l'.sent = l.sent ++ sent ∧
      (∀ addr, (addr, codec.toVec .punch) ∈ sent → e.Names codec relay addr) ∧
      ∀ addr, (addr, codec.toVec .punch) ∈ l.sent → ∃ e' ∈ es, e'.Names codec relay addr := by
  rw [json]
  obtain ⟨sent, hsent, hiff⟩ := step_sent json hs
  refine ⟨sent, hsent, fun addr haddr => ?_, fun addr haddr => ?_⟩
  · exact ((hiff addr).mp haddr).names (asked e (by simp))
  · have hpunched := (mem_sent_run json es run addr).mp haddr
    obtain ⟨e', he', hpunch⟩ := hpunched.resolve_left (by simp [init])
    exact ⟨e', he', hpunch.names (asked e' (List.mem_append_left _ he'))⟩

/-- The relay of the runs below. -/
def sampleRelay : SocketAddr := .v4 0x0a000001 7001

/-- The JSON of the `Peer` message for port 40002 of the loopback address. -/
def peerJson : Bytes :=
  "\x7b\"role\":\"peer\",\"addr\":\"127.0.0.1:40002\"\x7d".toUTF8.data.toList

/-- `sampleCodec`, with that message. -/
def punchCodec : Codec where
  parseHello := sampleCodec.parseHello
  parseMessage payload :=
    if payload = peerJson then .ok (.peer "127.0.0.1:40002") else sampleCodec.parseMessage payload
  toVec := sampleCodec.toVec
  parseAddr text :=
    if text = "127.0.0.1:40002" then .ok otherClient else .error "invalid socket address syntax"
  parseHello_nil := sampleCodec.parseHello_nil

/-- Someone sends a punch, and then the relay names a client. -/
theorem punches_asked_sample : ∃ l l',
    exec (step punchCodec) init [.received 0 otherClient punchJson .ok] = some l ∧
      l.step punchCodec (.received 0 sampleRelay peerJson .ok) = some l' ∧
      l'.sent = List.replicate 5 (otherClient, punchJson) ∧
      ∀ addr, (addr, punchCodec.toVec .punch) ∈ l'.sent →
        (Event.received 0 sampleRelay peerJson .ok).Names punchCodec sampleRelay addr := by
  obtain ⟨l, run, hempty, l', hs, hsent⟩ : ∃ l,
      exec (step punchCodec) init [.received 0 otherClient punchJson .ok] = some l ∧
        l.sent = [] ∧ ∃ l', l.step punchCodec (.received 0 sampleRelay peerJson .ok) = some l' ∧
          l'.sent = List.replicate 5 (otherClient, punchJson) := by
    decide +kernel
  obtain ⟨sent, heq, hnamed, -⟩ :=
    punches_asked punchCodec sampleRelay _ l l' _ rfl (by decide +kernel) run hs
  rw [hempty, List.nil_append] at heq
  exact ⟨l, l', run, hs, hsent, heq ▸ hnamed⟩

/-- A host that is not the relay makes the node send five punches to another one. -/
theorem anyone_makes_node_punch : ∃ l,
    exec (step punchCodec) init [.received 0 sampleClient peerJson .ok] = some l ∧
      l.sent = List.replicate 5 (otherClient, punchCodec.toVec .punch) ∧
      ¬ ∃ e ∈ [Event.received 0 sampleClient peerJson .ok],
        e.Names punchCodec sampleRelay otherClient := by
  decide +kernel

end Listener

end MediumOverlay
