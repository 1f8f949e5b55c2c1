import MediumOverlay.Protocol.Addr
import MediumOverlay.Transport.Listener

/-!
# The handshake of the client

`UdpSessionStream::connect` sends its `Hello` to every address it has for the node
and waits for a `HelloAck`, again and again until the deadline.  It starts with the
address it was given.  A node behind a NAT may be seen at another port, so a
datagram with the IP of the node that is a punch adds its source to the addresses
(`recordPeerReflexiveCandidate`), and a `HelloAck` is taken from any port of that
IP.

A `Connecting` is the state of that loop, with everything it has sent, one list for
each burst, and the datagrams it has received.  `Candidates` is what every turn
keeps: addresses are only ever added at the end, so each burst went to a first part
of the addresses there are now.
-/

namespace MediumOverlay

open Trace

/-- The stream that `UdpSessionStream::new` makes: its peer, the token its key is
derived from, and its direction. -/
structure UdpSessionStream where
  peerAddr : SocketAddr
  token : String
  direction : Direction
deriving DecidableEq

/-- The arguments of `connect`, its deadline, and what it takes from `serde_json` and
from `Display` of an address. -/
structure ConnectConfig where
  codec : Codec
  toVec : SessionHello → Except String Bytes
  display : SocketAddr → String
  peerAddr : SocketAddr
  hello : SessionHello
  deadline : Nat

/-- What happens in one turn of the loop: the time at its head, the result of sending
to an address, what `recv_from` returns, and how setting the timeouts of the new stream
ends. -/
structure ConnectTurn where
  now : Nat
  sendTo : SocketAddr → Except IoError Unit
  recvFrom : Except IoError (SocketAddr × Bytes)
  setTimeouts : Except IoError Unit

/-! ## The functions of the loop -/

/-- `send_handshake_burst`: what is sent, and the result. -/
def sendHandshakeBurst (sendTo : SocketAddr → Except IoError Unit) (packet : Packet) :
    List SocketAddr → List (SocketAddr × Bytes) × Except AnyhowError Unit
  | [] => ([], .ok ())
  | peerAddr :: peerAddrs =>
    match encodePacket packet with
    | .error message => ([], .error (.message message))
    | .ok encoded =>
      match sendTo peerAddr with
      | .error error => ([], .error (.io error))
      | .ok () =>
        let (sent, result) := sendHandshakeBurst sendTo packet peerAddrs
        ((peerAddr, encoded) :: sent, result)

/-- `is_handshake_ack_from_peer`. -/
def isHandshakeAckFromPeer (peerAddrs : List SocketAddr) (packetAddr : SocketAddr)
    (response : Option Packet) : Bool :=
  if !(peerAddrs.any fun peerAddr => packetAddr.ip = peerAddr.ip) then false
  else
    match response with
    | some ⟨.helloAck, seq, _⟩ => seq = 0
    | _ => false

/-- `record_peer_reflexive_candidate`: the addresses after it. -/
def recordPeerReflexiveCandidate (codec : Codec) (peerAddrs : List SocketAddr)
    (packetAddr : SocketAddr) (payload : Bytes) : List SocketAddr :=
  if !(peerAddrs.any fun peerAddr => packetAddr.ip = peerAddr.ip)
      || peerAddrs.contains packetAddr then peerAddrs
  else
    match codec.parseMessage payload with
    | .ok .punch => peerAddrs ++ [packetAddr]
    | _ => peerAddrs

/-- `join_socket_addrs`. -/
def joinSocketAddrs (display : SocketAddr → String) (peerAddrs : List SocketAddr) : String :=
  ",".intercalate (peerAddrs.map display)

/-- `UdpSessionStream::new` at the client. -/
def UdpSessionStream.new (setTimeouts : Except IoError Unit) (peerAddr : SocketAddr)
    (token : String) : Except AnyhowError UdpSessionStream :=
  match setTimeouts with
  | .error error => .error (.io error)
  | .ok () => .ok ⟨peerAddr, token, .clientToNode⟩

/-! ## The loop -/

/-- The state of `connect`. -/
structure Connecting where
  packet : Packet
  peerAddrs : List SocketAddr
  /-- The bursts. -/
  sent : List (List (SocketAddr × Bytes))
  arrived : List (SocketAddr × Bytes)
  returned : Option (Except AnyhowError UdpSessionStream)

namespace Connecting

/-- `connect` up to its loop. -/
def start (cfg : ConnectConfig) (setTimeouts : Except IoError Unit) :
    Except AnyhowError Connecting :=
  match setTimeouts with
  | .error error => .error (.io error)
  | .ok () =>
    match cfg.toVec cfg.hello with
    | .error message => .error (.json message)
    | .ok payload => .ok ⟨⟨.hello, 0, payload⟩, [cfg.peerAddr], [], [], none⟩

/-- A datagram arrives. -/
def receive (cfg : ConnectConfig) (x : Connecting) (setTimeouts : Except IoError Unit)
    (addr : SocketAddr) (datagram : Bytes) : Connecting :=
  let x := { x with arrived := x.arrived ++ [(addr, datagram)] }
  if isHandshakeAckFromPeer x.peerAddrs addr (packetOf datagram) then
    { x with returned := some (UdpSessionStream.new setTimeouts addr cfg.hello.token) }
  else
    { x with
      peerAddrs := recordPeerReflexiveCandidate cfg.codec x.peerAddrs addr (received datagram) }

/-- One turn of the loop. -/
def step (cfg : ConnectConfig) (x : Connecting) (turn : ConnectTurn) : Option Connecting :=
  if x.returned.isSome then none
  else if cfg.deadline ≤ turn.now then
    some { x with
      returned := some (.error (.message
        ("UDP session handshake timed out for " ++ joinSocketAddrs cfg.display x.peerAddrs))) }
  else
    let (burst, result) := sendHandshakeBurst turn.sendTo x.packet x.peerAddrs
    let x := { x with sent := x.sent ++ [burst] }
    match result with
    | .error error => some { x with returned := some (.error error) }
    | .ok () =>
      match turn.recvFrom with
      | .ok (addr, datagram) => some (x.receive cfg turn.setTimeouts addr datagram)
      | .error error =>
        if error.isTimeout then some x
        else some { x with returned := some (.error (.io error)) }

/-! ## What every turn keeps -/

/-- A burst goes to the addresses in order, up to the one where it fails, and carries
the packet. -/
theorem sendHandshakeBurst_spec (sendTo : SocketAddr → Except IoError Unit) (packet : Packet)
    (peerAddrs : List SocketAddr) :
    (sendHandshakeBurst sendTo packet peerAddrs).1.map Prod.fst <+: peerAddrs ∧
      ∀ s ∈ (sendHandshakeBurst sendTo packet peerAddrs).1, encodePacket packet = .ok s.2 := by
  induction peerAddrs with
  | nil => exact ⟨List.prefix_refl _, by simp [sendHandshakeBurst]⟩
  | cons peerAddr peerAddrs ih =>
    unfold sendHandshakeBurst
    split
    next => exact ⟨List.nil_prefix, by simp⟩
    next encoded hencoded =>
      split
      next => exact ⟨List.nil_prefix, by simp⟩
      next =>
        refine ⟨List.cons_prefix_cons.mpr ⟨rfl, ih.1⟩, ?_⟩
        intro s hs
        rcases List.mem_cons.mp hs with rfl | hs
        · exact hencoded
        · exact ih.2 s hs

/-- A burst in which nothing fails goes to all of them. -/
theorem sendHandshakeBurst_of_ok {sendTo : SocketAddr → Except IoError Unit} {packet : Packet}
    {encoded : Bytes} (hencoded : encodePacket packet = .ok encoded) {peerAddrs : List SocketAddr}
    (h : ∀ addr ∈ peerAddrs, sendTo addr = .ok ()) :
    sendHandshakeBurst sendTo packet peerAddrs = (peerAddrs.map (·, encoded), .ok ()) := by
  induction peerAddrs with
  | nil => rfl
  | cons peerAddr peerAddrs ih =>
    obtain ⟨hfirst, hrest⟩ := List.forall_mem_cons.mp h
    simp only [sendHandshakeBurst, hencoded, hfirst, ih hrest, List.map_cons]

/-- An answer comes from a known IP, and is a `HelloAck` with sequence number 0. -/
theorem isHandshakeAckFromPeer_eq_true_iff {peerAddrs : List SocketAddr} {addr : SocketAddr}
    {response : Option Packet} : isHandshakeAckFromPeer peerAddrs addr response = true ↔
      (∃ peerAddr ∈ peerAddrs, addr.ip = peerAddr.ip) ∧
        ∃ packet, response = some packet ∧ packet.kind = .helloAck ∧ packet.seq = 0 := by
  have hany : (peerAddrs.any fun peerAddr => addr.ip = peerAddr.ip) = true ↔
      ∃ peerAddr ∈ peerAddrs, addr.ip = peerAddr.ip := by simp
  unfold isHandshakeAckFromPeer
  rw [← hany]
  cases peerAddrs.any fun peerAddr => addr.ip = peerAddr.ip with
  | false => simp
  | true =>
    rcases response with _ | ⟨kind, seq, payload⟩
    · simp
    · cases kind <;> simp

/-- The addresses stay, or the source of a punch from a known IP is added. -/
theorem recordPeerReflexiveCandidate_cases (codec : Codec) (peerAddrs : List SocketAddr)
    (addr : SocketAddr) (payload : Bytes) :
    recordPeerReflexiveCandidate codec peerAddrs addr payload = peerAddrs ∨
      ((∃ peerAddr ∈ peerAddrs, addr.ip = peerAddr.ip) ∧ addr ∉ peerAddrs ∧
        codec.parseMessage payload = .ok .punch ∧
        recordPeerReflexiveCandidate codec peerAddrs addr payload = peerAddrs ++ [addr]) := by
  unfold recordPeerReflexiveCandidate
  split
  next => exact Or.inl rfl
  next hknown =>
    split
    next hpunch =>
      simp only [Bool.or_eq_true, Bool.not_eq_true', not_or, Bool.not_eq_false, List.any_eq_true,
        decide_eq_true_eq, List.contains_iff_mem] at hknown
      exact Or.inr ⟨hknown.1, hknown.2, hpunch, rfl⟩
    next => exact Or.inl rfl

variable {cfg : ConnectConfig} {x y : Connecting} {turn : ConnectTurn}

/-- A punch of this address has arrived. -/
def Punched (cfg : ConnectConfig) (x : Connecting) (addr : SocketAddr) : Prop :=
  ∃ datagram, (addr, datagram) ∈ x.arrived ∧
    cfg.codec.parseMessage (received datagram) = .ok .punch

/-- The last datagram answers the handshake, and this is its source. -/
def Answered (cfg : ConnectConfig) (x : Connecting) (addr : SocketAddr) : Prop :=
  addr.ip = cfg.peerAddr.ip ∧ ∃ datagram packet, x.arrived.getLast? = some (addr, datagram) ∧
    decodePacket (received datagram) = .ok packet ∧ packet.kind = .helloAck ∧ packet.seq = 0

/-- What every turn of the loop keeps. -/
structure Candidates (cfg : ConnectConfig) (x : Connecting) : Prop where
  peer : cfg.peerAddr ∈ x.peerAddrs
  nodup : x.peerAddrs.Nodup
  ip : ∀ addr ∈ x.peerAddrs, addr.ip = cfg.peerAddr.ip
  heard : ∀ addr ∈ x.peerAddrs, addr = cfg.peerAddr ∨ Punched cfg x addr
  bursts : ∀ burst ∈ x.sent, burst.map Prod.fst <+: x.peerAddrs ∧
    ∀ s ∈ burst, encodePacket x.packet = .ok s.2
  answered : ∀ stream, x.returned = some (.ok stream) → Answered cfg x stream.peerAddr

theorem start_candidates {setTimeouts : Except IoError Unit} (h : start cfg setTimeouts = .ok x) :
    Candidates cfg x := by
  unfold start at h
  split at h
  next => cases h
  next =>
    split at h
    next => cases h
    next =>
      cases h
      exact ⟨by simp, by simp, by simp, by simp, by simp, by simp⟩

/-- A turn that adds a burst and then ends without a stream. -/
theorem Candidates.burst (h : Candidates cfg x) {burst : List (SocketAddr × Bytes)}
    {returned : Option (Except AnyhowError UdpSessionStream)}
    (sent : burst.map Prod.fst <+: x.peerAddrs ∧ ∀ s ∈ burst, encodePacket x.packet = .ok s.2)
    (none : ∀ stream, returned ≠ some (.ok stream)) :
    Candidates cfg { x with sent := x.sent ++ [burst], returned := returned } where
  peer := h.peer
  nodup := h.nodup
  ip := h.ip
  heard := h.heard
  bursts := by
    intro b hb
    rcases List.mem_append.mp hb with hb | hb
    · exact h.bursts b hb
    · rw [List.mem_singleton.mp hb]
      exact sent
  answered := fun stream hstream => absurd hstream (none stream)

/-- A punch that arrived stays. -/
theorem Punched.arrived {addr : SocketAddr} (h : Punched cfg x addr)
    (arrived : ∃ more, y.arrived = x.arrived ++ more) : Punched cfg y addr := by
  obtain ⟨more, hmore⟩ := arrived
  obtain ⟨datagram, hmem, hpunch⟩ := h
  refine ⟨datagram, ?_, hpunch⟩
  rw [hmore]
  exact List.mem_append_left more hmem

/-- A datagram adds at most its source, and ends the loop only as an answer. -/
theorem Candidates.receive (h : Candidates cfg x) (running : x.returned = none)
    (setTimeouts : Except IoError Unit) (addr : SocketAddr) (datagram : Bytes) :
    Candidates cfg (x.receive cfg setTimeouts addr datagram) := by
  have hheard : ∀ a ∈ x.peerAddrs, a = cfg.peerAddr ∨
      Punched cfg { x with arrived := x.arrived ++ [(addr, datagram)] } a := by
    intro a ha
    exact (h.heard a ha).imp_right fun hpunch => hpunch.arrived ⟨_, rfl⟩
  unfold Connecting.receive
  dsimp only
  split
  next hack =>
    obtain ⟨⟨peerAddr, hknown, hip⟩, packet, hpacket, hkind, hseq⟩ :=
      isHandshakeAckFromPeer_eq_true_iff.mp hack
    refine ⟨h.peer, h.nodup, h.ip, hheard, h.bursts, ?_⟩
    intro stream hstream
    unfold UdpSessionStream.new at hstream
    split at hstream
    next => cases hstream
    next =>
      cases hstream
      exact ⟨hip.trans (h.ip peerAddr hknown), datagram, packet, by simp,
        Listener.decodePacket_received hpacket, hkind, hseq⟩
  next =>
    have hanswered : ∀ stream, x.returned ≠ some (.ok stream) := by simp [running]
    rcases recordPeerReflexiveCandidate_cases cfg.codec x.peerAddrs addr (received datagram) with
      hsame | ⟨⟨peerAddr, hknown, hip⟩, hnew, hpunch, hadded⟩
    · rw [hsame]
      exact ⟨h.peer, h.nodup, h.ip, hheard, h.bursts, fun s hs => absurd hs (hanswered s)⟩
    · rw [hadded]
      refine ⟨List.mem_append_left _ h.peer, ?_, ?_, ?_, ?_, fun s hs => absurd hs (hanswered s)⟩
      · exact h.nodup.append (List.nodup_singleton addr) (by simpa using hnew)
      · intro a ha
        rcases List.mem_append.mp ha with ha | ha
        · exact h.ip a ha
        · rw [List.mem_singleton.mp ha]
          exact hip.trans (h.ip peerAddr hknown)
      · intro a ha
        rcases List.mem_append.mp ha with ha | ha
        · exact hheard a ha
        · rw [List.mem_singleton.mp ha]
          exact Or.inr ⟨datagram, by simp, hpunch⟩
      · intro burst hburst
        have hsent := h.bursts burst hburst
        exact ⟨hsent.1.trans (List.prefix_append _ _), hsent.2⟩

theorem step_candidates (h : Candidates cfg x) (hstep : step cfg x turn = some y) :
    Candidates cfg y := by
  unfold step at hstep
  split at hstep
  next => cases hstep
  next running =>
    split at hstep
    next =>
      cases hstep
      exact ⟨h.peer, h.nodup, h.ip, h.heard, h.bursts, by simp⟩
    next =>
      have hspec := sendHandshakeBurst_spec turn.sendTo x.packet x.peerAddrs
      have hnone : x.returned = none := by simpa using running
      dsimp only at hstep
      split at hstep
      next =>
        cases hstep
        exact h.burst hspec (by simp)
      next =>
        have hnew : ∀ stream, x.returned ≠ some (.ok stream) := by simp [hnone]
        have hsent := h.burst hspec hnew
        split at hstep
        next addr datagram _ =>
          cases hstep
          exact hsent.receive hnone turn.setTimeouts addr datagram
        next =>
          split at hstep
          next =>
            cases hstep
            exact hsent
          next =>
            cases hstep
            exact h.burst hspec (by simp)

theorem step_sent {encoded : Bytes} (hstep : step cfg x turn = some y)
    (intime : turn.now < cfg.deadline) (hencoded : encodePacket x.packet = .ok encoded)
    (h : ∀ addr ∈ x.peerAddrs, turn.sendTo addr = .ok ()) :
    y.sent = x.sent ++ [x.peerAddrs.map (·, encoded)] := by
  unfold step at hstep
  rw [if_neg (Nat.not_le.mpr intime), sendHandshakeBurst_of_ok hencoded h] at hstep
  dsimp only at hstep
  split at hstep
  next => cases hstep
  next =>
    split at hstep
    next =>
      cases hstep
      unfold Connecting.receive
      dsimp only
      split <;> rfl
    next => split at hstep <;> cases hstep <;> rfl

/-- **The client's handshake.**  In every run, the addresses that `Hello`s are sent to
contain the peer, have no duplicates and the peer's IP, and each is the peer or the
source of a punch.  Every burst goes to a first part of them, and the next one to all of
them if nothing fails.  A stream is returned only for a `HelloAck` with sequence number 0
from the peer's IP, and its peer is the source of that answer. -/
theorem connect_candidates (cfg : ConnectConfig) (setTimeouts : Except IoError Unit)
    (turns : List ConnectTurn) (x₀ x : Connecting) (started : start cfg setTimeouts = .ok x₀)
    (run : exec (step cfg) x₀ turns = some x) :
    cfg.peerAddr ∈ x.peerAddrs ∧ x.peerAddrs.Nodup ∧
      (∀ addr ∈ x.peerAddrs, addr.ip = cfg.peerAddr.ip ∧
        (addr = cfg.peerAddr ∨ Punched cfg x addr)) ∧
      (∀ burst ∈ x.sent, burst.map Prod.fst <+: x.peerAddrs ∧
        ∀ s ∈ burst, encodePacket x.packet = .ok s.2) ∧
      (∀ turn y encoded, step cfg x turn = some y → turn.now < cfg.deadline →
        encodePacket x.packet = .ok encoded →
        (∀ addr ∈ x.peerAddrs, turn.sendTo addr = .ok ()) →
          y.sent = x.sent ++ [x.peerAddrs.map (·, encoded)]) ∧
      ∀ stream, x.returned = some (.ok stream) → Answered cfg x stream.peerAddr := by
  have h : Candidates cfg x :=
    exec_invariant_all (fun _ _ _ h hstep => step_candidates h hstep) turns x₀ x
      (start_candidates started) run
  exact ⟨h.peer, h.nodup, fun addr haddr => ⟨h.ip addr haddr, h.heard addr haddr⟩, h.bursts,
    fun _ _ _ => step_sent, h.answered⟩

/-- The peer is at port 40001 of the loopback address. -/
def sampleConfig : ConnectConfig where
  codec := Listener.sampleCodec
  toVec _ := .ok (Listener.helloJson "a")
  display _ := "127.0.0.1:40001"
  peerAddr := Listener.sampleClient
  hello := ⟨"a", "svc_web", none⟩
  deadline := 8000

/-- A turn in which everything sent leaves. -/
def sampleTurn (now : Nat) (recvFrom : Except IoError (SocketAddr × Bytes)) : ConnectTurn :=
  ⟨now, fun _ => .ok (), recvFrom, .ok ()⟩

/-- A timeout, a punch of another port, a `HelloAck` of another host, and the answer
from a third port. -/
def sampleTurns : List ConnectTurn :=
  let ack := (encodePacket ⟨.helloAck, 0, []⟩).toOption.getD []
  [sampleTurn 0 (.error .timedOut), sampleTurn 150 (.ok (Listener.otherClient, punchJson)),
    sampleTurn 300 (.ok (.v4 0x0a000001 40001, ack)),
    sampleTurn 450 (.ok (.v4 0x7f000001 40003, ack))]

theorem connect_candidates_sample : ∃ x₀ x, start sampleConfig (.ok ()) = .ok x₀ ∧
    exec (step sampleConfig) x₀ sampleTurns = some x ∧
    x.peerAddrs = [Listener.sampleClient, Listener.otherClient] ∧
    x.returned = some (.ok ⟨.v4 0x7f000001 40003, "a", .clientToNode⟩) ∧
    Answered sampleConfig x (.v4 0x7f000001 40003) := by
  have hstart : start sampleConfig (.ok ()) =
      .ok ⟨⟨.hello, 0, Listener.helloJson "a"⟩, [Listener.sampleClient], [], [], none⟩ := rfl
  obtain ⟨x, hrun, haddrs, hreturned⟩ :
      ∃ x, exec (step sampleConfig)
          ⟨⟨.hello, 0, Listener.helloJson "a"⟩, [Listener.sampleClient], [], [], none⟩
          sampleTurns = some x ∧
        x.peerAddrs = [Listener.sampleClient, Listener.otherClient] ∧
        x.returned = some (.ok ⟨.v4 0x7f000001 40003, "a", .clientToNode⟩) := by
    decide +kernel
  have hall := connect_candidates sampleConfig (.ok ()) sampleTurns _ x hstart hrun
  exact ⟨_, x, hstart, hrun, haddrs, hreturned, hall.2.2.2.2.2 _ hreturned⟩

end Connecting

end MediumOverlay
