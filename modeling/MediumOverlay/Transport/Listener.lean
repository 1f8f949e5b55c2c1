import MediumOverlay.Lib.Mailboxes
import MediumOverlay.Lib.Trace
import MediumOverlay.Transport.Hello

/-!
# The listener of the node

`run_listener_reader` owns the node's socket.  It reads datagrams from every peer
and does one of three things with each.  What is not a packet may be a message of
the rendezvous server, and is handed to `handle_listener_message`.  A packet that
is not a `Hello` goes to the inbox of the session of its source address, if there
is one.  A `Hello` is acknowledged, and unless it repeats a recent handshake it
opens a session, whose stream is sent to `accept` over a channel.

An inbox is a mailbox of `Mailboxes`, and its number is what a stream holds of
it.  The mailboxes here keep everything that was ever pushed to them.  The channel
is the list of everything that was sent over it.

`isolated` is the result: from the moment a session is accepted its inbox gets
the packets of its peer and no others, as long as no new `Hello` of that peer
takes the entry over.
-/

namespace MediumOverlay

open Trace

/-! ## Messages -/

/-- `UdpRendezvousMessage`. -/
inductive UdpRendezvousMessage where
  | node (nodeId sharedSecret : String)
  | client (nodeId token : String)
  | registered (addr : String)
  | peer (addr : String)
  | punch
deriving DecidableEq, Repr

/-- What the code takes from `serde_json` and from the address parser of `std`.
No JSON value is spelled by the empty string. -/
structure Codec where
  parseHello : Bytes → Except String SessionHello
  parseMessage : Bytes → Except String UdpRendezvousMessage
  toVec : UdpRendezvousMessage → Bytes
  parseAddr : String → Except String SocketAddr
  parseHello_nil : ∃ message, parseHello [] = .error message

/-- The JSON of `UdpRendezvousMessage::Punch`. -/
def punchJson : Bytes :=
  [123, 34, 114, 111, 108, 101, 34, 58, 34, 112, 117, 110, 99, 104, 34, 125]

/-- How the socket calls made for one datagram end.  A burst stops at the first
send that fails, so one index says how far it came. -/
structure SocketIo where
  failedSend : Option (Nat × IoError)
  tryClone : Except IoError Unit
  setTimeouts : Except IoError Unit

/-- All calls succeed. -/
def SocketIo.ok : SocketIo := ⟨none, .ok (), .ok ()⟩

/-- `n` datagrams to one address: those that leave, and the error that stopped the
burst. -/
def SocketIo.burst (io : SocketIo) (n : Nat) (addr : SocketAddr) (datagram : Bytes) :
    List (SocketAddr × Bytes) × Except AnyhowError Unit :=
  match io.failedSend with
  | some (i, error) =>
    if i < n then (.replicate i (addr, datagram), .error (.io error))
    else (.replicate n (addr, datagram), .ok ())
  | none => (.replicate n (addr, datagram), .ok ())

/-- `send_ack_burst`. -/
def sendAckBurst (io : SocketIo) (peerAddr : SocketAddr) (packet : Packet) :
    List (SocketAddr × Bytes) × Except AnyhowError Unit :=
  match encodePacket packet with
  | .error message => ([], .error (.message message))
  | .ok encoded => io.burst ACK_BURST_PACKETS peerAddr encoded

def PUNCH_BURST_PACKETS : Nat := 5

/-- `send_punch_burst`. -/
def sendPunchBurst (codec : Codec) (io : SocketIo) (peerAddr : SocketAddr) :
    List (SocketAddr × Bytes) × Except AnyhowError Unit :=
  io.burst PUNCH_BURST_PACKETS peerAddr (codec.toVec .punch)

/-- `handle_listener_message`: what it sends, and its result. -/
def handleListenerMessage (codec : Codec) (io : SocketIo) (payload : Bytes) :
    List (SocketAddr × Bytes) × Except AnyhowError (Option SocketAddr) :=
  match codec.parseMessage payload with
  | .error message => ([], .error (.json message))
  | .ok (.peer addr) =>
    match codec.parseAddr addr with
    | .error message => ([], .error (.message message))
    | .ok peerAddr =>
      let (sent, result) := sendPunchBurst codec io peerAddr
      (sent, result.map fun _ => some peerAddr)
  | .ok .punch | .ok (.registered _) | .ok (.node _ _) | .ok (.client _ _) => ([], .ok none)

/-- The address that a `Peer` message names, to which a burst of punches is sent. -/
def peerNamed (codec : Codec) (datagram : Bytes) : Option SocketAddr :=
  match codec.parseMessage (received datagram) with
  | .ok (.peer addr) => (codec.parseAddr addr).toOption
  | _ => none

/-! ## Handshakes -/

/-- `SessionHandshakeKey`. -/
structure SessionHandshakeKey where
  peerAddr : SocketAddr
  token : String
  serviceId : String
deriving DecidableEq, Repr

/-- The key of a `Hello`. -/
def SessionHello.key (hello : SessionHello) (peerAddr : SocketAddr) : SessionHandshakeKey :=
  ⟨peerAddr, hello.token, hello.serviceId⟩

/-- `is_duplicate_handshake`: its answer, and the handshakes it remembers, the
oldest first.  Times are nanoseconds, and `duration_since` is zero if the clock
went back. -/
def isDuplicateHandshake (recent : List (SessionHandshakeKey × Nat)) (key : SessionHandshakeKey)
    (now : Nat) : Bool × List (SessionHandshakeKey × Nat) :=
  let recent := recent.dropWhile fun entry => now - entry.2 > DUPLICATE_HANDSHAKE_WINDOW
  if recent.any fun entry => entry.1 = key then
    (true, recent)
  else
    let recent := recent ++ [(key, now)]
    (false, recent.drop (recent.length - MAX_RECENT_HANDSHAKES))

/-! ## The reader -/

/-- `AcceptedUdpSession`.  Its stream is a fresh one for the token of the `Hello`,
reads the inbox of this number and sends to the peer. -/
structure AcceptedUdpSession where
  peerAddr : SocketAddr
  hello : SessionHello
  inbox : Nat
deriving DecidableEq, Repr

/-- The state of `run_listener_reader`, with everything it has sent. -/
structure Listener where
  /-- The flag that dropping the `UdpSessionListener` clears. -/
  running : Bool
  recentHandshakes : List (SessionHandshakeKey × Nat)
  /-- `active_sessions` and the inboxes. -/
  sessions : Mailboxes SocketAddr Packet
  incoming : List (Except AnyhowError AcceptedUdpSession)
  sent : List (SocketAddr × Bytes)
  returned : Bool

namespace Listener

inductive Event where
  /-- `recv_from` returns a datagram at time `now`. -/
  | received (now : Nat) (peerAddr : SocketAddr) (datagram : Bytes) (io : SocketIo)
  | failed (error : IoError)
  /-- The `UdpSessionListener` is dropped, and the receiver with it. -/
  | drop

def init : Listener := ⟨true, [], .empty, [], [], false⟩

/-- `incoming_tx.send`.  It fails once the receiver is gone. -/
def send (l : Listener) (message : Except AnyhowError AcceptedUdpSession) : Listener :=
  if l.running then { l with incoming := l.incoming ++ [message] } else l

/-- A `Hello` that is not a duplicate: the inbox is in the table before the stream
is made. -/
def openSession (l : Listener) (peerAddr : SocketAddr) (hello : SessionHello) (io : SocketIo) :
    Listener :=
  let inbox := l.sessions.boxes.length
  let l := { l with sessions := l.sessions.register peerAddr }
  match io.tryClone with
  | .error error => l.send (.error (.io error))
  | .ok () =>
    match io.setTimeouts with
    | .error error => l.send (.error (.io error))
    | .ok () => l.send (.ok ⟨peerAddr, hello, inbox⟩)

/-- A packet of kind `Hello`. -/
def handleHello (codec : Codec) (l : Listener) (now : Nat) (peerAddr : SocketAddr)
    (packet : Packet) (io : SocketIo) : Listener :=
  match codec.parseHello packet.payload with
  | .error message => l.send (.error (.json message))
  | .ok hello =>
    let (duplicate, recent) := isDuplicateHandshake l.recentHandshakes (hello.key peerAddr) now
    let (sent, ackResult) := sendAckBurst io peerAddr ⟨.helloAck, packet.seq, []⟩
    let l := { l with recentHandshakes := recent, sent := l.sent ++ sent }
    match ackResult with
    | .error error => l.send (.error error)
    | .ok () => if duplicate then l else l.openSession peerAddr hello io

/-- The body of the loop on a datagram. -/
def handle (codec : Codec) (l : Listener) (now : Nat) (peerAddr : SocketAddr) (datagram : Bytes)
    (io : SocketIo) : Listener :=
  match decodePacket (received datagram) with
  | .error _ => { l with sent := l.sent ++ (handleListenerMessage codec io (received datagram)).1 }
  | .ok packet =>
    if packet.kind ≠ .hello then { l with sessions := l.sessions.post peerAddr packet }
    else l.handleHello codec now peerAddr packet io

/-- The test of the loop, before the next `recv_from`. -/
def loopTest (l : Listener) : Listener := { l with returned := !l.running }

/-- One turn of the loop.  The reader may be blocked in `recv_from` when the
listener is dropped: it handles that datagram and then returns. -/
def step (codec : Codec) (l : Listener) : Event → Option Listener
  | .received now peerAddr datagram io =>
    if l.returned then none else some (l.handle codec now peerAddr datagram io).loopTest
  | .failed error =>
    if l.returned then none
    else if error.isTimeout then some l.loopTest
    else some { l.send (.error (.io error)) with returned := true }
  | .drop => if l.running then some { l with running := false } else none

@[simp] theorem loopTest_sessions (l : Listener) : l.loopTest.sessions = l.sessions := rfl

@[simp] theorem loopTest_incoming (l : Listener) : l.loopTest.incoming = l.incoming := rfl

/-- `send` adds the message to the channel, or nothing. -/
theorem send_eq (l : Listener) (m : Except AnyhowError AcceptedUdpSession) :
    ∃ more, l.send m = { l with incoming := l.incoming ++ more } ∧ ∀ m' ∈ more, m' = m := by
  unfold send
  split
  next => exact ⟨[m], rfl, by simp⟩
  next => exact ⟨[], by simp, by simp⟩

@[simp] theorem send_sessions (l : Listener) (m : Except AnyhowError AcceptedUdpSession) :
    (l.send m).sessions = l.sessions := by
  obtain ⟨more, h, -⟩ := l.send_eq m
  rw [h]

@[simp] theorem send_running (l : Listener) (m : Except AnyhowError AcceptedUdpSession) :
    (l.send m).running = l.running := by
  obtain ⟨more, h, -⟩ := l.send_eq m
  rw [h]

/-! ## What a datagram does -/

/-- The payload of a `Hello`, parsed.  `none` for every other datagram. -/
def helloOf (codec : Codec) (datagram : Bytes) : Option (Except String SessionHello) :=
  (packetOf datagram).bind fun packet =>
    if packet.kind = .hello then some (codec.parseHello packet.payload) else none

/-- What the reader pushes to the inbox of `peer` for a datagram of `addr`. -/
def routed (peer addr : SocketAddr) (datagram : Bytes) : List Packet :=
  if addr = peer then (packetOf datagram).toList.filter fun packet => packet.kind ≠ .hello else []

/-- What the reader pushes to the inbox of `peer`. -/
def Event.routed (peer : SocketAddr) : Event → List Packet
  | .received _ addr datagram _ => Listener.routed peer addr datagram
  | .failed _ | .drop => []

variable {codec : Codec} {l l' : Listener} {e : Event} {now : Nat} {addr peer : SocketAddr}
  {datagram : Bytes} {io : SocketIo} {packet : Packet} {hello : SessionHello}

theorem decodePacket_received (h : packetOf datagram = some packet) :
    decodePacket (received datagram) = .ok packet := by
  unfold packetOf at h
  cases hd : decodePacket (received datagram) with
  | error message => simp [hd, Except.toOption] at h
  | ok p => simpa [hd, Except.toOption] using h

theorem handle_control (h : packetOf datagram = none) :
    l.handle codec now addr datagram io =
      { l with sent := l.sent ++ (handleListenerMessage codec io (received datagram)).1 } := by
  unfold packetOf at h
  cases hd : decodePacket (received datagram) with
  | error message => simp [handle, hd]
  | ok p => simp [hd, Except.toOption] at h

theorem handle_packet (h : packetOf datagram = some packet) (hk : packet.kind ≠ .hello) :
    l.handle codec now addr datagram io =
      { l with sessions := l.sessions.post addr packet } := by
  simp [handle, decodePacket_received h, hk]

theorem handle_hello (h : packetOf datagram = some packet) (hk : packet.kind = .hello) :
    l.handle codec now addr datagram io = l.handleHello codec now addr packet io := by
  simp [handle, decodePacket_received h, hk]

/-- The message reports an error. -/
def IsError (message : Except AnyhowError AcceptedUdpSession) : Prop :=
  ∃ error, message = .error error

/-- The changes a step can make to the table, the inboxes and the channel. -/
inductive Change (codec : Codec) (l : Listener) : Event → Listener → Prop where
  /-- Nothing is pushed and no session opened.  Errors may be reported. -/
  | quiet {e : Event} {l' : Listener} (none : ∀ peer, e.routed peer = [])
      (sessions : l'.sessions = l.sessions)
      (incoming : ∃ more, l'.incoming = l.incoming ++ more ∧ ∀ m ∈ more, IsError m) :
      Change codec l e l'
  | push {now : Nat} {addr : SocketAddr} {datagram : Bytes} {io : SocketIo} {l' : Listener}
      (packet : Packet) (decoded : packetOf datagram = some packet) (kind : packet.kind ≠ .hello)
      (sessions : l'.sessions = l.sessions.post addr packet) (incoming : l'.incoming = l.incoming) :
      Change codec l (.received now addr datagram io) l'
  | opened {now : Nat} {addr : SocketAddr} {datagram : Bytes} {io : SocketIo} {l' : Listener}
      (hello : SessionHello) (parsed : helloOf codec datagram = some (.ok hello))
      (new : (isDuplicateHandshake l.recentHandshakes (hello.key addr) now).1 = false)
      (sessions : l'.sessions = l.sessions.register addr)
      (incoming : ∃ more, l'.incoming = l.incoming ++ more ∧
        ∀ m ∈ more, IsError m ∨ m = .ok ⟨addr, hello, l.sessions.boxes.length⟩) :
      Change codec l (.received now addr datagram io) l'

theorem send_error_incoming (l : Listener) (error : AnyhowError) :
    ∃ more, (l.send (.error error)).incoming = l.incoming ++ more ∧ ∀ m ∈ more, IsError m := by
  obtain ⟨more, h, hall⟩ := l.send_eq (.error error)
  exact ⟨more, by rw [h], fun m hm => ⟨error, hall m hm⟩⟩

/-- A `Hello` is pushed to no inbox. -/
theorem routed_hello (h : packetOf datagram = some packet) (hk : packet.kind = .hello)
    (peer : SocketAddr) : routed peer addr datagram = [] := by
  simp [routed, h, hk]

theorem helloOf_eq (h : packetOf datagram = some packet) (hk : packet.kind = .hello) :
    helloOf codec datagram = some (codec.parseHello packet.payload) := by
  simp [helloOf, h, hk]

/-- A new session has its inbox, and is reported, or an error is. -/
theorem openSession_eq (l : Listener) (addr : SocketAddr) (hello : SessionHello)
    (io : SocketIo) : ∃ more, l.openSession addr hello io =
        { l with sessions := l.sessions.register addr, incoming := l.incoming ++ more } ∧
      ∀ m ∈ more, IsError m ∨ m = .ok ⟨addr, hello, l.sessions.boxes.length⟩ := by
  have hfailed : ∀ error : IoError, ∃ more,
      ({ l with sessions := l.sessions.register addr } : Listener).send (.error (.io error))
        = { l with sessions := l.sessions.register addr, incoming := l.incoming ++ more } ∧
      ∀ m ∈ more, IsError m ∨ m = .ok ⟨addr, hello, l.sessions.boxes.length⟩ := by
    intro error
    obtain ⟨more, h, hall⟩ := send_eq { l with sessions := l.sessions.register addr }
      (.error (.io error))
    exact ⟨more, h, fun m hm => Or.inl ⟨.io error, hall m hm⟩⟩
  unfold openSession
  split
  next error _ => exact hfailed error
  next =>
    split
    next error _ => exact hfailed error
    next =>
      obtain ⟨more, h, hall⟩ := send_eq { l with sessions := l.sessions.register addr }
        (.ok ⟨addr, hello, l.sessions.boxes.length⟩)
      exact ⟨more, h, fun m hm => Or.inr (hall m hm)⟩

theorem handle_change : l.Change codec (.received now addr datagram io)
    (l.handle codec now addr datagram io).loopTest := by
  cases hp : packetOf datagram with
  | none =>
    rw [handle_control hp]
    exact .quiet (fun peer => by simp [Event.routed, routed, hp]) rfl ⟨[], by simp, by simp⟩
  | some packet =>
    by_cases hk : packet.kind = .hello
    · rw [handle_hello hp hk]
      have hnone : ∀ peer, (Event.received now addr datagram io).routed peer = [] :=
        fun peer => routed_hello hp hk peer
      unfold handleHello
      split
      next message hparse =>
        exact .quiet hnone (by simp) (by simpa using send_error_incoming l (.json message))
      next hello hparse =>
        dsimp only
        split
        next error _ =>
          exact .quiet hnone (by simp) (by
            rw [loopTest_incoming]
            exact send_error_incoming _ error)
        next =>
          split
          next => exact .quiet hnone rfl ⟨[], by simp, by simp⟩
          next hdup =>
            obtain ⟨more, h, hall⟩ := openSession_eq _ addr hello io
            rw [h]
            exact .opened hello (by rw [helloOf_eq hp hk, hparse]) (by simpa using hdup) rfl
              ⟨more, rfl, hall⟩
    · rw [handle_packet hp hk]
      exact .push packet hp hk rfl rfl

theorem step_change (h : l.step codec e = some l') : l.Change codec e l' := by
  cases e with
  | received now addr datagram io =>
    simp only [step] at h
    split at h
    next => cases h
    next =>
      cases h
      exact handle_change
  | failed error =>
    simp only [step] at h
    split at h
    next => cases h
    next =>
      split at h
      next =>
        cases h
        exact .quiet (fun _ => rfl) rfl ⟨[], by simp, by simp⟩
      next =>
        cases h
        exact .quiet (fun _ => rfl) (by simp) (send_error_incoming l _)
  | drop =>
    simp only [step] at h
    split at h
    next =>
      cases h
      exact .quiet (fun _ => rfl) rfl ⟨[], by simp, by simp⟩
    next => cases h

/-! ## While the socket works -/

theorem sendAckBurst_ok (addr : SocketAddr) (seq : UInt64) :
    (sendAckBurst .ok addr ⟨.helloAck, seq, []⟩).2 = .ok () := by
  simp [sendAckBurst, encodePacket, SocketIo.burst, SocketIo.ok]

/-- Only the drop of the listener clears the flag. -/
theorem handle_running : (l.handle codec now addr datagram io).running = l.running := by
  unfold handle
  split
  next => rfl
  next packet _ =>
    split
    next => rfl
    next =>
      unfold handleHello
      split
      next => simp
      next =>
        dsimp only
        split
        next => simp
        next =>
          split
          next => rfl
          next =>
            obtain ⟨more, h, -⟩ := openSession_eq _ addr _ io
            rw [h]

/-- Without a `Hello` nothing is reported. -/
theorem handle_notHello (l : Listener) (now : Nat) (addr : SocketAddr) (io : SocketIo)
    (h : helloOf codec datagram = none) :
    (l.handle codec now addr datagram io).recentHandshakes = l.recentHandshakes ∧
      (l.handle codec now addr datagram io).incoming = l.incoming := by
  cases hp : packetOf datagram with
  | none =>
    rw [handle_control hp]
    exact ⟨rfl, rfl⟩
  | some packet =>
    have hk : packet.kind ≠ .hello := by
      intro hk
      rw [helloOf_eq hp hk] at h
      cases h
    rw [handle_packet hp hk]
    exact ⟨rfl, rfl⟩

/-- The payload of a `Hello` comes from a packet. -/
theorem packetOf_of_helloOf {result : Except String SessionHello}
    (h : helloOf codec datagram = some result) :
    ∃ packet, packetOf datagram = some packet ∧ packet.kind = .hello ∧
      codec.parseHello packet.payload = result := by
  obtain ⟨packet, hp, hif⟩ := Option.bind_eq_some_iff.mp h
  obtain ⟨hk, hparse⟩ := Option.ite_none_right_eq_some.mp hif
  exact ⟨packet, hp, hk, Option.some.inj hparse⟩

/-- A `Hello` that does not parse is reported as an error. -/
theorem handle_malformed {message : String} (h : helloOf codec datagram = some (.error message))
    (running : l.running = true) :
    l.handle codec now addr datagram io =
      { l with incoming := l.incoming ++ [.error (.json message)] } := by
  obtain ⟨packet, hp, hk, hparse⟩ := packetOf_of_helloOf h
  rw [handle_hello hp hk]
  simp [handleHello, hparse, send, running]

/-- A `Hello` that parses opens a session unless it is a duplicate. -/
theorem handle_wellFormed (now : Nat) (addr : SocketAddr)
    (h : helloOf codec datagram = some (.ok hello)) (running : l.running = true) :
    (l.handle codec now addr datagram .ok).recentHandshakes =
        (isDuplicateHandshake l.recentHandshakes (hello.key addr) now).2 ∧
      (l.handle codec now addr datagram .ok).incoming = l.incoming ++
        if (isDuplicateHandshake l.recentHandshakes (hello.key addr) now).1 then []
        else [.ok ⟨addr, hello, l.sessions.boxes.length⟩] := by
  obtain ⟨packet, hp, hk, hparse⟩ := packetOf_of_helloOf h
  rw [handle_hello hp hk]
  simp only [handleHello, hparse, sendAckBurst_ok]
  split
  next => exact ⟨rfl, by simp⟩
  next => simp [openSession, SocketIo.ok, send, running]

/-! ## Isolation -/

/-- A `Hello` of `peer` is one that `is_duplicate_handshake` recognises. -/
def OnlyDuplicates (codec : Codec) (peer : SocketAddr) (l : Listener) : Event → Prop
  | .received now addr datagram _ =>
    ∀ hello ∈ (helloOf codec datagram).bind Except.toOption, addr = peer →
      (isDuplicateHandshake l.recentHandshakes (hello.key addr) now).1 = true
  | .failed _ | .drop => True

instance OnlyDuplicates.decidable (codec : Codec) (peer : SocketAddr) (l : Listener) :
    ∀ e, Decidable (OnlyDuplicates codec peer l e)
  | .received now addr datagram _ =>
    inferInstanceAs (Decidable (∀ hello ∈ (helloOf codec datagram).bind Except.toOption,
      addr = peer → (isDuplicateHandshake l.recentHandshakes (hello.key addr) now).1 = true))
  | .failed _ | .drop => .isTrue trivial

/-- One step: the inbox of the peer gets what is routed to it, and the peer gets
no other session. -/
theorem isolated_step {inbox : Nat} {packets : List Packet}
    (hold : l.sessions.Holds peer inbox packets) (dup : OnlyDuplicates codec peer l e)
    (h : l.step codec e = some l') :
    l'.sessions.Holds peer inbox (packets ++ e.routed peer) ∧
      ∃ more, l'.incoming = l.incoming ++ more ∧
        ∀ session, .ok session ∈ more → session.peerAddr ≠ peer ∧ session.inbox ≠ inbox := by
  cases step_change h with
  | quiet none sessions incoming =>
    rw [sessions, none peer, List.append_nil]
    obtain ⟨more, hmore, herr⟩ := incoming
    refine ⟨hold, more, hmore, ?_⟩
    intro session hs
    obtain ⟨error, herror⟩ := herr _ hs
    cases herror
  | @push now addr datagram io _ packet decoded kind sessions incoming =>
    rw [sessions]
    refine ⟨?_, [], by simp [incoming], by simp⟩
    by_cases ha : addr = peer
    · subst ha
      have hr : (Event.received now addr datagram io).routed addr = [packet] := by
        simp [Event.routed, routed, decoded, kind]
      rw [hr]
      exact hold.post packet
    · have hr : (Event.received now addr datagram io).routed peer = [] := by
        simp [Event.routed, routed, ha]
      rw [hr, List.append_nil]
      exact hold.post_ne ha packet
  | @opened now addr datagram io _ hello parsed new sessions incoming =>
    -- a session was opened, so the `Hello` was no duplicate and not the peer's
    have ha : addr ≠ peer := by
      intro ha
      have hdup := dup hello (by simp [parsed, Except.toOption]) ha
      rw [new] at hdup
      cases hdup
    have hr : (Event.received now addr datagram io).routed peer = [] := by
      simp [Event.routed, routed, ha]
    rw [sessions, hr, List.append_nil]
    obtain ⟨more, hmore, hall⟩ := incoming
    refine ⟨hold.register_ne ha, more, hmore, ?_⟩
    intro session hs
    rcases hall _ hs with ⟨error, herror⟩ | hok
    · cases herror
    · cases hok
      -- the new number is beyond that of every inbox in the table
      exact ⟨ha, (l.sessions.bounded peer inbox hold.lookup).ne'⟩

/-- A whole run. -/
theorem isolated_run {inbox : Nat} {packets : List Packet} (es : List Event)
    (hold : l.sessions.Holds peer inbox packets)
    (dup : Meets (step codec) (OnlyDuplicates codec peer) l es)
    (run : exec (step codec) l es = some l') :
    l'.sessions.Holds peer inbox (packets ++ es.flatMap (Event.routed peer)) ∧
      ∃ more, l'.incoming = l.incoming ++ more ∧
        ∀ session, .ok session ∈ more → session.peerAddr ≠ peer ∧ session.inbox ≠ inbox := by
  induction es generalizing l packets with
  | nil =>
    cases run
    exact ⟨by simpa using hold, [], by simp, by simp⟩
  | cons e es ih =>
    obtain ⟨l₁, h₁, hrest⟩ := exec_cons_eq_some.mp run
    obtain ⟨hold₁, more₁, hmore₁, hnone₁⟩ := isolated_step hold dup.1 h₁
    obtain ⟨hold', more, hmore, hnone⟩ := ih hold₁ (dup.2 l₁ h₁) hrest
    refine ⟨by simpa using hold', more₁ ++ more, by simp [hmore, hmore₁], ?_⟩
    intro session hs
    rcases List.mem_append.mp hs with hs | hs
    · exact hnone₁ session hs
    · exact hnone session hs

/-- A session that a step sends over the channel is new in the table. -/
theorem holds_of_accepted {inbox : Nat} (h : l.step codec e = some l')
    (accepted : l'.incoming = l.incoming ++ [.ok ⟨peer, hello, inbox⟩]) :
    l'.sessions.Holds peer inbox [] := by
  cases step_change h with
  | quiet _ _ incoming =>
    obtain ⟨more, hmore, herr⟩ := incoming
    rw [accepted, List.append_cancel_left_eq] at hmore
    obtain ⟨error, herror⟩ := herr (.ok ⟨peer, hello, inbox⟩) (by simp [← hmore])
    cases herror
  | push _ _ _ _ incoming => simp [accepted] at incoming
  | opened hello' _ _ sessions incoming =>
    obtain ⟨more, hmore, hall⟩ := incoming
    rw [accepted, List.append_cancel_left_eq] at hmore
    rcases hall (.ok ⟨peer, hello, inbox⟩) (by simp [← hmore]) with ⟨error, herror⟩ | hok
    · cases herror
    · cases hok
      rw [sessions]
      exact Mailboxes.holds_register l.sessions peer

/-- **Isolation.**  From the step that accepts a session on, as long as every
further `Hello` of its peer is a recognised duplicate, the table keeps its inbox,
the inbox has been pushed the packets of the peer other than `Hello`, in order,
and nothing else, and no other session is given to the peer. -/
theorem isolated {l₀ l₁ l : Listener} {e : Event} {es : List Event} {inbox : Nat}
    (first : l₀.step codec e = some l₁)
    (accepted : l₁.incoming = l₀.incoming ++ [.ok ⟨peer, hello, inbox⟩])
    (duplicates : Meets (step codec) (OnlyDuplicates codec peer) l₁ es)
    (run : exec (step codec) l₁ es = some l) :
    l.sessions.table.lookup peer = some inbox ∧
      l.sessions.boxes[inbox]? = some (es.flatMap (Event.routed peer)) ∧
      ∃ more, l.incoming = l₁.incoming ++ more ∧
        ∀ session, .ok session ∈ more → session.peerAddr ≠ peer ∧ session.inbox ≠ inbox := by
  obtain ⟨hold, hmore⟩ := isolated_run es (holds_of_accepted first accepted) duplicates run
  exact ⟨hold.lookup, hold.box, hmore⟩

/-! ### Two peers -/

/-- The JSON of a `Hello` for `svc_web` with this token. -/
def helloJson (token : String) : Bytes :=
  ("\x7b\"token\":\"" ++ token ++ "\",\"service_id\":\"svc_web\"\x7d").toUTF8.data.toList

/-- `serde_json` on the texts of the runs below: two `Hello`s and a punch. -/
def sampleCodec : Codec where
  parseHello payload :=
    if payload = [] then .error "EOF while parsing a value at line 1 column 0"
    else if payload = helloJson "a" then .ok ⟨"a", "svc_web", none⟩
    else if payload = helloJson "b" then .ok ⟨"b", "svc_web", none⟩
    else .error "expected value at line 1 column 1"
  parseMessage payload :=
    if payload = punchJson then .ok .punch else .error "expected value at line 1 column 1"
  toVec _ := punchJson
  parseAddr _ := .error "invalid socket address syntax"
  parseHello_nil := ⟨_, rfl⟩

/-- The packet arrives, and the socket calls made for it succeed. -/
def arrives (addr : SocketAddr) (packet : Packet) : Event :=
  .received 0 addr ((encodePacket packet).toOption.getD []) .ok

def sampleClient : SocketAddr := .v4 0x7f000001 40001

def otherClient : SocketAddr := .v4 0x7f000001 40002

/-- After the `Hello` of one client: its data, the handshake and the data of
another, a punch, the same `Hello` again, and more data. -/
def twoPeersRun : List Event :=
  [arrives sampleClient ⟨.data, 0, [1]⟩, arrives otherClient ⟨.hello, 0, helloJson "b"⟩,
    arrives otherClient ⟨.data, 0, [2]⟩, .received 0 sampleClient punchJson .ok,
    arrives sampleClient ⟨.hello, 0, helloJson "a"⟩, arrives sampleClient ⟨.data, 1, [3]⟩]

theorem isolated_twoPeers : ∃ l₁ l,
    init.step sampleCodec (arrives sampleClient ⟨.hello, 0, helloJson "a"⟩) = some l₁ ∧
      exec (step sampleCodec) l₁ twoPeersRun = some l ∧
      l.sessions.boxes[0]? = some [⟨.data, 0, [1]⟩, ⟨.data, 1, [3]⟩] := by
  obtain ⟨l₁, first, accepted, duplicates, hrun⟩ :
      ∃ l₁, init.step sampleCodec (arrives sampleClient ⟨.hello, 0, helloJson "a"⟩) = some l₁ ∧
        l₁.incoming = [.ok ⟨sampleClient, ⟨"a", "svc_web", none⟩, 0⟩] ∧
        Meets (step sampleCodec) (OnlyDuplicates sampleCodec sampleClient) l₁ twoPeersRun ∧
        (exec (step sampleCodec) l₁ twoPeersRun).isSome = true := by
    decide +kernel
  obtain ⟨l, run⟩ := Option.isSome_iff_exists.mp hrun
  have hbox := (isolated first accepted duplicates run).2.1
  exact ⟨l₁, l, first, run, hbox⟩

end Listener

end MediumOverlay
