import MediumOverlay.Netstack.Listeners

/-!
# TCP connections of the network stack

What a poll of the interface does to a TCP socket is the work of the segments that
arrive for it, and of one timer.  `TcpSocket.process` is the state machine of smoltcp for
a socket that was opened with `listen`.  The segments are those that pass its checks of
addresses and sequence numbers.  Where the received bytes meet the end of their ring is
chosen freely.

A connection begins with the segment that takes a socket out of `Listen`, and
`TcpSocket.connections` counts them.  A socket that has left `Listen` and `SynReceived`
behind does not come back without a call of `listen` (`Begun.receive`), so as long as it
is not opened again all its bytes are of one connection.
-/

namespace MediumOverlay.Netstack

/-- A segment for a socket, or its timer. -/
inductive Segment where
  | syn
  /-- `acked` bytes are acknowledged, and the FIN of the socket if `ofFin`. -/
  | ack (acked : Nat) (ofFin : Bool)
  /-- Bytes arrive.  Of all that are held then, at least `contiguous` lie before the end
  of their ring. -/
  | data (bytes : Bytes) (contiguous : Nat)
  | fin (ofFin : Bool)
  | rst
  /-- The time in `TimeWait` is over. -/
  | expire
deriving DecidableEq, Repr

namespace TcpSocket

/-- The socket processes a segment. -/
def process (socket : TcpSocket) : Segment → TcpSocket
  | .syn =>
    match socket.state with
    | .listen => { socket with state := .synReceived }
    | _ => socket
  | .ack acked ofFin =>
    let acknowledged := { socket with tx := socket.tx.drop acked }
    match socket.state with
    | .closed | .listen => socket
    | .synReceived => { socket with state := .established }
    | .finWait1 => if ofFin then { acknowledged with state := .finWait2 } else acknowledged
    | .closing => if ofFin then { acknowledged with state := .timeWait } else acknowledged
    | .lastAck => if ofFin then { acknowledged with state := .closed } else acknowledged
    | _ => acknowledged
  | .data bytes contiguous =>
    match socket.state with
    | .established | .finWait1 | .finWait2 =>
      let rx := socket.rx ++ bytes
      { socket with rx, contiguous := min rx.length (max 1 (max socket.contiguous contiguous)) }
    | _ => socket
  | .fin ofFin =>
    match socket.state with
    | .synReceived | .established => { socket with state := .closeWait }
    | .finWait1 => { socket with state := if ofFin then .timeWait else .closing }
    | .finWait2 => { socket with state := .timeWait }
    | _ => socket
  | .rst =>
    match socket.state with
    | .closed | .listen => socket
    | .synReceived => { socket with state := .listen }
    | _ => { socket with state := .closed }
  | .expire =>
    match socket.state with
    | .timeWait => { socket with state := .closed, rx := [], contiguous := 0, tx := [] }
    | _ => socket

/-- The segments of a poll, in order. -/
def receive (socket : TcpSocket) (segments : List Segment) : TcpSocket :=
  segments.foldl process socket

/-- The number of connections that begin. -/
def connections (socket : TcpSocket) : List Segment → Nat
  | [] => 0
  | segment :: segments =>
    (if socket.state = .listen ∧ segment = .syn then 1 else 0) +
      (socket.process segment).connections segments

/-- The socket has a connection, or bytes of one. -/
def hasConnection (socket : TcpSocket) : Bool := socket.isActive || !socket.rx.isEmpty

@[simp] theorem receive_nil (socket : TcpSocket) : socket.receive [] = socket := rfl

@[simp] theorem receive_cons (socket : TcpSocket) (segment : Segment) (segments : List Segment) :
    socket.receive (segment :: segments) = (socket.process segment).receive segments := rfl

variable {socket : TcpSocket}

/-! ## What segments cannot do -/

theorem process_evolves (socket : TcpSocket) (segment : Segment) :
    socket.Evolves (socket.process segment) := by
  constructor
  · intro hclosed
    cases segment <;> simp [process, hclosed]
  · intro _
    cases segment <;> simp only [process] <;> split <;> first | rfl | (split <;> rfl)

theorem receive_evolves (socket : TcpSocket) (segments : List Segment) :
    socket.Evolves (socket.receive segments) := by
  induction segments generalizing socket with
  | nil => exact .of_eq rfl rfl
  | cons segment segments ih => exact (socket.process_evolves segment).trans (ih _)

/-- No segment leads back before a connection, but for a reset of one that has only begun.
None of these brings bytes. -/
theorem process_early {segment : Segment}
    (h : (socket.process segment).state = .listen ∨
      (socket.process segment).state = .synReceived) :
    (socket.state = .listen ∨ socket.state = .synReceived) ∧
      (socket.process segment).rx = socket.rx := by
  cases segment <;> simp only [process] at h ⊢ <;> split at h <;> simp_all
  all_goals split at h <;> simp_all

/-- The socket is past the beginning of a connection. -/
def Begun (socket : TcpSocket) : Prop :=
  socket.state ≠ .listen ∧ socket.state ≠ .synReceived

theorem Begun.process (h : socket.Begun) (segment : Segment) : (socket.process segment).Begun := by
  have hnot : ¬ (socket.state = .listen ∨ socket.state = .synReceived) := not_or.mpr h
  exact not_or.mp fun hearly => hnot (process_early hearly).1

/-- A socket that is past the beginning of a connection stays with it. -/
theorem Begun.receive (h : socket.Begun) (segments : List Segment) :
    (socket.receive segments).Begun ∧ socket.connections segments = 0 := by
  induction segments generalizing socket with
  | nil => exact ⟨h, rfl⟩
  | cons segment segments ih =>
    obtain ⟨hbegun, hzero⟩ := ih (h.process segment)
    exact ⟨hbegun, by simp [connections, h.1, hzero]⟩

/-- Nothing is received before there is a connection. -/
def Clean (socket : TcpSocket) : Prop :=
  socket.state = .listen ∨ socket.state = .synReceived → socket.rx = []

instance (socket : TcpSocket) : Decidable socket.Clean := inferInstanceAs (Decidable (_ → _))

theorem Clean.process (h : socket.Clean) (segment : Segment) : (socket.process segment).Clean := by
  intro hearly
  obtain ⟨hbefore, hrx⟩ := process_early hearly
  exact hrx.trans (h hbefore)

theorem Clean.receive (h : socket.Clean) (segments : List Segment) :
    (socket.receive segments).Clean := by
  induction segments generalizing socket with
  | nil => exact h
  | cons segment segments ih => exact ih (h.process segment)

/-- A socket that listens is left alone by all segments but a SYN. -/
theorem process_listen (h : socket.state = .listen) {segment : Segment} (hsyn : segment ≠ .syn) :
    socket.process segment = socket := by
  cases segment <;> simp_all [process]

/-- A socket that listens gets a connection or stays as it is. -/
theorem receive_listen (h : socket.state = .listen) (segments : List Segment)
    (hzero : socket.connections segments = 0) : socket.receive segments = socket := by
  induction segments with
  | nil => rfl
  | cons segment segments ih =>
    have hsyn : segment ≠ .syn := by
      rintro rfl
      simp [connections, h] at hzero
    rw [receive_cons, process_listen h hsyn]
    refine ih ?_
    simpa [connections, hsyn, process_listen h hsyn] using hzero

theorem process_endpoint (socket : TcpSocket) (endpoint : Option (Ipv4Address × Nat))
    (segment : Segment) :
    TcpSocket.process { socket with endpoint } segment =
      { socket.process segment with endpoint } := by
  cases segment <;> simp only [process] <;> split <;> first | rfl | (split <;> rfl)

/-- The segments do not ask for the address. -/
theorem receive_endpoint (socket : TcpSocket) (endpoint : Option (Ipv4Address × Nat))
    (segments : List Segment) :
    TcpSocket.receive { socket with endpoint } segments =
      { socket.receive segments with endpoint } := by
  induction segments generalizing socket with
  | nil => rfl
  | cons segment segments ih => rw [receive_cons, receive_cons, process_endpoint, ih]

end TcpSocket

/-- After the segments a socket that listened has a connection, or bytes of one. -/
def connects (segments : List Segment) : Bool :=
  ((TcpSocket.listening none).receive segments).hasConnection

theorem hasConnection_listening (endpoint : Option (Ipv4Address × Nat)) (segments : List Segment) :
    ((TcpSocket.listening endpoint).receive segments).hasConnection = connects segments := by
  have h : (TcpSocket.listening endpoint).receive segments =
      { (TcpSocket.listening none).receive segments with endpoint } :=
    TcpSocket.receive_endpoint (TcpSocket.listening none) endpoint segments
  rw [h]
  rfl

/-- Then a connection has begun. -/
theorem connections_pos {segments : List Segment} (h : connects segments = true)
    (endpoint : Option (Ipv4Address × Nat)) :
    0 < (TcpSocket.listening endpoint).connections segments := by
  rw [Nat.pos_iff_ne_zero]
  intro hzero
  rw [← hasConnection_listening endpoint, TcpSocket.receive_listen rfl segments hzero] at h
  cases h

/-! ## Polls of the interface -/

/-- What happens in a poll of the interface: the segments for each socket, the packets
that leave the DNS socket and those that are written. -/
structure Segments where
  tcp : Nat → List Segment
  sent : Nat
  written : List Bytes

/-- Nothing happens. -/
def Segments.none : Segments := ⟨fun _ => [], 0, []⟩

/-- Only the socket of slot `i` gets segments. -/
def Segments.only (i : Nat) (segments : List Segment) : Segments :=
  ⟨fun j => if j = i then segments else [], 0, []⟩

def Segments.ifacePoll (segments : Segments) : IfacePoll where
  tcp i socket := socket.receive (segments.tcp i)
  evolves i socket := socket.receive_evolves (segments.tcp i)
  sent := segments.sent
  written := segments.written

end MediumOverlay.Netstack
