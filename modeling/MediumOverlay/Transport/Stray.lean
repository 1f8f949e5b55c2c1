import MediumOverlay.Transport.Clones
import MediumOverlay.Transport.Listener

/-!
# Stray datagrams

A stream that is used by one caller, call after call.  The caller's requests and
what arrives on the network are given, and the machine runs by itself: `tick` is
one step, and `Results` are the results that the calls return.

There are two receive paths.  On the client a call reads the socket: it skips
datagrams of other addresses and packets it does not want, and fails on a datagram
of the peer that is not a packet.  On the node a call reads the inbox, to which the
listener pushes what `Listener.routed` says and so nothing that is not a packet.

A stray datagram of the peer is one that is not a packet, such as the JSON of a
punch, or a data packet that does not open.  A `Peer` message makes the listener send a
burst of punches, and it sleeps between them: what comes next is pushed later, and a wait
may time out that would not have (`Stalls`).  `harmless_iff` says which strays the calls do
not notice: on the inbox path those that are neither packets nor such messages, and no
others.
-/

namespace MediumOverlay

open Trace

/-- How a stream receives. -/
inductive Path where
  | socket
  | inbox
deriving DecidableEq, Repr

inductive Request where
  | read (len : Nat)
  | write (bytes : Bytes)
deriving DecidableEq, Repr

def Request.event : Request → Event
  | .read len => .read len
  | .write bytes => .write bytes

/-- What a waiting call sees of the network. -/
inductive Arrival where
  | datagram (addr : SocketAddr) (bytes : Bytes)
  /-- Nothing comes until the timeout. -/
  | timeout
deriving DecidableEq, Repr

/-- A stream with the requests that are left and the results so far. -/
structure Caller where
  call : Call
  state : SessionState
  inbox : List Packet
  requests : List Request
  log : List Done

/-- The error a call returned. -/
def Done.error? : Done → Option IoError
  | .read _ (.error e) => some e
  | .write _ (.error e) => some e
  | _ => none

namespace Caller

def start (requests : List Request) : Caller := ⟨.idle, .init, [], requests, []⟩

section Ticks

variable (σ : Cipher) (d : Direction) (path : Path) (peer : SocketAddr)

def step (x : Caller) (e : Event) : Option Caller :=
  (x.call.step σ d x.state e).map fun n =>
    { x with call := n.call, state := n.state, log := x.log ++ n.done.toList }

/-- The error of a receive that timed out. -/
def timeoutError : Path → IoError
  | .socket => ⟨.wouldBlock, ""⟩
  | .inbox => .timedOut

/-- The call waits for the network: on the inbox path only if nothing in the
inbox matches. -/
def waiting? (x : Caller) : Option Op :=
  match x.call, path with
  | .recv op, .socket => some op
  | .recv op, .inbox => if (recvMatching op.wants x.inbox).isSome then none else some op
  | _, _ => none

/-- `recv_session_packet` and what comes next. -/
def consume (x : Caller) (op : Op) : Arrival → Option Caller
  | .timeout => x.step σ d (.recv (.error (timeoutError path)))
  | .datagram addr bytes =>
    match path with
    | .inbox => some { x with inbox := x.inbox ++ Listener.routed peer addr bytes }
    | .socket =>
      if addr = peer then
        match decodePacket (received bytes) with
        | .error message => x.step σ d (.recv (.error (.other message)))
        | .ok p => if op.wants p then x.step σ d (.recv (.ok p)) else some x
      else some x

/-- A step that needs nothing from the network.  Sends succeed. -/
def advance (x : Caller) : Option Caller :=
  match x.call with
  | .idle =>
    match x.requests with
    | [] => none
    | r :: rest => { x with requests := rest }.step σ d r.event
  | .recv op =>
    (recvMatching op.wants x.inbox).bind fun (p, rest) =>
      { x with inbox := rest }.step σ d (.recv (.ok p))
  | .handle _ _ | .drain _ | .commit _ => x.step σ d .lock
  | .ack _ _ | .send _ => x.step σ d (.send (.ok ()))

/-- One step of the caller and the network. -/
def tick : Caller × List Arrival → Option (Caller × List Arrival)
  | (x, arrivals) =>
    match x.waiting? path with
    | none => (x.advance σ d).map fun y => (y, arrivals)
    | some op =>
      match arrivals with
      | [] => none
      | a :: rest => (x.consume σ d path peer op a).map fun y => (y, rest)

/-- The results that the calls have returned at some point of the run. -/
def Results (requests : List Request) (arrivals : List Arrival) : Set (List Done) :=
  {log | ∃ n, (iterate (tick σ d path peer) n (start requests, arrivals)).1.log = log}

end Ticks

/-! ## Insertion -/

/-- The listener sleeps while it answers the datagram with punches. -/
def Stalls (codec : Codec) (path : Path) (bytes : Bytes) : Prop :=
  path = .inbox ∧ packetOf bytes = none ∧ peerNamed codec bytes ≠ none

/-- `arrivals'` is `arrivals` with datagrams of `S` from `peer` inserted.  Behind one that stalls
the listener, waits may expire before the next datagram is pushed. -/
inductive Inserted (codec : Codec) (path : Path) (peer : SocketAddr) (S : Set Bytes) :
    List Arrival → List Arrival → Prop where
  | nil : Inserted codec path peer S [] []
  | keep (a : Arrival) {as as' : List Arrival} :
      Inserted codec path peer S as as' → Inserted codec path peer S (a :: as) (a :: as')
  | stray {bytes : Bytes} (mem : bytes ∈ S) (expired : Nat)
      (stalls : 0 < expired → Stalls codec path bytes) {as as' : List Arrival} :
      Inserted codec path peer S as as' → Inserted codec path peer S as
        (.datagram peer bytes :: (List.replicate expired .timeout ++ as'))

theorem Inserted.refl (codec : Codec) (path : Path) (peer : SocketAddr) (S : Set Bytes) :
    ∀ as, Inserted codec path peer S as as
  | [] => .nil
  | a :: as => .keep a (Inserted.refl codec path peer S as)

/-- A datagram of the peer that is no packet, or a data packet that does not open. -/
def IsStray (σ : Cipher) (d : Direction) (bytes : Bytes) : Prop :=
  packetOf bytes = none ∨ ∃ p, packetOf bytes = some p ∧ p.kind = .data ∧
    σ.decrypt (nonceBytes d.peer p.seq) p.payload = none

/-- The result with the strays is the one without, or it is a timeout where the
other is an error too. -/
def Agrees (r r' : Done) : Prop :=
  r' = r ∨ (r.error?.isSome = true ∧ ∃ e, r'.error? = some e ∧ e.isTimeout = true)

/-- Every call returns the same `Ok` results with the strays of `S` inserted, and
no error but a timeout because of them. -/
def Harmless (codec : Codec) (σ : Cipher) (d : Direction) (path : Path) (peer : SocketAddr)
    (S : Set Bytes) : Prop :=
  ∀ requests as as', Inserted codec path peer S as as' →
    (∀ log ∈ Results σ d path peer requests as, ∃ log' ∈ Results σ d path peer requests as',
      List.Forall₂ Agrees log log') ∧
    ∀ log' ∈ Results σ d path peer requests as', ∃ log ∈ Results σ d path peer requests as,
      List.Forall₂ Agrees log log'

variable {codec : Codec} {σ : Cipher} {d : Direction} {path : Path} {peer : SocketAddr}
  {S : Set Bytes} {x y : Caller} {as as' bs bs' : List Arrival}

/-! ## What is dropped before the inbox -/

/-- The same caller, with strays of `S` still to come on one side. -/
def Beside (codec : Codec) (peer : SocketAddr) (S : Set Bytes) (c c' : Caller × List Arrival) :
    Prop :=
  c'.1 = c.1 ∧ Inserted codec .inbox peer S c.2 c'.2

/-- The listener drops the datagrams, and they do not stall it. -/
def Dropped (codec : Codec) (S : Set Bytes) : Prop :=
  ∀ b ∈ S, packetOf b = none ∧ peerNamed codec b = none

/-- No wait expires behind a datagram that does not stall the listener. -/
theorem Dropped.expired_eq_zero (h : Dropped codec S) {bytes : Bytes} (mem : bytes ∈ S)
    {expired : Nat} (stalls : 0 < expired → Stalls codec path bytes) : expired = 0 := by
  by_contra hne
  exact (stalls (Nat.pos_of_ne_zero hne)).2.2 (h bytes mem).2

/-- The listener drops what is no packet. -/
theorem consume_dropped (x : Caller) (op : Op) {bytes : Bytes} (h : packetOf bytes = none) :
    x.consume σ d .inbox peer op (.datagram peer bytes) = some x := by
  simp [consume, Listener.routed, h]

theorem tick_waiting {op : Op} (hw : x.waiting? path = some op) (a : Arrival) :
    tick σ d path peer (x, a :: as) = (x.consume σ d path peer op a).map fun y => (y, as) := by
  simp only [tick, hw]

theorem tick_advance (hw : x.waiting? path = none) :
    tick σ d path peer (x, as) = (x.advance σ d).map fun y => (y, as) := by
  simp only [tick, hw]

/-- A step without the strays is answered with them, behind those that come
first. -/
theorem tick_inserted (dropped : Dropped codec S)
    (h : Inserted codec .inbox peer S as as')
    (ht : tick σ d .inbox peer (x, as) = some (y, bs)) :
    ∃ k, Beside codec peer S (y, bs) (iterate (tick σ d .inbox peer) k (x, as')) := by
  cases hw : x.waiting? .inbox with
  | none =>
    rw [tick_advance hw] at ht
    obtain ⟨z, hz, heq⟩ := Option.map_eq_some_iff.mp ht
    cases heq
    have ht' : tick σ d .inbox peer (x, as') = some (y, as') := by
      rw [tick_advance hw, hz]
      rfl
    exact ⟨1, by rw [iterate_succ ht']; exact ⟨rfl, h⟩⟩
  | some op =>
    induction h with
    | nil => simp [tick, hw] at ht
    | keep a hrest _ =>
      rw [tick_waiting hw] at ht
      obtain ⟨z, hz, heq⟩ := Option.map_eq_some_iff.mp ht
      cases heq
      refine ⟨1, ?_⟩
      rw [iterate_succ (t := (y, _)) (by rw [tick_waiting hw, hz]; rfl)]
      exact ⟨rfl, hrest⟩
    | stray mem expired stalls hrest ih =>
      obtain ⟨k, hk⟩ := ih ht
      refine ⟨k + 1, ?_⟩
      rw [dropped.expired_eq_zero mem stalls, iterate_succ (t := (x, _))
        (by rw [tick_waiting hw, consume_dropped x op (dropped _ mem).1]; rfl)]
      exact hk

/-- A step with the strays is answered without them: a stray by no step. -/
theorem tick_deleted (dropped : Dropped codec S)
    (h : Inserted codec .inbox peer S as as')
    (ht : tick σ d .inbox peer (x, as') = some (y, bs')) :
    ∃ k, Beside codec peer S (iterate (tick σ d .inbox peer) k (x, as)) (y, bs') := by
  cases hw : x.waiting? .inbox with
  | none =>
    rw [tick_advance hw] at ht
    obtain ⟨z, hz, heq⟩ := Option.map_eq_some_iff.mp ht
    cases heq
    refine ⟨1, ?_⟩
    rw [iterate_succ (t := (y, as)) (by rw [tick_advance hw, hz]; rfl)]
    exact ⟨rfl, h⟩
  | some op =>
    cases h with
    | nil => simp [tick, hw] at ht
    | keep a hrest =>
      rw [tick_waiting hw] at ht
      obtain ⟨z, hz, heq⟩ := Option.map_eq_some_iff.mp ht
      cases heq
      refine ⟨1, ?_⟩
      rw [iterate_succ (t := (y, _)) (by rw [tick_waiting hw, hz]; rfl)]
      exact ⟨rfl, hrest⟩
    | stray mem expired stalls hrest =>
      rw [dropped.expired_eq_zero mem stalls, tick_waiting hw,
        consume_dropped x op (dropped _ mem).1] at ht
      cases ht
      exact ⟨0, rfl, hrest⟩

theorem forall₂_agrees_refl (log : List Done) : List.Forall₂ Agrees log log :=
  List.forall₂_same.mpr fun _ _ => Or.inl rfl

theorem harmless_of_dropped (dropped : Dropped codec S) : Harmless codec σ d .inbox peer S := by
  have hinsert : ∀ c c₁ c', Beside codec peer S c c' → tick σ d .inbox peer c = some c₁ →
      ∃ k, Beside codec peer S c₁ (iterate (tick σ d .inbox peer) k c') := by
    rintro ⟨x, as⟩ ⟨y, bs⟩ ⟨x', as'⟩ ⟨hx, hins⟩ ht
    cases hx
    exact tick_inserted dropped hins ht
  have hdelete : ∀ c' c₁ c, Beside codec peer S c c' → tick σ d .inbox peer c' = some c₁ →
      ∃ k, Beside codec peer S (iterate (tick σ d .inbox peer) k c) c₁ := by
    rintro ⟨x', as'⟩ ⟨y, bs⟩ ⟨x, as⟩ ⟨hx, hins⟩ ht
    cases hx
    exact tick_deleted dropped hins ht
  intro requests as as' h
  refine ⟨?_, ?_⟩
  · rintro log ⟨n, rfl⟩
    obtain ⟨k, hk, _⟩ := iterate_simulates hinsert n (start requests, as) (start requests, as')
      ⟨rfl, h⟩
    exact ⟨_, ⟨k, rfl⟩, by rw [hk]; exact forall₂_agrees_refl _⟩
  · rintro log ⟨n, rfl⟩
    obtain ⟨k, hk, _⟩ := iterate_simulates hdelete n (start requests, as') (start requests, as)
      ⟨rfl, h⟩
    exact ⟨_, ⟨k, rfl⟩, by rw [← hk]; exact forall₂_agrees_refl _⟩

/-! ## What a call notices -/

/-- A `read` to which nothing comes returns nothing but a timeout. -/
theorem results_timeout {log : List Done}
    (h : log ∈ Results σ d path peer [.read 1] [.timeout]) :
    ∀ r ∈ log, ∃ e, r.error? = some e ∧ e.isTimeout = true := by
  obtain ⟨n, rfl⟩ := h
  have h1 : tick σ d path peer (start [.read 1], [.timeout])
      = some (⟨.recv (.read 1), .init, [], [], []⟩, [.timeout]) := by
    cases path <;> rfl
  have h2 : tick σ d path peer (⟨.recv (.read 1), .init, [], [], []⟩, [.timeout])
      = some (⟨.idle, .init, [], [], [.read 1 (.error (timeoutError path))]⟩, []) := by
    cases path <;> rfl
  have h3 : tick σ d path peer
      (⟨.idle, .init, [], [], [.read 1 (.error (timeoutError path))]⟩, []) = none := by
    cases path <;> rfl
  match n with
  | 0 =>
    intro r hr
    cases hr
  | 1 =>
    rw [iterate_succ h1]
    intro r hr
    cases hr
  | n + 2 =>
    rw [iterate_succ h1, iterate_succ h2, iterate_of_none h3]
    intro r hr
    rw [List.mem_singleton.mp hr]
    exact ⟨_, rfl, by cases path <;> rfl⟩

/-- A stray that is not dropped before the inbox makes a waiting `read` fail. -/
theorem results_stray (peer : SocketAddr) {bytes : Bytes} (stray : IsStray σ d bytes)
    (noticed : ¬ (path = .inbox ∧ packetOf bytes = none)) :
    ∃ message, [.read 1 (.error (.other message))]
      ∈ Results σ d path peer [.read 1] [.datagram peer bytes, .timeout] := by
  have h1 : tick σ d path peer (start [.read 1], [.datagram peer bytes, .timeout])
      = some (⟨.recv (.read 1), .init, [], [], []⟩, [.datagram peer bytes, .timeout]) := by
    cases path <;> rfl
  rcases stray with hnone | ⟨p, hp, hk, hforged⟩
  · cases path with
    | inbox => exact absurd ⟨rfl, hnone⟩ noticed
    | socket =>
      cases hd : decodePacket (received bytes) with
      | ok p => simp [packetOf, hd, Except.toOption] at hnone
      | error message =>
        refine ⟨message, 2, ?_⟩
        have h2 : tick σ d .socket peer
            (⟨.recv (.read 1), .init, [], [], []⟩, [.datagram peer bytes, .timeout])
            = some (⟨.idle, .init, [], [], [.read 1 (.error (.other message))]⟩,
              [.timeout]) := by
          simp [tick, waiting?, consume, hd, step, Call.step, Op.receiveError]
        rw [iterate_succ h1, iterate_succ h2]
        rfl
  · refine ⟨"UDP session decrypt failed", ?_⟩
    have hd : decodePacket (received bytes) = .ok p := by
      cases hd : decodePacket (received bytes) with
      | ok q => simpa [packetOf, hd, Except.toOption] using hp
      | error message => simp [packetOf, hd, Except.toOption] at hp
    have hwants : Op.wants (.read 1) p = true := by simp [Op.wants, hk]
    have hlast : tick σ d path peer (⟨.handle (.read 1) p, .init, [], [], []⟩, [.timeout])
        = some (⟨.idle, .init, [], [], [.read 1 (.error (.other "UDP session decrypt failed"))]⟩,
          [.timeout]) := by
      cases path <;> simp [tick, waiting?, advance, step, Call.step, hforged, Op.fail]
    cases path with
    | socket =>
      refine ⟨3, ?_⟩
      have h2 : tick σ d .socket peer
          (⟨.recv (.read 1), .init, [], [], []⟩, [.datagram peer bytes, .timeout])
          = some (⟨.handle (.read 1) p, .init, [], [], []⟩, [.timeout]) := by
        simp [tick, waiting?, consume, hd, hwants, step, Call.step, Op.receive, hk]
      rw [iterate_succ h1, iterate_succ h2, iterate_succ hlast]
      rfl
    | inbox =>
      refine ⟨4, ?_⟩
      have h2 : tick σ d .inbox peer
          (⟨.recv (.read 1), .init, [], [], []⟩, [.datagram peer bytes, .timeout])
          = some (⟨.recv (.read 1), .init, [p], [], []⟩, [.timeout]) := by
        simp [tick, waiting?, recvMatching, consume, Listener.routed, hp, hk]
      have h3 : tick σ d .inbox peer (⟨.recv (.read 1), .init, [p], [], []⟩, [.timeout])
          = some (⟨.handle (.read 1) p, .init, [], [], []⟩, [.timeout]) := by
        simp [tick, waiting?, recvMatching, hwants, advance, step, Call.step, Op.receive, hk]
      rw [iterate_succ h1, iterate_succ h2, iterate_succ h3, iterate_succ hlast]
      rfl

/-- A stray that a call notices is not harmless. -/
theorem not_harmless_of_noticed {bytes : Bytes} (mem : bytes ∈ S) (stray : IsStray σ d bytes)
    (noticed : ¬ (path = .inbox ∧ packetOf bytes = none)) :
    ¬ Harmless codec σ d path peer S := by
  intro hharm
  obtain ⟨message, hlog'⟩ := results_stray peer stray noticed
  have hins : Inserted codec path peer S [.timeout] [.datagram peer bytes, .timeout] :=
    .stray mem 0 nofun (.refl codec path peer S _)
  obtain ⟨log, hlog, hagree⟩ := (hharm [.read 1] _ _ hins).2 _ hlog'
  obtain ⟨r, rest, hr, _, rfl⟩ := List.forall₂_cons_right_iff.mp hagree
  obtain ⟨e, he, htime⟩ := results_timeout hlog r List.mem_cons_self
  rcases hr with rfl | ⟨_, e', he', htime'⟩
  · cases he
    cases htime
  · cases he'
    cases htime'

/-- A `Close` packet. -/
def closeBytes : Bytes := MAGIC ++ [5, 0, 0, 0, 0, 0, 0, 0, 0, 0, 0]

/-- A `read` to which a `Close` comes returns `Ok(0)`. -/
theorem results_close {log : List Done}
    (h : log ∈ Results σ d .inbox peer [.read 1] [.datagram peer closeBytes]) :
    ∀ r ∈ log, r = .read 1 (.ok []) := by
  obtain ⟨n, rfl⟩ := h
  have hpacket : packetOf closeBytes = some ⟨.close, 0, []⟩ := by decide +kernel
  have h1 : tick σ d .inbox peer (start [.read 1], [.datagram peer closeBytes])
      = some (⟨.recv (.read 1), .init, [], [], []⟩, [.datagram peer closeBytes]) := rfl
  have h2 : tick σ d .inbox peer
      (⟨.recv (.read 1), .init, [], [], []⟩, [.datagram peer closeBytes])
      = some (⟨.recv (.read 1), .init, [⟨.close, 0, []⟩], [], []⟩, []) := by
    simp [tick, waiting?, recvMatching, consume, Listener.routed, hpacket]
  have h3 : tick σ d .inbox peer (⟨.recv (.read 1), .init, [⟨.close, 0, []⟩], [], []⟩, [])
      = some (⟨.idle, .init, [], [], [.read 1 (.ok [])]⟩, []) := rfl
  have h4 : tick σ d .inbox peer (⟨.idle, .init, [], [], [.read 1 (.ok [])]⟩, []) = none := rfl
  intro r hr
  obtain _ | _ | _ | n := n
  · cases hr
  · rw [iterate_succ h1] at hr
    cases hr
  · rw [iterate_succ h1, iterate_succ h2] at hr
    cases hr
  · rw [iterate_succ h1, iterate_succ h2, iterate_succ h3, iterate_of_none h4] at hr
    exact List.mem_singleton.mp hr

/-- A stray that stalls the listener is not harmless: the `Close` that would have come in time
comes too late. -/
theorem not_harmless_of_stalls {bytes : Bytes} (mem : bytes ∈ S)
    (stalls : Stalls codec .inbox bytes) : ¬ Harmless codec σ d .inbox peer S := by
  intro hharm
  have hins : Inserted codec .inbox peer S [.datagram peer closeBytes]
      [.datagram peer bytes, .timeout, .datagram peer closeBytes] :=
    .stray mem 1 (fun _ => stalls) (.refl codec .inbox peer S _)
  have hlog' : [.read 1 (.error .timedOut)] ∈ Results σ d .inbox peer [.read 1]
      [.datagram peer bytes, .timeout, .datagram peer closeBytes] := by
    have h1 : tick σ d .inbox peer (start [.read 1],
        [.datagram peer bytes, .timeout, .datagram peer closeBytes])
        = some (⟨.recv (.read 1), .init, [], [], []⟩,
          [.datagram peer bytes, .timeout, .datagram peer closeBytes]) := rfl
    have h2 : tick σ d .inbox peer (⟨.recv (.read 1), .init, [], [], []⟩,
        [.datagram peer bytes, .timeout, .datagram peer closeBytes])
        = some (⟨.recv (.read 1), .init, [], [], []⟩,
          [.timeout, .datagram peer closeBytes]) := by
      rw [tick_waiting rfl, consume_dropped _ _ stalls.2.1]
      rfl
    refine ⟨3, ?_⟩
    rw [iterate_succ h1, iterate_succ h2]
    rfl
  obtain ⟨log, hlog, hagree⟩ := (hharm [.read 1] _ _ hins).2 _ hlog'
  obtain ⟨r, rest, hr, _, rfl⟩ := List.forall₂_cons_right_iff.mp hagree
  rw [results_close hlog r List.mem_cons_self] at hr
  rcases hr with heq | ⟨herror, -⟩
  · cases heq
  · cases herror

/-- **Stray datagrams.**  For strays of any set, on either path, to be harmless it is necessary
and sufficient that the stream reads from an inbox and that none of them is a packet, or a `Peer`
message with an address. -/
theorem harmless_iff (strays : ∀ b ∈ S, IsStray σ d b) :
    Harmless codec σ d path peer S
      ↔ ∀ b ∈ S, path = .inbox ∧ packetOf b = none ∧ peerNamed codec b = none := by
  refine ⟨?_, ?_⟩
  · intro hharm b hb
    have hdropped : path = .inbox ∧ packetOf b = none := by
      by_contra hnot
      exact not_harmless_of_noticed hb (strays b hb) hnot hharm
    obtain ⟨rfl, hpacket⟩ := hdropped
    refine ⟨rfl, hpacket, ?_⟩
    by_contra hnamed
    exact not_harmless_of_stalls hb ⟨rfl, hpacket, hnamed⟩ hharm
  · intro hall
    cases path with
    | inbox => exact harmless_of_dropped fun b hb => (hall b hb).2
    | socket =>
      -- on the socket path the condition leaves no stray at all
      have hnone : ∀ b, b ∉ S := fun b hb => by cases (hall b hb).1
      have heq : ∀ as as', Inserted codec .socket peer S as as' → as' = as := by
        intro as as' h
        induction h with
        | nil => rfl
        | keep a _ ih => rw [ih]
        | stray mem _ _ _ _ => exact absurd mem (hnone _)
      intro requests as as' h
      rw [heq as as' h]
      exact ⟨fun log hl => ⟨log, hl, forall₂_agrees_refl log⟩,
        fun log hl => ⟨log, hl, forall₂_agrees_refl log⟩⟩

/-! ### A punch -/

def samplePeer : SocketAddr := .v4 0x7f000001 17001

theorem harmless_iff_punch :
    Harmless Listener.sampleCodec tagCipher .nodeToClient .inbox samplePeer {punchJson} := by
  have hnone : packetOf punchJson = none := by decide +kernel
  have hnamed : peerNamed Listener.sampleCodec punchJson = none := by decide +kernel
  refine (harmless_iff fun b hb => Or.inl ?_).mpr fun b hb => ?_
  · rw [Set.mem_singleton_iff.mp hb]
    exact hnone
  · rw [Set.mem_singleton_iff.mp hb]
    exact ⟨rfl, hnone, hnamed⟩

/-- The client waits for `abc`, and a punch comes first. -/
def punched (bytes : Bytes) : List Arrival :=
  [.datagram samplePeer bytes,
    .datagram samplePeer (MAGIC ++ [3, 0, 0, 0, 0, 0, 0, 0, 0, 0, 19, 97, 98, 99]
      ++ (nonceBytes .nodeToClient 0 ++ [0, 0, 0, 0]))]

theorem punch_fails_read :
    ([.read 16 (.ok [97, 98, 99])]
        ∈ Results tagCipher .clientToNode .socket samplePeer [.read 16] (punched punchJson).tail) ∧
      ([.read 16 (.error (.other "invalid UDP session packet"))]
        ∈ Results tagCipher .clientToNode .socket samplePeer [.read 16] (punched punchJson)) ∧
      ¬ Harmless Listener.sampleCodec tagCipher .clientToNode .socket samplePeer {punchJson} := by
  refine ⟨⟨5, by decide +kernel⟩, ⟨2, by decide +kernel⟩, ?_⟩
  exact not_harmless_of_noticed (Set.mem_singleton _) (Or.inl (by decide +kernel)) (by simp)

end Caller

end MediumOverlay
