import MediumOverlay.Transport.Sender

/-!
# Two ends of one session

A `Session` is a client stream and a node stream over a network that loses,
duplicates, reorders and delays packets and does not forge any.  The packets an
end has sent stay available for ever: receiving one does not use it up, and no
one has to receive it.  Every receive may also time out, and no socket call fails
in any other way.

The protocol is stop and wait.  `Linked` is what it keeps in one direction.  The
receiver is at the sender's number or one ahead of it, so nothing is ever held
back in `pending_packets`, and what it delivered is the sender's stream up to its
own number.  `Linked.sender` and `Linked.receiver` say what one step of either
end preserves.
-/

namespace MediumOverlay

open Trace

/-- With nothing held back, a packet that is not beyond `recv_seq` is dropped or
delivered, and nothing is held back afterwards. -/
theorem SessionState.handleData_inOrder {s t : SessionState} {seq : UInt64} {plaintext : Bytes}
    (empty : s.pendingPackets.size = 0) (hle : seq.toNat ≤ s.recvSeq.toNat)
    (h : s.handleData seq plaintext = some t) :
    (seq.toNat < s.recvSeq.toNat ∧ t = s) ∨
      (seq.toNat = s.recvSeq.toNat ∧ t.recvSeq.toNat = s.recvSeq.toNat + 1 ∧
        t.pendingRead = s.pendingRead ++ plaintext ∧ t.pendingPackets = s.pendingPackets) := by
  rcases handleData_cases h with hstale | ⟨hgt, -⟩ | ⟨rfl, u, hu, ht⟩
  · exact Or.inl hstale
  · omega
  · obtain ⟨hseq, hread, hpkts, _⟩ := deliver_eq_some hu
    rw [hpkts, empty] at ht
    cases ht
    exact Or.inr ⟨rfl, hseq, hread, hpkts⟩

/-- With nothing held back, a recorded packet is a delivered one. -/
theorem SessionState.Recorded.lt {s : SessionState} {seq : UInt64} (h : s.Recorded seq)
    (empty : s.pendingPackets.size = 0) : seq.toNat < s.recvSeq.toNat := by
  rcases h with h | h
  · exact UInt64.lt_iff_toNat_lt.mp h
  · have hnone := SessionState.buffer_eq_none_of_size empty seq.toNat
    rw [SessionState.buffer_toNat] at hnone
    have hsome := Std.TreeMap.isSome_getElem?_iff_mem.mpr h
    rw [hnone] at hsome
    cases hsome

/-! ## One direction -/

/-- Sender `S` and receiver `R` of the packets of direction `d`. -/
structure Linked (σ : Cipher) (d : Direction) (S R : Endpoint) : Prop where
  sealing : S.Sealing σ d
  sending : S.Sending σ d
  acking : R.Acking
  /-- Nothing is held back. -/
  empty : R.state.pendingPackets.size = 0
  /-- The receiver is at the sender's number or ahead of it. -/
  sender_le : S.state.sendSeq.toNat ≤ R.state.recvSeq.toNat
  /-- The receiver is not ahead of the sender's stream. -/
  le_stream : R.state.recvSeq.toNat ≤ S.stream.length
  /-- What was delivered is the sender's stream up to the receiver's number. -/
  delivered : returnedBytes R.log ++ R.state.pendingRead
    = (S.stream.take R.state.recvSeq.toNat).flatten
  /-- A data packet in the hands of the receiver was sent. -/
  handling : ∀ h op p, R.call h = .handle op p → p ∈ S.sent ∧ p.kind = .data
  /-- A `write` that was acknowledged was delivered. -/
  committing : ∀ w, S.writer = .commit w → S.state.sendSeq.toNat < R.state.recvSeq.toNat

namespace Linked

variable {σ : Cipher} {d : Direction} {S S' R R' : Endpoint} {h : Handle} {e : Event}

theorem init (σ : Cipher) (d : Direction) : Linked σ d Endpoint.init Endpoint.init := by
  refine ⟨.init, ?_, .init, rfl, le_refl _, Nat.zero_le _, rfl, ?_, ?_⟩
  · intro p hp
    cases hp
  · intro h op p hc
    cases h <;> cases hc
  · intro w hw
    cases hw

/-- An acknowledged `write` was delivered: the acknowledgement came from the
receiver, and it sends one only for a recorded packet. -/
theorem committing_sender (hL : Linked σ d S R) (hS : S'.Sealing σ d)
    (net : ∀ p, e = .recv (.ok p) → p ∈ R.sent) (hs : S.step σ d (h, e) = some S') :
    ∀ w, S'.writer = .commit w → S'.state.sendSeq.toNat < R.state.recvSeq.toNat := by
  intro w hw
  obtain ⟨n, rfl, hr⟩ := Endpoint.step_rule hs
  have hseq : w.seq = n.state.sendSeq := (hS.writing { w with attempt := 0 } (by rw [hw]; rfl)).1
  cases hr.sending with
  | quiet seq writing not_write read acked =>
    cases h with
    | reader =>
      show n.state.sendSeq.toNat < _
      rw [seq]
      exact hL.committing w hw
    | writer =>
      -- the acknowledgement that brought the writer here is of its own number
      obtain ⟨p, he, hk, hp⟩ := acked w hw
      have hrec := (hL.acking.sent p (net p he) hk).lt hL.empty
      rw [hp, hseq] at hrec
      exact hrec
  | start bytes ciphertext idle at_write sealed call seq done =>
    cases h with
    | reader =>
      subst at_write
      cases hs
    | writer =>
      rw [Endpoint.writer_after_writer, call] at hw
      cases hw
  | fail bytes error was call seq done =>
    cases h with
    | reader =>
      show n.state.sendSeq.toNat < _
      rw [seq]
      exact hL.committing w hw
    | writer =>
      rw [Endpoint.writer_after_writer, call] at hw
      cases hw
  | commit w' at_commit lock call seq done =>
    have hh := hL.sealing.writer_of_writing (h := h) (by rw [at_commit]; rfl)
    subst hh
    rw [Endpoint.writer_after_writer, call] at hw
    cases hw

/-- The sender moves its number on only for a delivered packet. -/
theorem sender_le_sender (hL : Linked σ d S R) (hs : S.step σ d (h, e) = some S') :
    S'.state.sendSeq.toNat ≤ R.state.recvSeq.toNat := by
  obtain ⟨n, rfl, hr⟩ := Endpoint.step_rule hs
  have hle := hL.sender_le
  cases hr.sending with
  | quiet seq _ _ _ _ => exact (congrArg UInt64.toNat seq).trans_le hle
  | start _ _ _ _ _ _ seq _ => exact (congrArg UInt64.toNat seq).trans_le hle
  | fail _ _ _ _ seq _ => exact (congrArg UInt64.toNat seq).trans_le hle
  | commit w at_commit lock call seq done =>
    have hh := hL.sealing.writer_of_writing (h := h) (by rw [at_commit]; rfl)
    subst hh
    have hlt := hL.committing w at_commit
    show n.state.sendSeq.toNat ≤ _
    omega

/-- A step of the sender. -/
theorem sender (correct : σ.Correct) (hL : Linked σ d S R) (same : S.RetriesSame e)
    (net : ∀ p, e = .recv (.ok p) → p ∈ R.sent) (hs : S.step σ d (h, e) = some S') :
    Linked σ d S' R := by
  have hS := hL.sealing.step correct hs
  have hpre := Endpoint.stream_isPrefix hL.sealing.toTracking same hs
  refine ⟨hS, hL.sending.step hL.sealing same hs, hL.acking, hL.empty, hL.sender_le_sender hs,
    hL.le_stream.trans hpre.length_le, ?_, ?_, hL.committing_sender hS net hs⟩
  · rw [hL.delivered]
    obtain ⟨more, hmore⟩ := hpre
    rw [← hmore, List.take_append_of_le_length hL.le_stream]
  · intro h' op p hc
    obtain ⟨hp, hk⟩ := hL.handling h' op p hc
    obtain ⟨n, rfl, _⟩ := Endpoint.step_rule hs
    exact ⟨List.mem_append_left _ hp, hk⟩

theorem handling_receiver (hL : Linked σ d S R) (net : ∀ p, e = .recv (.ok p) → p ∈ S.sent)
    (hs : R.step σ d.peer (h, e) = some R') :
    ∀ h' op p, R'.call h' = .handle op p → p ∈ S.sent ∧ p.kind = .data := by
  intro h' op p hc
  obtain ⟨n, rfl, hr⟩ := Endpoint.step_rule hs
  by_cases hne : h' = h
  · subst hne
    rw [Endpoint.call_after_self] at hc
    rw [hc] at hr
    obtain ⟨he, hk⟩ := hr.handling
    exact ⟨net p he, hk⟩
  · rw [Endpoint.call_after_ne R e n hne] at hc
    exact hL.handling h' op p hc

/-- A packet the receiver handles is the next of the stream, or one it had. -/
theorem seq_le (hL : Linked σ d S R) {op : Op} {q : Packet} (hc : R.call h = .handle op q) :
    q.seq.toNat ≤ R.state.recvSeq.toNat ∧
      ∃ b, σ.decrypt (nonceBytes d q.seq) q.payload = some b ∧
        S.stream[q.seq.toNat]? = some b := by
  obtain ⟨hq, hk⟩ := hL.handling h op q hc
  obtain ⟨b, hb, hi⟩ := hL.sending q hq hk
  have hlt := (List.getElem?_eq_some_iff.mp hi).1
  have hlen := hL.sealing.length_stream.2
  have hle := hL.sender_le
  exact ⟨by omega, b, hb, hi⟩

/-- A step of the receiver that delivers nothing new. -/
theorem of_receiver_eq (hL : Linked σ d S R) (acking : R'.Acking)
    (handling : ∀ h op p, R'.call h = .handle op p → p ∈ S.sent ∧ p.kind = .data)
    (seq : R'.state.recvSeq = R.state.recvSeq) (empty : R'.state.pendingPackets.size = 0)
    (out : returnedBytes R'.log ++ R'.state.pendingRead
      = returnedBytes R.log ++ R.state.pendingRead) : Linked σ d S R' :=
  ⟨hL.sealing, hL.sending, acking, empty, by rw [seq]; exact hL.sender_le,
    by rw [seq]; exact hL.le_stream, by rw [out, seq]; exact hL.delivered, handling,
    by rw [seq]; exact hL.committing⟩

/-- A step of the receiver. -/
theorem receiver (hL : Linked σ d S R) (net : ∀ p, e = .recv (.ok p) → p ∈ S.sent)
    (hs : R.step σ d.peer (h, e) = some R') : Linked σ d S R' := by
  have hack := hL.acking.step hs
  have hhand := hL.handling_receiver net hs
  obtain ⟨n, rfl, hr⟩ := Endpoint.step_rule hs
  rcases hr.receiving with ⟨len, hstate, hdone, _⟩ |
    ⟨op, q, plaintext, hc, _, hdone, hopen, hhandle⟩ | ⟨hseq, hread, hpkts, hbytes, _⟩
  · refine hL.of_receiver_eq hack hhand (by rw [Endpoint.after, hstate]) ?_ ?_
    · show n.state.pendingPackets.size = 0
      rw [hstate]
      exact hL.empty
    · show returnedBytes (R.log ++ n.done.toList) ++ n.state.pendingRead = _
      rw [hdone, hstate]
      simp [Done.bytes]
  · obtain ⟨hle, b, hb, hi⟩ := hL.seq_le hc
    rw [Direction.peer_peer, hb] at hopen
    cases hopen
    have hout : returnedBytes (R.after h e n).log = returnedBytes R.log := by
      show returnedBytes (R.log ++ n.done.toList) = _
      simp [hdone]
    rcases SessionState.handleData_inOrder hL.empty hle hhandle with
      ⟨_, hstate⟩ | ⟨heq, hseq, hread, hpkts⟩
    · -- a packet that was sent again
      have hst : (R.after h e n).state = R.state := hstate
      exact hL.of_receiver_eq hack hhand (by rw [hst]) (by rw [hst]; exact hL.empty)
        (by rw [hout, hst])
    · -- the next packet: its chunk is the one at `recv_seq` in the sender's stream
      have hlt := (List.getElem?_eq_some_iff.mp hi).1
      have hnext : (R.after h e n).state.recvSeq.toNat = R.state.recvSeq.toNat + 1 := hseq
      refine ⟨hL.sealing, hL.sending, hack, ?_, ?_, ?_, ?_, hhand, ?_⟩
      · show n.state.pendingPackets.size = 0
        rw [hpkts]
        exact hL.empty
      · have := hL.sender_le
        omega
      · omega
      · rw [hout, hnext, List.take_add_one, ← heq, hi]
        show returnedBytes R.log ++ n.state.pendingRead = _
        rw [hread, ← List.append_assoc, hL.delivered, heq]
        simp
      · intro w hw
        have := hL.committing w hw
        omega
  · refine hL.of_receiver_eq hack hhand hseq ?_ ?_
    · show n.state.pendingPackets.size = 0
      rw [hpkts]
      exact hL.empty
    · show returnedBytes (R.log ++ n.done.toList) ++ n.state.pendingRead = _
      rw [returnedBytes_append, hbytes, hread, List.append_nil]

end Linked

/-! ## The session -/

/-- The two ends. -/
structure Session where
  client : Endpoint
  node : Endpoint

namespace Session

def init : Session := ⟨.init, .init⟩

/-- The end that sends in direction `d`. -/
def side (x : Session) : Direction → Endpoint
  | .clientToNode => x.client
  | .nodeToClient => x.node

def put (x : Session) (d : Direction) (y : Endpoint) : Session :=
  match d with
  | .clientToNode => { x with client := y }
  | .nodeToClient => { x with node := y }

/-- The network hands over only what the other end has sent, or nothing in time. -/
def delivers (x : Session) (d : Direction) : Event → Bool
  | .recv (.ok p) => p ∈ (x.side d.peer).sent
  | .recv (.error e) => e.isTimeout
  | .send (.error _) => false
  | .send (.ok _) | .read _ | .write _ | .lock => true

/-- A step of one handle of one end. -/
def step (σ : Cipher) (x : Session) (ev : Direction × Handle × Event) : Option Session :=
  match ev with
  | (d, h, e) =>
    if x.delivers d e then ((x.side d).step σ d (h, e)).map (x.put d) else none

/-- A `write` that timed out is retried with the same chunk, or no other follows. -/
def RetriesSame (x : Session) : Direction × Handle × Event → Prop
  | (d, _, .write bytes) => ∀ chunk ∈ timedOut (x.side d).log, chunkOf bytes = chunk
  | _ => True

instance (x : Session) : ∀ ev, Decidable (x.RetriesSame ev)
  | (d, _, .write bytes) =>
    inferInstanceAs (Decidable (∀ chunk ∈ timedOut (x.side d).log, chunkOf bytes = chunk))
  | (_, _, .read _) | (_, _, .lock) | (_, _, .recv _) | (_, _, .send _) => .isTrue trivial

/-- What holds of both directions. -/
structure Reliable (σ : Cipher) (x : Session) : Prop where
  linked : ∀ d, Linked σ d (x.side d) (x.side d.peer)
  /-- No end sends `Close`. -/
  kinds : ∀ d, ∀ p ∈ (x.side d).sent, p.kind = .data ∨ p.kind = .ack
  /-- A `write` fails only by timing out. -/
  timeouts : ∀ d bytes error, .write bytes (.error error) ∈ (x.side d).log → error.isTimeout = true

@[simp] theorem side_put_self (x : Session) (d : Direction) (y : Endpoint) :
    (x.put d y).side d = y := by
  cases d <;> rfl

@[simp] theorem side_put_peer (x : Session) (d : Direction) (y : Endpoint) :
    (x.put d y).side d.peer = x.side d.peer := by
  cases d <;> rfl

variable {σ : Cipher} {x y : Session} {d : Direction} {h : Handle} {e : Event}

theorem delivers_of_step (hs : x.step σ (d, h, e) = some y) : x.delivers d e = true :=
  (Option.ite_none_right_eq_some.mp hs).1

theorem step_eq_some (hs : x.step σ (d, h, e) = some y) :
    ∃ z, (x.side d).step σ d (h, e) = some z ∧ y = x.put d z ∧
      ∀ p, e = .recv (.ok p) → p ∈ (x.side d.peer).sent := by
  have hnet := delivers_of_step hs
  obtain ⟨z, hz, hy⟩ := Option.map_eq_some_iff.mp (Option.ite_none_right_eq_some.mp hs).2
  refine ⟨z, hz, hy.symm, ?_⟩
  rintro p rfl
  simpa [delivers] using hnet

theorem Reliable.init (σ : Cipher) : Reliable σ Session.init := by
  refine ⟨?_, ?_, ?_⟩
  · intro d
    cases d <;> exact Linked.init σ _
  · intro d p hp
    cases d <;> cases hp
  · intro d bytes error hin
    cases d <;> cases hin

/-- A fact about one end that a step of it keeps is kept by a step of the session. -/
theorem forall_side_put {P : Endpoint → Prop} {z : Endpoint} (hx : ∀ d, P (x.side d)) (hz : P z) :
    ∀ d', P ((x.put d z).side d') := by
  intro d'
  rcases Direction.eq_or_eq_peer d d' with rfl | rfl
  · rw [side_put_self]
    exact hz
  · rw [side_put_peer]
    exact hx d.peer

/-- While writes fail only by timing out, the caller retries after every failure. -/
theorem Reliable.retriesSame (hx : Reliable σ x) (same : x.RetriesSame (d, h, e)) :
    (x.side d).RetriesSame e := by
  cases e with
  | write bytes =>
    intro chunk hchunk
    rw [← timedOut_eq_unfinished (hx.timeouts d)] at hchunk
    exact same chunk hchunk
  | read _ | lock | recv _ | send _ => trivial

/-- A `write` that fails in a step of the session has timed out. -/
theorem Reliable.timeout (seals : σ.SealsChunks) (hx : Reliable σ x) (hnet : x.delivers d e = true)
    {n : Next} {bytes : Bytes} {error : IoError}
    (hr : Call.Rule σ d (x.side d).state ((x.side d).call h) e n.call n.state
      (some (.write bytes (.error error)))) : error.isTimeout = true := by
  rcases hr.write_error with hseal | rfl | ⟨p, rfl, hk⟩ | ⟨op, p, hc, hforged⟩ | ⟨e', rfl⟩
  · exact absurd hseal (seals _ _ (by simp [chunkOf]))
  · exact hnet
  · -- the peer sent the packet, and it does not send `Close`
    have hp : p ∈ (x.side d.peer).sent := by simpa [delivers] using hnet
    rcases hx.kinds d.peer p hp with hd | ha
    · rw [hk] at hd
      cases hd
    · rw [hk] at ha
      cases ha
  · -- the packet in hand is one of the peer's data packets, and those open
    have hL := hx.linked d.peer
    rw [Direction.peer_peer] at hL
    obtain ⟨hp, hk⟩ := hL.handling h op p hc
    obtain ⟨b, hb⟩ := hL.sealing.authentic p hp hk
    rw [hb] at hforged
    cases hforged
  · cases hnet

/-- A step of one end is a sender's step in its own direction and a receiver's
in the other. -/
theorem Reliable.linked_step (correct : σ.Correct) (hx : Reliable σ x)
    (same : x.RetriesSame (d, h, e)) (hs : x.step σ (d, h, e) = some y) :
    ∀ d', Linked σ d' (y.side d') (y.side d'.peer) := by
  obtain ⟨z, hz, rfl, hnet⟩ := step_eq_some hs
  intro d'
  rcases Direction.eq_or_eq_peer d d' with rfl | rfl
  · rw [side_put_self, side_put_peer]
    exact (hx.linked d').sender correct (hx.retriesSame same) hnet hz
  · have hL := hx.linked d.peer
    rw [Direction.peer_peer] at hL ⊢
    rw [side_put_self, side_put_peer]
    refine hL.receiver (h := h) hnet ?_
    rw [Direction.peer_peer]
    exact hz

theorem Reliable.step (correct : σ.Correct) (seals : σ.SealsChunks) (hx : Reliable σ x)
    (same : x.RetriesSame (d, h, e)) (hs : x.step σ (d, h, e) = some y) : Reliable σ y := by
  have hlinked := hx.linked_step correct same hs
  have hnet := delivers_of_step hs
  obtain ⟨z, hz, rfl, _⟩ := step_eq_some hs
  refine ⟨hlinked, ?_, ?_⟩
  · exact forall_side_put (P := fun x => ∀ p ∈ x.sent, p.kind = .data ∨ p.kind = .ack) hx.kinds
      (Endpoint.sent_kind_step (hx.kinds d) hz)
  · refine forall_side_put (P := fun x => ∀ bytes error, .write bytes (.error error) ∈ x.log →
      error.isTimeout = true) hx.timeouts ?_
    obtain ⟨n, rfl, hr⟩ := Endpoint.step_rule hz
    intro bytes error hin
    rcases List.mem_append.mp hin with hin | hin
    · exact hx.timeouts d bytes error hin
    · rw [Option.mem_toList.mp hin] at hr
      exact hx.timeout seals hnet hr

theorem reliable (correct : σ.Correct) (seals : σ.SealsChunks)
    {es : List (Direction × Handle × Event)} (same : Meets (Session.step σ) RetriesSame init es)
    (run : exec (Session.step σ) init es = some x) : Reliable σ x := by
  refine exec_invariant ?_ es _ _ (Reliable.init σ) same run
  rintro s ⟨d, h, e⟩ t hI hok hs
  exact hI.step correct seals hok hs

end Session

/-! ## Delivery -/

/-- The bytes of the packets that are held back, in sequence order. -/
def SessionState.held (s : SessionState) : Bytes := s.pendingPackets.toList.flatMap Prod.snd

/-- The peer's bytes at this end: read, waiting to be read, held back. -/
def Endpoint.arrived (x : Endpoint) : Bytes :=
  returnedBytes x.log ++ x.state.pendingRead ++ x.state.held

theorem SessionState.held_eq_nil {s : SessionState} (empty : s.pendingPackets.size = 0) :
    s.held = [] := by
  have hlen : s.pendingPackets.toList.length = 0 := by
    rw [Std.TreeMap.length_toList, empty]
  rw [held, List.length_eq_zero_iff.mp hlen, List.flatMap_nil]

/-- An unfinished chunk is the chunk of a `write` that failed. -/
theorem exists_of_unfinished {log : List Done} {chunk : Bytes} (h : unfinished log = some chunk) :
    ∃ bytes e, Done.write bytes (.error e) ∈ log ∧ chunk = chunkOf bytes := by
  induction log using List.reverseRecOn with
  | nil => cases h
  | append_singleton log r ih =>
    cases r with
    | read len q =>
      rw [unfinished_concat_read] at h
      obtain ⟨bytes, e, hin, hc⟩ := ih h
      exact ⟨bytes, e, List.mem_append_left _ hin, hc⟩
    | write bytes q =>
      cases q with
      | ok n =>
        rw [unfinished_concat_ok] at h
        cases h
      | error e =>
        rw [unfinished_concat_error] at h
        cases h
        exact ⟨bytes, e, by simp, rfl⟩

theorem Endpoint.Tracking.openChunk_offered {x : Endpoint} (hx : x.Tracking) {chunk : Bytes}
    (h : x.openChunk = some chunk) : ∃ bytes ∈ x.offered, chunk = chunkOf bytes := by
  cases hw : x.writer.writing? with
  | some w =>
    rw [openChunk_of_writing hw] at h
    cases h
    exact ⟨w.bytes, (hx.writing w hw).2, rfl⟩
  | none =>
    rw [openChunk_of_idle hw] at h
    obtain ⟨bytes, e, hin, hc⟩ := exists_of_unfinished h
    exact ⟨bytes, (hx.offered bytes _ hin).1, hc⟩

/-- What arrived is what the writes reported, and perhaps the chunk of the one
`write` that has not returned `Ok`. -/
theorem Linked.arrived {σ : Cipher} {d : Direction} {S R : Endpoint} (hL : Linked σ d S R) :
    ∃ rest, R.arrived = (acceptedChunks S.log).flatten ++ rest ∧
      (rest = [] ∨ S.openChunk = some rest) := by
  have hcount := hL.sealing.count
  have hle := hL.sender_le
  rw [Endpoint.arrived, SessionState.held_eq_nil hL.empty, List.append_nil, hL.delivered,
    Endpoint.stream, List.take_append, List.take_of_length_le (by omega), List.flatten_append]
  refine ⟨_, rfl, ?_⟩
  cases hopen : S.openChunk with
  | none => simp
  | some chunk =>
    cases R.state.recvSeq.toNat - (acceptedChunks S.log).length with
    | zero => simp
    | succ k => simp

namespace Session

variable {σ : Cipher} {x : Session}

/-- **Delivery.**  In every run of the two ends, a `write` that returned `Ok`
reported the first `min len 1100` bytes it was offered.  Those bytes have arrived
at the peer, once and in the order of the writes, and besides them at most the
chunk of one `write` that has not returned `Ok` yet.  An end that is about to
acknowledge a packet, or has done so, has recorded it. -/
theorem delivery (correct : σ.Correct) (seals : σ.SealsChunks)
    (es : List (Direction × Handle × Event)) (same : Meets (Session.step σ) RetriesSame init es)
    (run : exec (Session.step σ) init es = some x) (d : Direction) :
    (∀ bytes n, .write bytes (.ok n) ∈ (x.side d).log →
        bytes ∈ (x.side d).offered ∧ n = min bytes.length MAX_PAYLOAD_LEN) ∧
      (∃ rest, (x.side d.peer).arrived = (acceptedChunks (x.side d).log).flatten ++ rest ∧
        (rest = [] ∨ (x.side d).openChunk = some rest ∧
          ∃ bytes ∈ (x.side d).offered, rest = chunkOf bytes)) ∧
      (∀ h op seq, (x.side d).call h = .ack op seq → (x.side d).state.Recorded seq) ∧
      ∀ p ∈ (x.side d).sent, p.kind = .ack → (x.side d).state.Recorded p.seq := by
  have hx := reliable correct seals same run
  have hL := hx.linked d
  have hA : (x.side d).Acking := by
    have hpeer := (hx.linked d.peer).acking
    rwa [Direction.peer_peer] at hpeer
  refine ⟨?_, ?_, hA.pending, hA.sent⟩
  · intro bytes n hin
    obtain ⟨hoff, hlen⟩ := hL.sealing.offered bytes _ hin
    exact ⟨hoff, hlen n rfl⟩
  · obtain ⟨rest, harr, hrest⟩ := hL.arrived
    refine ⟨rest, harr, hrest.imp_right ?_⟩
    intro hopen
    exact ⟨hopen, hL.sealing.openChunk_offered hopen⟩

/-- Steps of one end. -/
def onSide (d : Direction) (es : List (Handle × Event)) : List (Direction × Handle × Event) :=
  es.map (Prod.mk d)

/-- The client's packet is read by the node, the acknowledgement is lost, the
client sends the packet again and the second acknowledgement arrives. -/
def lostAckRun : List (Direction × Handle × Event) :=
  onSide .clientToNode [(.writer, .write [97, 98, 99]), (.writer, .send (.ok ()))]
    ++ onSide .nodeToClient (readOne 8 (boxed .clientToNode 0 [97, 98, 99]))
    ++ onSide .clientToNode
      [(.writer, .recv (.error ⟨.timedOut, ""⟩)), (.writer, .send (.ok ()))]
    ++ onSide .nodeToClient (readOne 8 (boxed .clientToNode 0 [97, 98, 99]))
    ++ onSide .clientToNode [(.writer, .recv (.ok ⟨.ack, 0, []⟩)), (.writer, .lock)]

theorem delivery_lostAck :
    (exec (Session.step tagCipher) init lostAckRun).map
        (fun x => (acceptedChunks x.client.log, returnedBytes x.node.log))
      = some ([[97, 98, 99]], [97, 98, 99]) ∧
    ∃ x, exec (Session.step tagCipher) init lostAckRun = some x ∧
      ∃ rest, x.node.arrived = (acceptedChunks x.client.log).flatten ++ rest := by
  have hrun : (exec (Session.step tagCipher) init lostAckRun).isSome := by decide +kernel
  obtain ⟨x, hx⟩ := Option.isSome_iff_exists.mp hrun
  have same : Meets (Session.step tagCipher) RetriesSame init lostAckRun := by decide +kernel
  obtain ⟨_, ⟨rest, harr, _⟩, _⟩ :=
    delivery tagCipher_correct tagCipher_sealsChunks lostAckRun same hx .clientToNode
  exact ⟨by decide +kernel, x, hx, rest, harr⟩

/-- **Lockstep.**  In every run of the two ends the receiver of a direction is at the number of
its sender, or one ahead while a chunk is open.  It never holds a packet back. -/
theorem lockstep (correct : σ.Correct) (seals : σ.SealsChunks)
    (es : List (Direction × Handle × Event)) (same : Meets (Session.step σ) RetriesSame init es)
    (run : exec (Session.step σ) init es = some x) (d : Direction) :
    (x.side d).state.sendSeq.toNat ≤ (x.side d.peer).state.recvSeq.toNat ∧
      (x.side d.peer).state.recvSeq.toNat
        ≤ (x.side d).state.sendSeq.toNat + (x.side d).openChunk.toList.length ∧
      (x.side d.peer).state.pendingPackets.size = 0 := by
  have hL := (reliable correct seals same run).linked d
  refine ⟨hL.sender_le, ?_, hL.empty⟩
  have hstream := hL.le_stream
  rw [Endpoint.stream, List.length_append] at hstream
  have hcount := hL.sealing.count
  omega

/-- The node is one ahead until the second acknowledgement arrives. -/
theorem lockstep_lostAck :
    (exec (Session.step tagCipher) init (lostAckRun.take 14)).map
        (fun x => (x.client.state.sendSeq, x.node.state.recvSeq)) = some (0, 1) ∧
    (exec (Session.step tagCipher) init lostAckRun).map
        (fun x => (x.client.state.sendSeq, x.node.state.recvSeq)) = some (1, 1) ∧
    ∃ x, exec (Session.step tagCipher) init lostAckRun = some x ∧
      x.client.state.sendSeq.toNat ≤ x.node.state.recvSeq.toNat ∧
      x.node.state.recvSeq.toNat
        ≤ x.client.state.sendSeq.toNat + x.client.openChunk.toList.length ∧
      x.node.state.pendingPackets.size = 0 := by
  have hrun : (exec (Session.step tagCipher) init lostAckRun).isSome := by decide +kernel
  obtain ⟨x, hx⟩ := Option.isSome_iff_exists.mp hrun
  have same : Meets (Session.step tagCipher) RetriesSame init lostAckRun := by decide +kernel
  exact ⟨by decide +kernel, by decide +kernel, x, hx,
    lockstep tagCipher_correct tagCipher_sealsChunks lostAckRun same hx .clientToNode⟩

end Session

end MediumOverlay
