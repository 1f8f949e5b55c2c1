import MediumOverlay.Lib.Trace
import MediumOverlay.Transport.Call

/-!
# A stream with its handles

An `Endpoint` is one end of a session.  Its two handles are the clones that the
bridge and the apps use: one that reads, and one that writes and may read too.
They share the session state.  The other fields are history: the arguments of
the writes, the results the calls returned, the authentic data packets that were
handled, and the packets that were sent.

The environment is arbitrary here.  Any packet may be received at any time, so
what is proved holds whatever the network does.

* `Endpoint.receiving`: what was read and what waits to be read is the peer's
  stream up to the first packet not handled yet.
* `Endpoint.Acking.step`: a packet is acknowledged only after it was recorded.
-/

namespace MediumOverlay

open Reassembly Trace

/-- The handles of a stream. -/
inductive Handle where
  | reader
  | writer
deriving DecidableEq, Repr

structure Endpoint where
  state : SessionState
  reader : Call
  writer : Call
  offered : List Bytes
  log : List Done
  handled : List Packet
  sent : List Packet

/-- The bytes a finished call handed to its caller. -/
def Done.bytes : Done → Bytes
  | .read _ (.ok bytes) => bytes
  | _ => []

/-- Everything the reads returned so far. -/
def returnedBytes (log : List Done) : Bytes := log.flatMap Done.bytes

@[simp] theorem returnedBytes_append (log log' : List Done) :
    returnedBytes (log ++ log') = returnedBytes log ++ returnedBytes log' := by
  simp [returnedBytes]

@[simp] theorem returnedBytes_single (r : Done) : returnedBytes [r] = r.bytes := by
  simp [returnedBytes]

/-- The packet that a step of `handle_data_packet` recorded. -/
def handledBy : Call → Call → List Packet
  | .handle _ p, .ack _ _ => [p]
  | _, _ => []

/-- The bytes that a step offers to `write`. -/
def offeredBy : Event → List Bytes
  | .write bytes => [bytes]
  | _ => []

/-- The packet that a step sent. -/
def sentBy (c : Call) : Event → List Packet
  | .send (.ok _) => c.outgoing.toList
  | _ => []

namespace Endpoint

def init : Endpoint := ⟨.init, .idle, .idle, [], [], [], []⟩

def call (x : Endpoint) : Handle → Call
  | .reader => x.reader
  | .writer => x.writer

/-- The endpoint after handle `h` took a step with outcome `n`. -/
def after (x : Endpoint) (h : Handle) (e : Event) (n : Next) : Endpoint where
  state := n.state
  reader := if h = .reader then n.call else x.reader
  writer := if h = .writer then n.call else x.writer
  offered := x.offered ++ offeredBy e
  log := x.log ++ n.done.toList
  handled := x.handled ++ handledBy (x.call h) n.call
  sent := x.sent ++ sentBy (x.call h) e

/-- A step of one handle.  Only the writer writes. -/
def step (σ : Cipher) (d : Direction) (x : Endpoint) (he : Handle × Event) : Option Endpoint :=
  match he with
  | (.reader, .write _) => none
  | (h, e) => ((x.call h).step σ d x.state e).map (x.after h e)

/-- What the call that a step finished returned. -/
def result (x y : Endpoint) : Option Done := y.log[x.log.length]?

/-- The sequence numbers whose authentic packet has been handled. -/
def processed (x : Endpoint) : Set ℕ := {i | ∃ p ∈ x.handled, p.seq.toNat = i}

theorem result_eq {x y : Endpoint} {r : Option Done} (h : y.log = x.log ++ r.toList) :
    x.result y = r := by
  rw [result, h]
  cases r <;> simp

theorem call_after_self (x : Endpoint) (h : Handle) (e : Event) (n : Next) :
    (x.after h e n).call h = n.call := by
  cases h <;> rfl

theorem call_after_ne (x : Endpoint) {h h' : Handle} (e : Event) (n : Next) (hne : h' ≠ h) :
    (x.after h e n).call h' = x.call h' := by
  cases h <;> cases h' <;> first | exact absurd rfl hne | rfl

/-- Every step of an endpoint is a rule of one of its calls. -/
theorem step_rule {σ : Cipher} {d : Direction} {x y : Endpoint} {h : Handle} {e : Event}
    (hs : x.step σ d (h, e) = some y) :
    ∃ n : Next, y = x.after h e n ∧
      Call.Rule σ d x.state (x.call h) e n.call n.state n.done := by
  unfold step at hs
  split at hs
  · cases hs
  next h e heq =>
    cases heq
    obtain ⟨n, hn, hy⟩ := Option.map_eq_some_iff.mp hs
    exact ⟨n, hy.symm, Call.step_rule hn⟩

end Endpoint

/-! ## What a step does to the receiving half -/

variable {σ : Cipher} {d : Direction} {c : Call} {e : Event}

/-- A step hands waiting bytes to a reader, records a packet, or leaves the
receiving half of the state alone. -/
theorem Call.Rule.receiving {s t : SessionState} {c' : Call} {r : Option Done}
    (h : Call.Rule σ d s c e c' t r) :
    (∃ len, t = { s with pendingRead := s.pendingRead.drop len } ∧
        r = some (.read len (.ok (s.pendingRead.take len))) ∧ handledBy c c' = []) ∨
    (∃ op p plaintext, c = .handle op p ∧ c' = .ack op p.seq ∧ r = none ∧
        σ.decrypt (nonceBytes d.peer p.seq) p.payload = some plaintext ∧
        s.handleData p.seq plaintext = some t) ∨
    (t.recvSeq = s.recvSeq ∧ t.pendingRead = s.pendingRead ∧
        t.pendingPackets = s.pendingPackets ∧ returnedBytes r.toList = [] ∧
        handledBy c c' = []) := by
  cases h with
  | fill len at_read _ =>
    refine Or.inl ⟨len, rfl, rfl, ?_⟩
    rcases at_read with ⟨rfl, _⟩ | ⟨rfl, _⟩ <;> rfl
  | wait len at_read _ =>
    refine Or.inr (Or.inr ⟨rfl, rfl, rfl, rfl, ?_⟩)
    rcases at_read with ⟨rfl, _⟩ | ⟨rfl, _⟩ <;> rfl
  | record op p plaintext t opened handled =>
    exact Or.inr (Or.inl ⟨op, p, plaintext, rfl, rfl, rfl, opened, handled⟩)
  | recvFail op e => cases op <;> exact Or.inr (Or.inr ⟨rfl, rfl, rfl, rfl, rfl⟩)
  | reject op p forged => cases op <;> exact Or.inr (Or.inr ⟨rfl, rfl, rfl, rfl, rfl⟩)
  | ackSent op seq => cases op <;> exact Or.inr (Or.inr ⟨rfl, rfl, rfl, rfl, rfl⟩)
  | ackFail op seq e => cases op <;> exact Or.inr (Or.inr ⟨rfl, rfl, rfl, rfl, rfl⟩)
  | _ => exact Or.inr (Or.inr ⟨rfl, rfl, rfl, rfl, rfl⟩)

/-! ## Reassembly -/

/-- The peer sealed `plaintext` under this nonce.  It sends in direction `d` and
seals one plaintext `p i` for every sequence number `i < 2 ^ 64 - 1`. -/
def PeerSealed (σ : Cipher) (d : Direction) (p : ℕ → Bytes) (nonce ciphertext plaintext : Bytes) :
    Prop :=
  ∃ i : UInt64, i.toNat < 2 ^ 64 - 1 ∧ nonce = nonceBytes d i ∧ plaintext = p i.toNat ∧
    σ.encrypt nonce plaintext = some ciphertext

/-- Ideal AEAD: decryption under a nonce of the peer succeeds only on what the
peer sealed under that nonce. -/
def IdealAead (σ : Cipher) (d : Direction) (p : ℕ → Bytes) : Prop :=
  ∀ seq ciphertext plaintext, σ.decrypt (nonceBytes d seq) ciphertext = some plaintext →
    PeerSealed σ d p (nonceBytes d seq) ciphertext plaintext

/-- What an accepted packet decrypts to is the plaintext of its own number. -/
theorem IdealAead.plaintext_eq {p : ℕ → Bytes} (ideal : IdealAead σ d p) {seq : UInt64}
    {ciphertext plaintext : Bytes} (h : σ.decrypt (nonceBytes d seq) ciphertext = some plaintext) :
    plaintext = p seq.toNat ∧ seq.toNat < 2 ^ 64 - 1 := by
  obtain ⟨i, hi, hnonce, hp, _⟩ := ideal seq ciphertext plaintext h
  obtain ⟨_, hseq⟩ := nonceBytes_inj hnonce
  subst hseq
  exact ⟨hp, hi⟩

namespace Endpoint

variable {σ : Cipher} {d : Direction} {p : ℕ → Bytes} {x y : Endpoint} {h : Handle} {e : Event}

/-- The reassembly invariant, with room left in the counter. -/
structure Receiving (p : ℕ → Bytes) (x : Endpoint) : Prop where
  assembled : Assembled p x.processed x.state.recvSeq.toNat
    (returnedBytes x.log ++ x.state.pendingRead) x.state.buffer
  room : ∀ i ∈ x.processed, i + 1 < 2 ^ 64

theorem Receiving.init (p : ℕ → Bytes) : Receiving p Endpoint.init := by
  have hP : Endpoint.init.processed = ∅ := by
    simp [processed, Endpoint.init]
  refine ⟨?_, ?_⟩
  · rw [hP]
    exact Assembled.empty p SessionState.buffer_init
  · intro i hi
    rw [hP] at hi
    exact absurd hi (Set.notMem_empty i)

theorem processed_append_single {q : Packet} (hy : y.handled = x.handled ++ [q]) :
    y.processed = insert q.seq.toNat x.processed := by
  ext i
  simp only [processed, hy, List.mem_append, List.mem_singleton, Set.mem_ofPred_eq,
    Set.mem_insert_iff]
  refine ⟨?_, ?_⟩
  · intro hi
    obtain ⟨q', hq' | rfl, rfl⟩ := hi
    · exact Or.inr ⟨q', hq', rfl⟩
    · exact Or.inl rfl
  · intro hi
    rcases hi with rfl | ⟨q', hq', rfl⟩
    · exact ⟨q, Or.inr rfl, rfl⟩
    · exact ⟨q', Or.inl hq', rfl⟩

/-- A step that handles no packet may move bytes from `pending_read` to a reader. -/
theorem Receiving.of_eq (hx : Receiving p x) (handled : y.handled = x.handled)
    (seq : y.state.recvSeq = x.state.recvSeq)
    (packets : y.state.pendingPackets = x.state.pendingPackets)
    (out : returnedBytes y.log ++ y.state.pendingRead
      = returnedBytes x.log ++ x.state.pendingRead) : Receiving p y := by
  have hproc : y.processed = x.processed := by simp [processed, handled]
  refine ⟨?_, by rw [hproc]; exact hx.room⟩
  rw [hproc, seq, out, SessionState.buffer_of_pendingPackets_eq packets]
  exact hx.assembled

/-- Every step keeps the reassembly invariant. -/
theorem Receiving.step (ideal : IdealAead σ d.peer p) (hx : Receiving p x)
    (hs : x.step σ d (h, e) = some y) : Receiving p y := by
  obtain ⟨n, rfl, hr⟩ := step_rule hs
  rcases hr.receiving with ⟨len, hstate, hdone, hnone⟩ |
    ⟨op, q, plaintext, hc, hc', hdone, hopen, hhandle⟩ | ⟨hseq, hread, hpkts, hbytes, hnone⟩
  · -- a `read` takes bytes from the front of `pending_read`
    refine hx.of_eq (by simp [after, hnone]) ?_ ?_ ?_
    · rw [after, hstate]
    · rw [after, hstate]
    · show returnedBytes (x.log ++ n.done.toList) ++ n.state.pendingRead = _
      rw [hdone, hstate, returnedBytes_append, Option.toList_some, returnedBytes_single,
        Done.bytes, List.append_assoc, List.take_append_drop]
  · -- the packet is authentic, so it is the peer's plaintext of its own number
    obtain ⟨hp, hlt⟩ := ideal.plaintext_eq hopen
    have hproc : (x.after h e n).processed = insert q.seq.toNat x.processed :=
      processed_append_single (by simp only [after, hc, hc', handledBy])
    refine ⟨?_, ?_⟩
    · rw [hproc]
      show Assembled p _ n.state.recvSeq.toNat
        (returnedBytes (x.log ++ n.done.toList) ++ n.state.pendingRead) n.state.buffer
      rw [hdone, Option.toList_none, List.append_nil]
      exact SessionState.handleData_assembled hx.assembled hp hhandle
    · intro i hi
      rw [hproc] at hi
      rcases Set.mem_insert_iff.mp hi with rfl | hi
      · omega
      · exact hx.room i hi
  · refine hx.of_eq (by simp [after, hnone]) hseq hpkts ?_
    show returnedBytes (x.log ++ n.done.toList) ++ n.state.pendingRead = _
    rw [returnedBytes_append, hbytes, List.append_nil, hread]

/-- The reassembly invariant holds at the end of every run. -/
theorem receiving (ideal : IdealAead σ d.peer p) {es : List (Handle × Event)}
    (run : exec (Endpoint.step σ d) init es = some x) : Receiving p x :=
  exec_invariant_all (fun _ _ _ hx hs => hx.step ideal hs) es _ _ (Receiving.init p) run

/-- **No overflow.**  In every run a received packet can be handled: no counter of the
reassembly overflows. -/
theorem handle_defined (ideal : IdealAead σ d.peer p) (es : List (Handle × Event))
    (run : exec (Endpoint.step σ d) init es = some x) {op : Op} {q : Packet}
    (hc : x.call h = .handle op q) : ∃ y, x.step σ d (h, .lock) = some y := by
  have hx := receiving ideal run
  have hstep : x.step σ d (h, .lock)
      = (Call.step σ d (.handle op q) x.state .lock).map (x.after h .lock) := by
    cases h <;> simp only [Endpoint.step, hc]
  rw [hstep]
  cases hdec : σ.decrypt (nonceBytes d.peer q.seq) q.payload with
  | none =>
    simp only [Call.step, hdec, Option.map_some]
    exact ⟨_, rfl⟩
  | some plaintext =>
    obtain ⟨hp, hlt⟩ := ideal.plaintext_eq hdec
    obtain ⟨t, ht⟩ := SessionState.handleData_defined q.seq (by
      intro i hi
      rcases Set.mem_insert_iff.mp hi with rfl | hi
      · omega
      · exact hx.room i hi) hx.assembled hp
    simp only [Call.step, hdec, ht, Option.map_some]
    exact ⟨_, rfl⟩

/-- **Receiver integrity.**  In every run of a stream, whatever packets it is
handed and however it is read, the bytes read and the bytes waiting are the
peer's stream up to `recv_seq`, the least number not handled yet, and
`pending_packets` holds exactly the packets handled beyond it. -/
theorem receiver_integrity (ideal : IdealAead σ d.peer p) (es : List (Handle × Event))
    (run : exec (Endpoint.step σ d) init es = some x) :
    returnedBytes x.log ++ x.state.pendingRead = upTo p x.state.recvSeq.toNat ∧
      IsLeast {i | i ∉ x.processed} x.state.recvSeq.toNat ∧
      ∀ (seq : UInt64) (b : Bytes), x.state.pendingPackets[seq]? = some b ↔
        seq.toNat ∈ x.processed ∧ x.state.recvSeq.toNat < seq.toNat ∧ b = p seq.toNat := by
  have hA := (receiving ideal run).assembled
  refine ⟨hA.out_eq, hA.least, ?_⟩
  intro seq b
  rw [← SessionState.buffer_toNat]
  exact hA.buf_iff seq.toNat b

end Endpoint

/-! ### A run out of order

`tagCipher` stands in for the AEAD where a run is evaluated.  A box is the
plaintext with a 16 byte tag, as in the source, and the tag is the nonce.
`onlyCipher p` opens nothing but the boxes of `p`. -/

def tagCipher : Cipher where
  encrypt nonce plaintext := some (plaintext ++ (nonce ++ [0, 0, 0, 0]))
  decrypt nonce ciphertext :=
    let n := ciphertext.length - (nonce.length + 4)
    if ciphertext.drop n = nonce ++ [0, 0, 0, 0] then some (ciphertext.take n) else none

theorem tagCipher_correct : tagCipher.Correct := by
  intro nonce plaintext ciphertext h
  cases h
  simp [tagCipher]

theorem tagCipher_sealsChunks : tagCipher.SealsChunks := by
  intro nonce plaintext _
  simp [tagCipher]

theorem tagCipher_decrypt {nonce ciphertext plaintext : Bytes}
    (h : tagCipher.decrypt nonce ciphertext = some plaintext) :
    tagCipher.encrypt nonce plaintext = some ciphertext := by
  simp only [tagCipher] at h ⊢
  split at h
  next htag =>
    cases h
    rw [← htag, List.take_append_drop]
  next => cases h

def onlyCipher (p : ℕ → Bytes) : Cipher where
  encrypt := tagCipher.encrypt
  decrypt nonce ciphertext :=
    let i := BigEndian.ofBeBytes (nonce.drop 4)
    (tagCipher.decrypt nonce ciphertext).filter fun b => b = p i ∧ i < 2 ^ 64 - 1

theorem onlyCipher_ideal (p : ℕ → Bytes) (d : Direction) : IdealAead (onlyCipher p) d p := by
  intro seq ciphertext plaintext h
  have hseq : BigEndian.ofBeBytes ((nonceBytes d seq).drop 4) = seq.toNat := by
    show BigEndian.ofBeBytes (BigEndian.toBeBytes 8 seq.toNat) = seq.toNat
    exact BigEndian.ofBeBytes_toBeBytes_of_lt (by simpa using seq.toNat_lt)
  simp only [onlyCipher, hseq, Option.filter_eq_some_iff, decide_eq_true_eq] at h
  obtain ⟨hopen, hp, hlt⟩ := h
  exact ⟨seq, hlt, rfl, hp, tagCipher_decrypt hopen⟩

/-- `abc` and `def`. -/
def abcdef : ℕ → Bytes
  | 0 => [97, 98, 99]
  | 1 => [100, 101, 102]
  | _ => []

/-- The packet a peer sends for one piece of its stream. -/
def boxed (d : Direction) (seq : UInt64) (bytes : Bytes) : Packet :=
  ⟨.data, seq, bytes ++ (nonceBytes d seq ++ [0, 0, 0, 0])⟩

/-- A `read` during which one data packet arrives. -/
def readOne (len : Nat) (p : Packet) : List (Handle × Event) :=
  [(.reader, .read len), (.reader, .recv (.ok p)), (.reader, .lock), (.reader, .send (.ok ())),
    (.reader, .lock)]

/-- The second packet arrives first, the first `read` times out, and the second
`read` returns both. -/
def outOfOrderRun : List (Handle × Event) :=
  readOne 6 (boxed .clientToNode 1 (abcdef 1)) ++ [(.reader, .recv (.error ⟨.timedOut, ""⟩))]
    ++ readOne 6 (boxed .clientToNode 0 (abcdef 0))

theorem receiver_integrity_outOfOrder :
    (exec (Endpoint.step (onlyCipher abcdef) .nodeToClient) Endpoint.init outOfOrderRun).map
        (fun x => returnedBytes x.log) = some [97, 98, 99, 100, 101, 102] ∧
      ∃ x, exec (Endpoint.step (onlyCipher abcdef) .nodeToClient) Endpoint.init outOfOrderRun
          = some x ∧
        returnedBytes x.log ++ x.state.pendingRead = upTo abcdef x.state.recvSeq.toNat := by
  have hrun : (exec (Endpoint.step (onlyCipher abcdef) .nodeToClient) Endpoint.init
      outOfOrderRun).isSome := by decide
  obtain ⟨x, hx⟩ := Option.isSome_iff_exists.mp hrun
  have ideal : IdealAead (onlyCipher abcdef) Direction.nodeToClient.peer abcdef :=
    onlyCipher_ideal abcdef _
  exact ⟨by decide, x, hx, (Endpoint.receiver_integrity ideal outOfOrderRun hx).1⟩

/-- The packet that is ahead is held back, and the one in front of it lets both pass. -/
theorem handle_defined_outOfOrder :
    (∃ x y, exec (Endpoint.step (onlyCipher abcdef) .nodeToClient) Endpoint.init
        (outOfOrderRun.take 2) = some x ∧
      x.step (onlyCipher abcdef) .nodeToClient (.reader, .lock) = some y ∧
      y.state.recvSeq = 0 ∧ y.state.pendingRead = []) ∧
    ∃ x y, exec (Endpoint.step (onlyCipher abcdef) .nodeToClient) Endpoint.init
        (outOfOrderRun.take 8) = some x ∧
      x.step (onlyCipher abcdef) .nodeToClient (.reader, .lock) = some y ∧
      y.state.recvSeq = 2 ∧ y.state.pendingRead = [97, 98, 99, 100, 101, 102] := by
  constructor
  · obtain ⟨y, hy⟩ := Endpoint.handle_defined (h := .reader) (onlyCipher_ideal abcdef _)
      (outOfOrderRun.take 2) rfl rfl
    exact ⟨_, y, rfl, hy, by cases hy; decide⟩
  · obtain ⟨y, hy⟩ := Endpoint.handle_defined (d := .nodeToClient) (h := .reader)
      (onlyCipher_ideal abcdef _) (outOfOrderRun.take 8) rfl
      (show _ = Call.handle (.read 6) (boxed .clientToNode 0 (abcdef 0)) by rfl)
    exact ⟨_, y, rfl, hy, by cases hy; decide⟩

/-! ## Acknowledgements -/

namespace Endpoint

variable {σ : Cipher} {d : Direction} {x y : Endpoint} {h : Handle} {e : Event}

/-- Every acknowledgement that was sent, or is about to be, is for a recorded
packet. -/
structure Acking (x : Endpoint) : Prop where
  sent : ∀ p ∈ x.sent, p.kind = .ack → x.state.Recorded p.seq
  pending : ∀ h op seq, x.call h = .ack op seq → x.state.Recorded seq

theorem Acking.init : Acking Endpoint.init := by
  refine ⟨?_, ?_⟩
  · intro p hp
    cases hp
  · intro h op seq hc
    cases h <;> cases hc

end Endpoint

/-- A step leaves the recorded packets recorded, and a step to `send_ack` has
recorded the packet. -/
theorem Call.Rule.recorded {s t : SessionState} {c' : Call} {r : Option Done}
    (hr : Call.Rule σ d s c e c' t r) :
    (∀ i, s.Recorded i → t.Recorded i) ∧ ∀ op seq, c' = .ack op seq → t.Recorded seq := by
  cases hr with
  | record op p plaintext t opened handled =>
    refine ⟨fun i hi => SessionState.handleData_recorded handled (Or.inr hi), ?_⟩
    intro op' seq heq
    cases heq
    exact SessionState.handleData_recorded handled (Or.inl rfl)
  | ackSent op seq =>
    refine ⟨fun _ hi => hi, ?_⟩
    intro op' seq' heq
    cases op <;> cases heq
  | _ => exact ⟨fun _ hi => hi, fun _ _ heq => by cases heq⟩

/-- A packet a step sends is an acknowledgement of the position it was at, or
the packet of a `write`. -/
theorem mem_sentBy {p : Packet} (hp : p ∈ sentBy c e) :
    (∃ op, c = .ack op p.seq ∧ p.kind = .ack) ∨ (∃ w, c = .send w ∧ p = w.packet) := by
  unfold sentBy at hp
  split at hp
  next =>
    cases c with
    | ack op seq =>
      simp only [Call.outgoing, Option.toList_some, List.mem_singleton] at hp
      subst hp
      exact Or.inl ⟨op, rfl, rfl⟩
    | send w =>
      simp only [Call.outgoing, Option.toList_some, List.mem_singleton] at hp
      exact Or.inr ⟨w, rfl, hp⟩
    | _ => cases hp
  next => cases hp

namespace Endpoint

variable {σ : Cipher} {d : Direction} {x y : Endpoint} {h : Handle} {e : Event}

/-- Every step keeps acknowledgements behind the records. -/
theorem Acking.step (hx : Acking x) (hs : x.step σ d (h, e) = some y) : Acking y := by
  obtain ⟨n, rfl, hr⟩ := step_rule hs
  obtain ⟨hmono, hack⟩ := hr.recorded
  refine ⟨?_, ?_⟩
  · intro p hp hk
    simp only [after, List.mem_append] at hp
    rcases hp with hp | hp
    · exact hmono _ (hx.sent p hp hk)
    · rcases mem_sentBy hp with ⟨op, hc, _⟩ | ⟨w, _, rfl⟩
      · exact hmono _ (hx.pending h op p.seq hc)
      · cases hk
  · intro h' op seq hc
    by_cases hne : h' = h
    · subst hne
      rw [call_after_self] at hc
      exact hack op seq hc
    · rw [call_after_ne x e n hne] at hc
      exact hmono _ (hx.pending h' op seq hc)

/-- A stream sends data and acknowledgements and nothing else. -/
theorem sent_kind_step (hx : ∀ p ∈ x.sent, p.kind = .data ∨ p.kind = .ack)
    (hs : x.step σ d (h, e) = some y) : ∀ p ∈ y.sent, p.kind = .data ∨ p.kind = .ack := by
  obtain ⟨n, rfl, _⟩ := step_rule hs
  intro p hp
  simp only [after, List.mem_append] at hp
  rcases hp with hp | hp
  · exact hx p hp
  · rcases mem_sentBy hp with ⟨_, _, hk⟩ | ⟨w, _, rfl⟩
    · exact Or.inr hk
    · exact Or.inl rfl

end Endpoint

end MediumOverlay
