import MediumOverlay.Transport.Endpoint

/-!
# The session of the Apple app

`ForegroundUdpSession` is the client end of a session, written a second time in
Swift.  One thread reads and one writes.  Both receive from the socket, so both
may be handed the node's data, and the two functions treat it differently.

* `read` acknowledges a packet and then drops it, unless it is the one at
  `recvSeq`.  There is no place where a later packet could wait.
* `waitForAck` acknowledges a packet and appends it, whatever its number is, and
  leaves `recvSeq` alone.

So a packet that arrives while a `write` waits is delivered, but `read` still
expects it and drops everything that follows (`read_drops_acknowledged`).
`InOrder` is the condition under which the two agree with the node's stream:
no data arrives at `waitForAck`, and none at `read` beyond `recvSeq`.
-/

namespace MediumOverlay

open Reassembly Trace

namespace ForegroundUdpSession

/-- The errors of `ForegroundUdpSessionError` that an open session can throw. -/
inductive Error where
  | socket (message : String)
  | handshakeTimeout (peer : String)
  | invalidPacket
  | cryptoFailed
deriving DecidableEq, Repr

def maxPayload : Nat := 1100
def retries : Nat := 5

/-- The locals of `write` and `writeChunk`: the bytes behind the chunk, its
number and ciphertext, the index of the attempt. -/
structure Chunk where
  rest : Bytes
  seq : UInt64
  ciphertext : Bytes
  attempt : Nat
deriving DecidableEq, Repr

/-- Where the thread that reads stands. -/
inductive Reader where
  | idle
  /-- At `receivePacket`. -/
  | recv (maxLength : Nat)
  /-- At the `sendPacket` of an acknowledgement. -/
  | ack (maxLength : Nat) (seq : UInt64) (plaintext : Bytes)
  /-- At the lock behind it. -/
  | record (maxLength : Nat) (seq : UInt64) (plaintext : Bytes)
deriving DecidableEq, Repr

/-- Where the thread that writes stands. -/
inductive Writer where
  | idle
  /-- At the head of the loop of `write`, with the bytes left. -/
  | next (bytes : Bytes)
  | send (w : Chunk)
  /-- At the `receivePacket` of `waitForAck`. -/
  | wait (w : Chunk)
  | ack (w : Chunk) (seq : UInt64) (plaintext : Bytes)
  | record (w : Chunk) (plaintext : Bytes)
  /-- At the lock behind `waitForAck`. -/
  | commit (w : Chunk)
deriving DecidableEq, Repr

inductive Event where
  | read (maxLength : Nat)
  | write (bytes : Bytes)
  | lock
  | recv (result : Except Error Packet)
  | send (result : Except Error Unit)

/-- A call that returned or threw. -/
inductive Outcome where
  | read (maxLength : Nat) (result : Except Error Bytes)
  | write (result : Except Error Unit)

end ForegroundUdpSession

/-- A session with its two threads.  The results of the calls, the numbers that
were acknowledged and the numbers of the authentic data packets that arrived are
history. -/
structure ForegroundUdpSession where
  sendSeq : UInt64
  recvSeq : UInt64
  pendingRead : Bytes
  reader : ForegroundUdpSession.Reader
  writer : ForegroundUdpSession.Writer
  log : List ForegroundUdpSession.Outcome
  acked : List UInt64
  arrived : List UInt64

namespace ForegroundUdpSession

def init : ForegroundUdpSession := ⟨0, 0, [], .idle, .idle, [], [], []⟩

def Outcome.bytes : Outcome → Bytes
  | .read _ (.ok bytes) => bytes
  | _ => []

/-- Everything `read` returned. -/
def returned (x : ForegroundUdpSession) : Bytes := x.log.flatMap Outcome.bytes

/-- `decrypt`, which wants at least a tag. -/
def decrypt (σ : Cipher) (p : Packet) : Option Bytes :=
  if p.payload.length < 16 then none
  else σ.decrypt (nonceBytes .nodeToClient p.seq) p.payload

def endRead (x : ForegroundUdpSession) (maxLength : Nat) (result : Except Error Bytes) :
    ForegroundUdpSession :=
  { x with reader := .idle, log := x.log ++ [.read maxLength result] }

def endWrite (x : ForegroundUdpSession) (result : Except Error Unit) : ForegroundUdpSession :=
  { x with writer := .idle, log := x.log ++ [.write result] }

/-- `popPendingReadLocked`, and the return of `read`. -/
def popPendingReadLocked (x : ForegroundUdpSession) (maxLength : Nat) : ForegroundUdpSession :=
  { x with pendingRead := x.pendingRead.drop maxLength }.endRead maxLength
    (.ok (x.pendingRead.take maxLength))

/-- `read`. -/
def readerStep (σ : Cipher) (x : ForegroundUdpSession) (e : Event) :
    Option ForegroundUdpSession :=
  match x.reader, e with
  | .idle, .read maxLength =>
    if x.pendingRead.isEmpty then some { x with reader := .recv maxLength }
    else some (x.popPendingReadLocked maxLength)
  | .recv maxLength, .recv (.ok p) =>
    match p.kind with
    | .data =>
      match decrypt σ p with
      | none => some (x.endRead maxLength (.error .cryptoFailed))
      | some plaintext =>
        some { x with
          reader := .ack maxLength p.seq plaintext, arrived := x.arrived ++ [p.seq] }
    | .close => some (x.endRead maxLength (.ok []))
    | .ack | .hello | .helloAck => some x
  | .recv maxLength, .recv (.error e) => some (x.endRead maxLength (.error e))
  | .ack maxLength seq plaintext, .send (.ok _) =>
    some { x with reader := .record maxLength seq plaintext, acked := x.acked ++ [seq] }
  | .ack maxLength _ _, .send (.error e) => some (x.endRead maxLength (.error e))
  | .record maxLength seq plaintext, .lock =>
    -- a later packet was acknowledged by now, and is dropped
    if seq = x.recvSeq then
      (checkedSucc x.recvSeq).map fun next =>
        { x with recvSeq := next, pendingRead := x.pendingRead ++ plaintext }.popPendingReadLocked
          maxLength
    else some { x with reader := .recv maxLength }
  | _, _ => none

/-- The `catch` of `writeChunk`. -/
def nextAttempt (x : ForegroundUdpSession) (w : Chunk) (e : Error) : ForegroundUdpSession :=
  if w.attempt + 1 < retries then { x with writer := .send { w with attempt := w.attempt + 1 } }
  else x.endWrite (.error e)

/-- The loop of `write` up to the first `sendPacket` of the next chunk. -/
def startChunk (σ : Cipher) (x : ForegroundUdpSession) (bytes : Bytes) : ForegroundUdpSession :=
  if bytes.isEmpty then x.endWrite (.ok ())
  else
    match σ.encrypt (nonceBytes .clientToNode x.sendSeq) (bytes.take maxPayload) with
    | none => x.endWrite (.error .cryptoFailed)
    | some ciphertext =>
      { x with writer := .send ⟨bytes.drop maxPayload, x.sendSeq, ciphertext, 0⟩ }

/-- `write`, `writeChunk` and `waitForAck`. -/
def writerStep (σ : Cipher) (x : ForegroundUdpSession) (e : Event) :
    Option ForegroundUdpSession :=
  match x.writer, e with
  | .idle, .write bytes => some (x.startChunk σ bytes)
  | .next bytes, .lock => some (x.startChunk σ bytes)
  | .send w, .send (.ok _) => some { x with writer := .wait w }
  | .send _, .send (.error e) => some (x.endWrite (.error e))
  | .wait w, .recv (.ok p) =>
    match p.kind with
    | .ack => if p.seq = w.seq then some { x with writer := .commit w } else some x
    | .data =>
      match decrypt σ p with
      | none => some (x.nextAttempt w .cryptoFailed)
      | some plaintext =>
        some { x with writer := .ack w p.seq plaintext, arrived := x.arrived ++ [p.seq] }
    | .close => some (x.nextAttempt w (.socket "remote closed UDP session"))
    | .hello | .helloAck => some x
  | .wait w, .recv (.error e) => some (x.nextAttempt w e)
  | .ack w seq plaintext, .send (.ok _) =>
    some { x with writer := .record w plaintext, acked := x.acked ++ [seq] }
  | .ack w _ _, .send (.error e) => some (x.nextAttempt w e)
  -- neither the number of the packet nor `recvSeq` is looked at
  | .record w plaintext, .lock =>
    some { x with writer := .wait w, pendingRead := x.pendingRead ++ plaintext }
  | .commit w, .lock =>
    (checkedSucc x.sendSeq).map fun next => { x with sendSeq := next, writer := .next w.rest }
  | _, _ => none

def step (σ : Cipher) (x : ForegroundUdpSession) : Handle × Event → Option ForegroundUdpSession
  | (.reader, e) => x.readerStep σ e
  | (.writer, e) => x.writerStep σ e

/-- A data packet arrives. -/
def Event.arrives : Event → Bool
  | .recv (.ok p) => p.kind = .data
  | _ => false

/-- `p i` and everything before it is returned without another packet: the calls
go on and the app reads again. -/
def Returns (σ : Cipher) (p : ℕ → Bytes) (x : ForegroundUdpSession) (i : ℕ) : Prop :=
  ∃ es y, (∀ ev ∈ es, (Prod.snd ev).arrives = false) ∧ exec (step σ) x es = some y ∧
    upTo p (i + 1) <+: y.returned

/-- What `read` returned is a prefix of the node's stream, and a packet that was
acknowledged is returned once it and everything before it has arrived. -/
def Faithful (σ : Cipher) (p : ℕ → Bytes) (x : ForegroundUdpSession) : Prop :=
  (∃ k, x.returned <+: upTo p k) ∧
    ∀ i ∈ x.acked, (∀ j ≤ i, j ∈ x.arrived) → Returns σ p x i.toNat

/-- Data arrives only at `read`, and not beyond `recvSeq`. -/
def InOrder (x : ForegroundUdpSession) : Handle × Event → Prop
  | (.reader, .recv (.ok p)) => p.kind = .data → p.seq ≤ x.recvSeq
  | (.writer, .recv (.ok p)) => p.kind ≠ .data
  | _ => True

instance (x : ForegroundUdpSession) : ∀ ev, Decidable (x.InOrder ev)
  | (.reader, .recv (.ok p)) => inferInstanceAs (Decidable (p.kind = .data → p.seq ≤ x.recvSeq))
  | (.writer, .recv (.ok p)) => inferInstanceAs (Decidable (p.kind ≠ .data))
  | (.reader, .recv (.error _)) | (.reader, .read _) | (.reader, .write _) | (.reader, .lock)
  | (.reader, .send _) => .isTrue trivial
  | (.writer, .recv (.error _)) | (.writer, .read _) | (.writer, .write _) | (.writer, .lock)
  | (.writer, .send _) => .isTrue trivial

/-! ## The writer without data -/

/-- The writer has no packet of the node in its hands. -/
def Writer.empty : Writer → Bool
  | .ack _ _ _ | .record _ _ => false
  | _ => true

variable {σ : Cipher} {p : ℕ → Bytes} {x y : ForegroundUdpSession} {e : Event}

@[simp] theorem returned_endRead (n : Nat) (q : Except Error Bytes) :
    (x.endRead n q).returned = x.returned ++ (Outcome.read n q).bytes := by
  simp [returned, endRead]

@[simp] theorem returned_endWrite (q : Except Error Unit) :
    (x.endWrite q).returned = x.returned := by
  simp [returned, endWrite, Outcome.bytes]

/-- The two states are the same to the reader, and `y`'s writer has no data. -/
structure Beside (x y : ForegroundUdpSession) : Prop where
  recvSeq : y.recvSeq = x.recvSeq
  pendingRead : y.pendingRead = x.pendingRead
  reader : y.reader = x.reader
  returned : y.returned = x.returned
  acked : y.acked = x.acked
  empty : y.writer.empty = true

theorem Beside.endWrite (q : Except Error Unit) : Beside x (x.endWrite q) :=
  ⟨rfl, rfl, rfl, returned_endWrite q, rfl, rfl⟩

theorem Beside.nextAttempt (w : Chunk) (error : Error) : Beside x (x.nextAttempt w error) := by
  unfold ForegroundUdpSession.nextAttempt
  split
  · exact ⟨rfl, rfl, rfl, rfl, rfl, rfl⟩
  · exact .endWrite _

theorem Beside.startChunk (bytes : Bytes) : Beside x (x.startChunk σ bytes) := by
  unfold ForegroundUdpSession.startChunk
  split
  · exact .endWrite _
  · split
    · exact .endWrite _
    · exact ⟨rfl, rfl, rfl, rfl, rfl, rfl⟩

/-- A writer that is handed no data does nothing the reader can see. -/
theorem writerStep_beside (empty : x.writer.empty = true) (quiet : e.arrives = false)
    (hs : x.writerStep σ e = some y) : Beside x y := by
  have hself : Beside x x := ⟨rfl, rfl, rfl, rfl, rfl, empty⟩
  unfold writerStep at hs
  split at hs
  next =>
    cases hs
    exact .startChunk _
  next =>
    cases hs
    exact .startChunk _
  next =>
    cases hs
    exact ⟨rfl, rfl, rfl, rfl, rfl, rfl⟩
  next =>
    cases hs
    exact .endWrite _
  next w q hw =>
    split at hs
    next =>
      split at hs
      next =>
        cases hs
        exact ⟨rfl, rfl, rfl, rfl, rfl, rfl⟩
      next =>
        cases hs
        exact hself
    next hk => simp [Event.arrives, hk] at quiet
    next =>
      cases hs
      exact .nextAttempt w _
    next =>
      cases hs
      exact hself
    next =>
      cases hs
      exact hself
  next =>
    cases hs
    exact .nextAttempt _ _
  next hw => simp [hw, Writer.empty] at empty
  next hw => simp [hw, Writer.empty] at empty
  next hw => simp [hw, Writer.empty] at empty
  next =>
    obtain ⟨next, _, rfl⟩ := Option.map_eq_some_iff.mp hs
    exact ⟨rfl, rfl, rfl, rfl, rfl, rfl⟩
  next => cases hs

/-! ## Data in order -/

/-- The session follows the node's stream. -/
structure Following (p : ℕ → Bytes) (x : ForegroundUdpSession) : Prop where
  content : x.returned ++ x.pendingRead = upTo p x.recvSeq.toNat
  /-- An acknowledged packet was delivered, or is about to be. -/
  acked : ∀ i ∈ x.acked, i.toNat < x.recvSeq.toNat ∨ ∃ n b, x.reader = .record n i b
  /-- A packet in the reader's hands is authentic and not beyond `recvSeq`. -/
  hand : ∀ n i b, x.reader = .ack n i b ∨ x.reader = .record n i b →
    b = p i.toNat ∧ i.toNat ≤ x.recvSeq.toNat ∧ i.toNat < 2 ^ 64 - 1
  /-- The reader waits only when there is nothing to return. -/
  waiting : x.reader ≠ .idle → x.pendingRead = []
  empty : x.writer.empty = true

theorem Following.init (p : ℕ → Bytes) : Following p ForegroundUdpSession.init := by
  refine ⟨rfl, ?_, ?_, fun h => absurd rfl h, rfl⟩
  · intro i hi
    cases hi
  · intro n i b h
    rcases h with h | h <;> cases h

/-- What the writer does beside the reader keeps everything. -/
theorem Following.beside (hx : Following p x) (hy : Beside x y) : Following p y := by
  obtain ⟨hseq, hread, hreader, hret, hacked, hempty⟩ := hy
  refine ⟨?_, ?_, ?_, ?_, hempty⟩
  · rw [hret, hread, hseq]
    exact hx.content
  · rw [hacked, hseq, hreader]
    exact hx.acked
  · rw [hreader, hseq]
    exact hx.hand
  · rw [hreader, hread]
    exact hx.waiting

theorem Following.acked_lt (hx : Following p x) (hr : ∀ n i b, x.reader ≠ .record n i b) :
    ∀ i ∈ x.acked, i.toNat < x.recvSeq.toNat := by
  intro i hi
  rcases hx.acked i hi with hlt | ⟨n, b, hrec⟩
  · exact hlt
  · exact absurd hrec (hr n i b)

variable {n : Nat}

/-- A `read` that ends without bytes. -/
theorem Following.endRead (hx : Following p x) (hr : ∀ n i b, x.reader ≠ .record n i b)
    {q : Except Error Bytes} (hq : (Outcome.read n q).bytes = []) :
    Following p (x.endRead n q) := by
  refine ⟨?_, fun i hi => Or.inl (hx.acked_lt hr i hi), ?_, fun h => absurd rfl h,
    hx.empty⟩
  · rw [returned_endRead, hq, List.append_nil]
    exact hx.content
  · intro n i b h
    rcases h with h | h <;> cases h

theorem returned_pop (n : Nat) : (x.popPendingReadLocked n).returned
    ++ (x.popPendingReadLocked n).pendingRead = x.returned ++ x.pendingRead := by
  show (endRead _ n _).returned ++ x.pendingRead.drop n = _
  rw [returned_endRead]
  show x.returned ++ x.pendingRead.take n ++ x.pendingRead.drop n = _
  rw [List.append_assoc, List.take_append_drop]

/-- A `read` that returns bytes. -/
theorem Following.pop (content : x.returned ++ x.pendingRead = upTo p x.recvSeq.toNat)
    (acked : ∀ i ∈ x.acked, i.toNat < x.recvSeq.toNat) (empty : x.writer.empty = true) (n : Nat) :
    Following p (x.popPendingReadLocked n) := by
  refine ⟨?_, fun i hi => Or.inl (acked i hi), ?_, fun h => absurd rfl h, empty⟩
  · rw [returned_pop]
    exact content
  · intro n i b h
    rcases h with h | h <;> cases h

variable {b : Bytes}

theorem decrypt_eq_some {q : Packet} (h : decrypt σ q = some b) :
    σ.decrypt (nonceBytes .nodeToClient q.seq) q.payload = some b := by
  unfold decrypt at h
  split at h
  · cases h
  · exact h

variable {i : UInt64}

/-- The packet at `recvSeq` is appended and the number moves on. -/
theorem Following.record (hx : Following p x) {next : UInt64} (hr : x.reader = .record n i b)
    (heq : i = x.recvSeq) (hnext : checkedSucc x.recvSeq = some next) :
    Following p ({ x with
      recvSeq := next, pendingRead := x.pendingRead ++ b }.popPendingReadLocked n) := by
  obtain ⟨hb, _, _⟩ := hx.hand n i b (Or.inr hr)
  have hseq := checkedSucc_toNat hnext
  refine .pop ?_ (?_) ?_ n
  · show x.returned ++ (x.pendingRead ++ b) = upTo p next.toNat
    rw [hseq, upTo_succ, ← hx.content, hb, heq, List.append_assoc]
  · intro j hj
    show j.toNat < next.toNat
    rcases hx.acked j hj with hlt | ⟨n', b', hrec⟩
    · omega
    · rw [hr] at hrec
      cases hrec
      rw [hseq, heq]
      exact Nat.lt_succ_self _
  · exact hx.empty

/-- The reader waits, with all that was acknowledged delivered. -/
theorem Following.recv (hx : Following p x) (waiting : x.pendingRead = [])
    (acked : ∀ i ∈ x.acked, i.toNat < x.recvSeq.toNat) (n : Nat) :
    Following p { x with reader := .recv n } := by
  refine ⟨hx.content, fun i hi => Or.inl (acked i hi), ?_, fun _ => waiting, hx.empty⟩
  intro n i b h
  rcases h with h | h <;> cases h

/-- A packet that was delivered before is dropped. -/
theorem Following.drop (hx : Following p x) (hr : x.reader = .record n i b) (hne : i ≠ x.recvSeq) :
    Following p { x with reader := .recv n } := by
  obtain ⟨_, hle, _⟩ := hx.hand n i b (Or.inr hr)
  have hlt : i.toNat < x.recvSeq.toNat := by
    have hne' : i.toNat ≠ x.recvSeq.toNat := fun h => hne (UInt64.toNat_inj.mp h)
    omega
  refine hx.recv (hx.waiting (by simp [hr])) (fun j hj => ?_) n
  rcases hx.acked j hj with hj | ⟨n', b', hj⟩
  · exact hj
  · rw [hr] at hj
    cases hj
    exact hlt

/-- A step of the reader. -/
theorem Following.reader (ideal : IdealAead σ .nodeToClient p) (hx : Following p x)
    (ok : x.InOrder (.reader, e)) (hs : x.readerStep σ e = some y) : Following p y := by
  unfold readerStep at hs
  split at hs
  next n hidle =>
    have hr : ∀ n i b, x.reader ≠ .record n i b := by simp [hidle]
    split at hs
    next hnone =>
      cases hs
      exact hx.recv (List.isEmpty_iff.mp hnone) (hx.acked_lt hr) n
    next =>
      cases hs
      exact .pop hx.content (hx.acked_lt hr) hx.empty n
  next n q hrecv =>
    have hr : ∀ n i b, x.reader ≠ .record n i b := by simp [hrecv]
    split at hs
    next hk =>
      split at hs
      next =>
        cases hs
        exact hx.endRead hr rfl
      next b hb =>
        cases hs
        refine ⟨hx.content, fun i hi => Or.inl (hx.acked_lt hr i hi), ?_,
          fun _ => hx.waiting (by simp [hrecv]), hx.empty⟩
        intro n' i b' h
        rcases h with h | h
        · cases h
          obtain ⟨hp, hlt⟩ := ideal.plaintext_eq (decrypt_eq_some hb)
          exact ⟨hp, UInt64.le_iff_toNat_le.mp (ok hk), hlt⟩
        · cases h
    next =>
      cases hs
      exact hx.endRead hr rfl
    all_goals
      cases hs
      exact hx
  next n error hrecv =>
    cases hs
    exact hx.endRead (by simp [hrecv]) rfl
  next n i b _ hack =>
    cases hs
    refine ⟨hx.content, ?_, ?_, fun _ => hx.waiting (by simp [hack]),
      hx.empty⟩
    · intro j hj
      rcases List.mem_append.mp hj with hj | hj
      · exact Or.inl (hx.acked_lt (by simp [hack]) j hj)
      · cases List.mem_singleton.mp hj
        exact Or.inr ⟨n, b, rfl⟩
    · intro n' i' b' h
      rcases h with h | h
      · cases h
      · cases h
        exact hx.hand n i b (Or.inl hack)
  next n i b error hack =>
    cases hs
    exact hx.endRead (by simp [hack]) rfl
  next n i b hrec =>
    split at hs
    next heq =>
      obtain ⟨next, hnext, rfl⟩ := Option.map_eq_some_iff.mp hs
      exact hx.record hrec heq hnext
    next hne =>
      -- not beyond `recvSeq` and not at it
      cases hs
      exact hx.drop hrec hne
  next => cases hs

/-- Every step with data in order keeps the session on the node's stream. -/
theorem Following.step (ideal : IdealAead σ .nodeToClient p) (hx : Following p x)
    {ev : Handle × Event} (ok : x.InOrder ev) (hs : x.step σ ev = some y) : Following p y := by
  obtain ⟨h, e⟩ := ev
  cases h with
  | reader => exact hx.reader ideal ok hs
  | writer =>
    refine hx.beside (writerStep_beside hx.empty ?_ hs)
    cases e with
    | recv q =>
      cases q with
      | ok q =>
        have hne : q.kind ≠ .data := ok
        simpa [Event.arrives] using hne
      | error _ => rfl
    | read _ | write _ | lock | send _ => rfl

/-! ## What was acknowledged is returned -/

/-- The app reads what is there. -/
theorem exists_drained (hidle : x.reader = .idle) : ∃ es y,
    (∀ ev ∈ es, (Prod.snd ev).arrives = false) ∧ exec (step σ) x es = some y ∧
      y.returned = x.returned ++ x.pendingRead := by
  cases hp : x.pendingRead with
  | nil => exact ⟨[], x, by simp, rfl, by simp⟩
  | cons b bs =>
    refine ⟨[(.reader, .read x.pendingRead.length)],
      x.popPendingReadLocked x.pendingRead.length, by simp [Event.arrives], ?_, ?_⟩
    · simp [exec, step, readerStep, hidle, hp]
    · have hall := returned_pop (x := x) x.pendingRead.length
      have hrest : (x.popPendingReadLocked x.pendingRead.length).pendingRead = [] :=
        List.drop_length
      rw [hrest, List.append_nil] at hall
      rw [hall, hp]

theorem Following.drained (hx : Following p x) {i : ℕ} (hi : i < x.recvSeq.toNat) :
    Returns σ p x i := by
  have hpre : upTo p (i + 1) <+: x.returned ++ x.pendingRead := by
    rw [hx.content]
    exact upTo_isPrefix p hi
  by_cases hidle : x.reader = .idle
  · obtain ⟨es, y, hquiet, hrun, hret⟩ := exists_drained (σ := σ) hidle
    exact ⟨es, y, hquiet, hrun, hret ▸ hpre⟩
  · refine ⟨[], x, by simp, rfl, ?_⟩
    rw [hx.waiting hidle, List.append_nil] at hpre
    exact hpre

/-- The packet that was acknowledged last may still have to be recorded. -/
theorem Following.returns (hx : Following p x) (hi : i ∈ x.acked) : Returns σ p x i.toNat := by
  rcases hx.acked i hi with hlt | ⟨n, b, hrec⟩
  · exact hx.drained hlt
  · obtain ⟨_, hle, hbound⟩ := hx.hand n i b (Or.inr hrec)
    by_cases heq : i = x.recvSeq
    · have hnext := checkedSucc_of_lt (n := x.recvSeq) (by rw [← heq]; omega)
      have hy := hx.record hrec heq hnext
      have hstep : x.step σ (.reader, .lock) = some ({ x with
          recvSeq := x.recvSeq + 1
          pendingRead := x.pendingRead ++ b }.popPendingReadLocked n) := by
        simp only [ForegroundUdpSession.step, readerStep, hrec, if_pos heq, hnext, Option.map_some]
      have hlt : i.toNat < (x.recvSeq + 1).toNat := by
        rw [checkedSucc_toNat hnext, heq]
        exact Nat.lt_succ_self _
      obtain ⟨es, z, hquiet, hrun, hret⟩ := hy.drained (σ := σ) hlt
      refine ⟨(.reader, .lock) :: es, z, ?_, exec_cons_eq_some.mpr ⟨_, hstep, hrun⟩, hret⟩
      intro ev hev
      rcases List.mem_cons.mp hev with rfl | hev
      · rfl
      · exact hquiet ev hev
    · refine hx.drained ?_
      have hne : i.toNat ≠ x.recvSeq.toNat := fun h => heq (UInt64.toNat_inj.mp h)
      omega

/-- **The Apple receiver.**  While no data arrives during a `write` and none
beyond `recvSeq`, `read` returns a prefix of the node's stream, and every packet
that was acknowledged is returned. -/
theorem faithful_of_inOrder (ideal : IdealAead σ .nodeToClient p) (es : List (Handle × Event))
    (ok : Meets (step σ) InOrder init es) (run : exec (step σ) init es = some x) :
    x.Faithful σ p := by
  have hx : Following p x := by
    refine exec_invariant ?_ es _ _ (Following.init p) ok run
    intro s ev t hI hok hs
    exact hI.step ideal hok hs
  refine ⟨⟨x.recvSeq.toNat, ?_⟩, fun i hi _ => hx.returns hi⟩
  rw [← hx.content]
  exact List.prefix_append _ _

/-! ### Two packets -/

/-- A `read` of the Apple session during which one data packet arrives. -/
def readsOne (q : Packet) : List (Handle × Event) :=
  [(.reader, .read 16), (.reader, .recv (.ok q)), (.reader, .send (.ok ())), (.reader, .lock)]

/-- The node's two packets arrive at `read`, the first of them twice. -/
def readTwiceRun : List (Handle × Event) :=
  readsOne (boxed .nodeToClient 0 (abcdef 0)) ++ readsOne (boxed .nodeToClient 0 (abcdef 0))
    ++ ([(.reader, .recv (.ok (boxed .nodeToClient 1 (abcdef 1)))), (.reader, .send (.ok ())),
      (.reader, .lock)] : List (Handle × Event))

theorem faithful_readTwice :
    (exec (step (onlyCipher abcdef)) init readTwiceRun).map (fun x => (x.returned, x.acked))
        = some ([97, 98, 99, 100, 101, 102], [0, 0, 1]) ∧
      ∃ x, exec (step (onlyCipher abcdef)) init readTwiceRun = some x ∧
        x.Faithful (onlyCipher abcdef) abcdef := by
  have hrun : (exec (step (onlyCipher abcdef)) init readTwiceRun).isSome := by decide +kernel
  obtain ⟨x, hx⟩ := Option.isSome_iff_exists.mp hrun
  exact ⟨by decide +kernel, x, hx, faithful_of_inOrder (onlyCipher_ideal abcdef _) readTwiceRun
    (by decide +kernel) hx⟩

/-- The node's first packet arrives while a `write` waits for its
acknowledgement, and the second while the app reads. -/
def writeThenReadRun : List (Handle × Event) :=
  ([(.writer, .write [1]), (.writer, .send (.ok ())),
    (.writer, .recv (.ok (boxed .nodeToClient 0 (abcdef 0)))), (.writer, .send (.ok ())),
    (.writer, .lock), (.writer, .recv (.ok ⟨.ack, 0, []⟩)), (.writer, .lock), (.writer, .lock),
    (.reader, .read 16)] : List (Handle × Event)) ++ readsOne (boxed .nodeToClient 1 (abcdef 1))

/-- Nothing is pending, nothing is in the hands of either thread. -/
structure Drained (x : ForegroundUdpSession) : Prop where
  pendingRead : x.pendingRead = []
  reader : (∃ n, x.reader = .recv n) ∨ x.reader = .idle
  empty : x.writer.empty = true

/-- Without another data packet a drained session returns nothing more. -/
theorem Drained.step (hx : Drained x) {ev : Handle × Event} (quiet : ev.2.arrives = false)
    (hs : x.step σ ev = some y) : Drained y ∧ y.returned = x.returned := by
  obtain ⟨h, e⟩ := ev
  cases h with
  | writer =>
    have hy := writerStep_beside hx.empty quiet hs
    refine ⟨⟨hy.pendingRead.trans hx.pendingRead, ?_, hy.empty⟩, hy.returned⟩
    rw [hy.reader]
    exact hx.reader
  | reader =>
    have hend : ∀ n q, (Outcome.read n q).bytes = [] →
        Drained (x.endRead n q) ∧ (x.endRead n q).returned = x.returned := by
      intro n q hq
      refine ⟨⟨hx.pendingRead, Or.inr rfl, hx.empty⟩, ?_⟩
      rw [returned_endRead, hq, List.append_nil]
    simp only [ForegroundUdpSession.step, readerStep] at hs
    rcases hx.reader with ⟨n, hr⟩ | hr
    · rw [hr] at hs
      cases e with
      | recv q =>
        cases q with
        | error error =>
          cases hs
          exact hend n _ rfl
        | ok q =>
          cases hk : q.kind with
          | data => simp [Event.arrives, hk] at quiet
          | close =>
            simp only [hk] at hs
            cases hs
            exact hend n _ rfl
          | hello | helloAck | ack =>
            simp only [hk] at hs
            cases hs
            exact ⟨hx, rfl⟩
      | read _ | write _ | lock | send _ => cases hs
    · rw [hr] at hs
      cases e with
      | read n =>
        have hnone : x.pendingRead.isEmpty = true := by rw [hx.pendingRead]; rfl
        dsimp only at hs
        rw [if_pos hnone] at hs
        cases hs
        exact ⟨⟨hx.pendingRead, Or.inl ⟨n, rfl⟩, hx.empty⟩, rfl⟩
      | recv _ | write _ | lock | send _ => cases hs

theorem Drained.run (hx : Drained x) : ∀ {es : List (Handle × Event)} {y : ForegroundUdpSession},
    (∀ ev ∈ es, (Prod.snd ev).arrives = false) → exec (ForegroundUdpSession.step σ) x es = some y →
      y.returned = x.returned := by
  intro es
  induction es generalizing x with
  | nil =>
    intro y _ h
    cases h
    rfl
  | cons ev es ih =>
    intro y quiet h
    obtain ⟨z, hz, hrest⟩ := exec_cons_eq_some.mp h
    obtain ⟨hdrained, hret⟩ := hx.step (quiet ev List.mem_cons_self) hz
    rw [ih hdrained (fun ev' hev' => quiet ev' (List.mem_cons_of_mem _ hev')) hrest, hret]

/-- Both packets have arrived and were acknowledged.  `read` returned the first,
and however often the app reads, it never gets the second. -/
theorem read_drops_acknowledged :
    ∃ x, exec (step (onlyCipher abcdef)) init writeThenReadRun = some x ∧
      x.arrived = [0, 1] ∧ x.acked = [0, 1] ∧ x.returned = [97, 98, 99] ∧
      ¬ Returns (onlyCipher abcdef) abcdef x 1 ∧ ¬ x.Faithful (onlyCipher abcdef) abcdef := by
  obtain ⟨x, hx, harr, hack, hret, hpend, hreader, hempty⟩ :
      ∃ x, exec (step (onlyCipher abcdef)) init writeThenReadRun = some x ∧
        x.arrived = [0, 1] ∧ x.acked = [0, 1] ∧ x.returned = [97, 98, 99] ∧
        x.pendingRead = [] ∧ x.reader = .recv 16 ∧ x.writer.empty = true := by
    decide +kernel
  have hdrained : Drained x := ⟨hpend, Or.inl ⟨16, hreader⟩, hempty⟩
  have hnot : ¬ Returns (onlyCipher abcdef) abcdef x 1 := by
    rintro ⟨es, y, hquiet, hes, hpre⟩
    rw [hdrained.run hquiet hes, hret] at hpre
    exact absurd hpre (by decide)
  refine ⟨x, hx, harr, hack, hret, hnot, fun hfaith => hnot ?_⟩
  refine hfaith.2 1 (by simp [hack]) ?_
  intro j hj
  rw [harr]
  have hle := UInt64.le_iff_toNat_le.mp hj
  have hcases : j.toNat = 0 ∨ j.toNat = 1 := by
    have : (1 : UInt64).toNat = 1 := rfl
    omega
  rcases hcases with h | h
  · rw [UInt64.toNat_inj.mp (show j.toNat = (0 : UInt64).toNat from h)]
    decide
  · rw [UInt64.toNat_inj.mp (show j.toNat = (1 : UInt64).toNat from h)]
    decide

end ForegroundUdpSession

end MediumOverlay
