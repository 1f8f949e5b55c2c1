import MediumOverlay.Transport.SessionState

/-!
# Calls on a session stream

`read` and `write` of `UdpSessionStream` as a machine.  A handle of a stream is
idle or inside one of its two calls, and a `Call` says where.  Between two
positions stands one action that another thread can see: a critical section on
the shared state, a packet taken from the socket or the inbox, a packet sent.

* `recv`: inside `recv_session_packet`, called by `read` or by `wait_for_ack`.
* `handle`: inside `handle_data_packet`, before its lock.
* `ack`: inside `handle_data_packet`, at its `send_ack`.
* `drain`: `read`, at the lock after `handle_data_packet`.
* `send`: `write`, at the `send_packet_to` of an attempt.
* `commit`: `write`, at the lock after `wait_for_ack` returned.

The first critical section of a call runs when the call is made.  What the
environment decides is in the event: the packet or error that is received, the
outcome of a send.  `Call.step` is otherwise a function.

`Call.Rule` lists what a step can do, and `Call.step_rule` says the list is
complete.  Every invariant below is proved over the rules.
-/

namespace MediumOverlay

/-- The AEAD of a session under its key: both functions take the nonce first.
The source uses `ChaCha20Poly1305` keyed by the SHA-256 of the token. -/
structure Cipher where
  encrypt : Bytes → Bytes → Option Bytes
  decrypt : Bytes → Bytes → Option Bytes

/-- Decryption undoes encryption. -/
def Cipher.Correct (σ : Cipher) : Prop :=
  ∀ nonce plaintext ciphertext,
    σ.encrypt nonce plaintext = some ciphertext → σ.decrypt nonce ciphertext = some plaintext

/-- A chunk is always sealed: the AEAD refuses only plaintexts far beyond a packet. -/
def Cipher.SealsChunks (σ : Cipher) : Prop :=
  ∀ nonce plaintext, plaintext.length ≤ MAX_PAYLOAD_LEN → σ.encrypt nonce plaintext ≠ none

/-- The locals of a `write`: its argument, the sequence number and ciphertext of
its packet, and the index of the attempt. -/
structure Writing where
  bytes : Bytes
  seq : UInt64
  ciphertext : Bytes
  attempt : Nat
deriving DecidableEq, Repr

/-- `&bytes[..bytes.len().min(MAX_PAYLOAD_LEN)]`. -/
def chunkOf (bytes : Bytes) : Bytes := bytes.take MAX_PAYLOAD_LEN

def Writing.packet (w : Writing) : Packet := ⟨.data, w.seq, w.ciphertext⟩

/-- The call that waits for a packet. -/
inductive Op where
  | read (len : Nat)
  | write (w : Writing)
deriving DecidableEq, Repr

/-- The predicate the call hands to `recv_session_packet`. -/
def Op.wants : Op → Packet → Bool
  | .read _, p => p.kind = .data || p.kind = .close
  | .write _, p => p.kind = .ack || p.kind = .data || p.kind = .close

/-- Where a handle stands. -/
inductive Call where
  | idle
  | recv (op : Op)
  | handle (op : Op) (packet : Packet)
  | ack (op : Op) (seq : UInt64)
  | drain (len : Nat)
  | send (w : Writing)
  | commit (w : Writing)
deriving DecidableEq, Repr

/-- A finished call with its argument and its result.  The result of a `read`
is the bytes it put into the buffer. -/
inductive Done where
  | read (len : Nat) (result : Except IoError Bytes)
  | write (bytes : Bytes) (result : Except IoError Nat)
deriving DecidableEq

/-- What happens next at a handle. -/
inductive Event where
  | read (len : Nat)
  | write (bytes : Bytes)
  | lock
  | recv (result : Except IoError Packet)
  | send (result : Except IoError Unit)

/-- The outcome of a step. -/
structure Next where
  call : Call
  state : SessionState
  done : Option Done := none

/-- The call returns an error. -/
def Op.fail (op : Op) (e : IoError) : Done :=
  match op with
  | .read len => .read len (.error e)
  | .write w => .write w.bytes (.error e)

/-- Where the call continues after `handle_data_packet`. -/
def Op.resume : Op → Call
  | .read len => .drain len
  | .write w => .recv (.write w)

/-- The critical sections of `read`: fill the buffer from `pending_read`, or go
on to wait. -/
def readLocked (len : Nat) (s : SessionState) : Next :=
  if s.pendingRead.isEmpty then
    ⟨.recv (.read len), s, none⟩
  else
    ⟨.idle, (s.drainPending len).2, some (.read len (.ok (s.drainPending len).1))⟩

/-- The loops of `read` and `wait_for_ack` on a packet that was asked for. -/
def Op.receive (op : Op) (s : SessionState) (p : Packet) : Next :=
  match p.kind, op with
  | .data, op => ⟨.handle op p, s, none⟩
  | .close, .read len => ⟨.idle, s, some (.read len (.ok []))⟩
  | .close, .write w => ⟨.idle, s, some (.write w.bytes (.error ⟨.unexpectedEof, ""⟩))⟩
  -- an acknowledgement of another number is skipped without a new attempt
  | .ack, .write w => if p.seq = w.seq then ⟨.commit w, s, none⟩ else ⟨.recv (.write w), s, none⟩
  | _, op => ⟨.recv op, s, none⟩

/-- `recv_session_packet` failed.  A `write` whose wait timed out goes to its
next attempt, if it has one. -/
def Op.receiveError (op : Op) (s : SessionState) (e : IoError) : Next :=
  match op with
  | .read len => ⟨.idle, s, some (.read len (.error e))⟩
  | .write w =>
    if e.isTimeout && w.attempt + 1 < RETRIES then
      ⟨.send { w with attempt := w.attempt + 1 }, s, none⟩
    else
      ⟨.idle, s, some (.write w.bytes (.error e))⟩

/-- One step of a handle of the stream that sends in direction `d`. -/
def Call.step (σ : Cipher) (d : Direction) (c : Call) (s : SessionState) (e : Event) :
    Option Next :=
  match c, e with
  | .idle, .read len => some (readLocked len s)
  | .idle, .write bytes =>
    match σ.encrypt (nonceBytes d s.sendSeq) (chunkOf bytes) with
    | none =>
      some ⟨.idle, s, some (.write bytes (.error (.other "UDP session encrypt failed")))⟩
    | some ciphertext => some ⟨.send ⟨bytes, s.sendSeq, ciphertext, 0⟩, s, none⟩
  | .recv op, .recv (.ok p) => if op.wants p then some (op.receive s p) else none
  | .recv op, .recv (.error e) => some (op.receiveError s e)
  -- the packet was sealed by the peer, in its own direction
  | .handle op p, .lock =>
    match σ.decrypt (nonceBytes d.peer p.seq) p.payload with
    | none => some ⟨.idle, s, some (op.fail (.other "UDP session decrypt failed"))⟩
    | some plaintext =>
      (s.handleData p.seq plaintext).map fun t => ⟨.ack op p.seq, t, none⟩
  | .ack op _, .send (.ok _) => some ⟨op.resume, s, none⟩
  -- `send_ack` wraps its error, so its kind is lost
  | .ack op _, .send (.error e) => some ⟨.idle, s, some (op.fail (.other e.message))⟩
  | .drain len, .lock => some (readLocked len s)
  | .send w, .send (.ok _) => some ⟨.recv (.write w), s, none⟩
  | .send w, .send (.error e) =>
    some ⟨.idle, s, some (.write w.bytes (.error (.other e.message)))⟩
  | .commit w, .lock =>
    (checkedSucc s.sendSeq).map fun next =>
      ⟨.idle, { s with sendSeq := next }, some (.write w.bytes (.ok (chunkOf w.bytes).length))⟩
  | _, _ => none

/-- The packet a handle is about to send. -/
def Call.outgoing : Call → Option Packet
  | .send w => some w.packet
  | .ack _ seq => some ⟨.ack, seq, []⟩
  | _ => none

/-- The `write` a handle is in, whatever its attempt. -/
def Call.writing? : Call → Option Writing
  | .recv (.write w) => some { w with attempt := 0 }
  | .handle (.write w) _ => some { w with attempt := 0 }
  | .ack (.write w) _ => some { w with attempt := 0 }
  | .send w => some { w with attempt := 0 }
  | .commit w => some { w with attempt := 0 }
  | _ => none

/-! ## The rules -/

/-- What a step can do, rule by rule. -/
inductive Call.Rule (σ : Cipher) (d : Direction) (s : SessionState) :
    Call → Event → Call → SessionState → Option Done → Prop where
  /-- `read` finds bytes waiting and returns. -/
  | fill {c : Call} {e : Event} (len : Nat)
      (at_read : (c = .idle ∧ e = .read len) ∨ (c = .drain len ∧ e = .lock))
      (waiting : s.pendingRead ≠ []) :
      Rule σ d s c e .idle { s with pendingRead := s.pendingRead.drop len }
        (some (.read len (.ok (s.pendingRead.take len))))
  /-- `read` finds nothing and waits for a packet. -/
  | wait {c : Call} {e : Event} (len : Nat)
      (at_read : (c = .idle ∧ e = .read len) ∨ (c = .drain len ∧ e = .lock))
      (empty : s.pendingRead = []) :
      Rule σ d s c e (.recv (.read len)) s none
  | noSeal (bytes : Bytes) (failed : σ.encrypt (nonceBytes d s.sendSeq) (chunkOf bytes) = none) :
      Rule σ d s .idle (.write bytes) .idle s
        (some (.write bytes (.error (.other "UDP session encrypt failed"))))
  | «seal» (bytes ciphertext : Bytes)
      (sealed : σ.encrypt (nonceBytes d s.sendSeq) (chunkOf bytes) = some ciphertext) :
      Rule σ d s .idle (.write bytes) (.send ⟨bytes, s.sendSeq, ciphertext, 0⟩) s none
  | data (op : Op) (p : Packet) (kind : p.kind = .data) :
      Rule σ d s (.recv op) (.recv (.ok p)) (.handle op p) s none
  /-- `Close` ends a `read` with no bytes. -/
  | readClose (len : Nat) (p : Packet) (kind : p.kind = .close) :
      Rule σ d s (.recv (.read len)) (.recv (.ok p)) .idle s (some (.read len (.ok [])))
  | writeClose (w : Writing) (p : Packet) (kind : p.kind = .close) :
      Rule σ d s (.recv (.write w)) (.recv (.ok p)) .idle s
        (some (.write w.bytes (.error ⟨.unexpectedEof, ""⟩)))
  /-- The acknowledgement a `write` waits for. -/
  | acked (w : Writing) (p : Packet) (kind : p.kind = .ack) (seq : p.seq = w.seq) :
      Rule σ d s (.recv (.write w)) (.recv (.ok p)) (.commit w) s none
  /-- An old acknowledgement is dropped. -/
  | ackedOther (w : Writing) (p : Packet) (kind : p.kind = .ack) (seq : p.seq ≠ w.seq) :
      Rule σ d s (.recv (.write w)) (.recv (.ok p)) (.recv (.write w)) s none
  | retry (w : Writing) (e : IoError) (timeout : e.isTimeout = true)
      (left : w.attempt + 1 < RETRIES) :
      Rule σ d s (.recv (.write w)) (.recv (.error e)) (.send { w with attempt := w.attempt + 1 })
        s none
  /-- A failed receive ends the call, except where `retry` applies. -/
  | recvFail (op : Op) (e : IoError) :
      Rule σ d s (.recv op) (.recv (.error e)) .idle s (some (op.fail e))
  | reject (op : Op) (p : Packet)
      (forged : σ.decrypt (nonceBytes d.peer p.seq) p.payload = none) :
      Rule σ d s (.handle op p) .lock .idle s
        (some (op.fail (.other "UDP session decrypt failed")))
  | record (op : Op) (p : Packet) (plaintext : Bytes) (t : SessionState)
      (opened : σ.decrypt (nonceBytes d.peer p.seq) p.payload = some plaintext)
      (handled : s.handleData p.seq plaintext = some t) :
      Rule σ d s (.handle op p) .lock (.ack op p.seq) t none
  | ackSent (op : Op) (seq : UInt64) :
      Rule σ d s (.ack op seq) (.send (.ok ())) op.resume s none
  | ackFail (op : Op) (seq : UInt64) (e : IoError) :
      Rule σ d s (.ack op seq) (.send (.error e)) .idle s (some (op.fail (.other e.message)))
  | sent (w : Writing) :
      Rule σ d s (.send w) (.send (.ok ())) (.recv (.write w)) s none
  | sendFail (w : Writing) (e : IoError) :
      Rule σ d s (.send w) (.send (.error e)) .idle s
        (some (.write w.bytes (.error (.other e.message))))
  | commit (w : Writing) (next : UInt64) (bumped : checkedSucc s.sendSeq = some next) :
      Rule σ d s (.commit w) .lock .idle { s with sendSeq := next }
        (some (.write w.bytes (.ok (chunkOf w.bytes).length)))

variable {c : Call} {e : Event}

theorem readLocked_rule (σ : Cipher) (d : Direction) (s : SessionState) (len : Nat)
    (h : (c = .idle ∧ e = .read len) ∨ (c = .drain len ∧ e = .lock)) :
    Call.Rule σ d s c e (readLocked len s).call (readLocked len s).state
      (readLocked len s).done := by
  unfold readLocked
  split
  next hempty => exact .wait len h (List.isEmpty_iff.mp hempty)
  next hne => exact .fill len h (fun he => hne (by rw [he]; rfl))

theorem receive_rule (σ : Cipher) (d : Direction) (s : SessionState) (op : Op) (p : Packet)
    (h : op.wants p = true) :
    Call.Rule σ d s (.recv op) (.recv (.ok p)) (op.receive s p).call (op.receive s p).state
      (op.receive s p).done := by
  cases hk : p.kind with
  | data =>
    simp only [Op.receive, hk]
    exact .data op p hk
  | close =>
    cases op with
    | read len =>
      simp only [Op.receive, hk]
      exact .readClose len p hk
    | write w =>
      simp only [Op.receive, hk]
      exact .writeClose w p hk
  | ack =>
    cases op with
    | read len => simp [Op.wants, hk] at h
    | write w =>
      simp only [Op.receive, hk]
      split
      next hs => exact .acked w p hk hs
      next hs => exact .ackedOther w p hk hs
  | hello => cases op <;> simp [Op.wants, hk] at h
  | helloAck => cases op <;> simp [Op.wants, hk] at h

theorem receiveError_rule (σ : Cipher) (d : Direction) (s : SessionState) (op : Op)
    (e : IoError) :
    Call.Rule σ d s (.recv op) (.recv (.error e)) (op.receiveError s e).call
      (op.receiveError s e).state (op.receiveError s e).done := by
  cases op with
  | read len => exact .recvFail (.read len) e
  | write w =>
    unfold Op.receiveError
    dsimp only
    split
    next hc =>
      simp only [Bool.and_eq_true, decide_eq_true_eq] at hc
      exact .retry w e hc.1 hc.2
    next => exact .recvFail (.write w) e

variable {σ : Cipher} {d : Direction} {s : SessionState}

/-- Every step is an instance of a rule. -/
theorem Call.step_rule {n : Next} (h : c.step σ d s e = some n) :
    Call.Rule σ d s c e n.call n.state n.done := by
  unfold Call.step at h
  split at h
  · cases h
    exact readLocked_rule σ d s _ (Or.inl ⟨rfl, rfl⟩)
  · split at h
    next hc =>
      cases h
      exact .noSeal _ hc
    next ciphertext hc =>
      cases h
      exact .seal _ ciphertext hc
  · split at h
    next hw =>
      cases h
      exact receive_rule σ d s _ _ hw
    next => cases h
  · cases h
    exact receiveError_rule σ d s _ _
  · split at h
    next hnone =>
      cases h
      exact .reject _ _ hnone
    next plaintext hsome =>
      obtain ⟨t, ht, hn⟩ := Option.map_eq_some_iff.mp h
      subst hn
      exact .record _ _ plaintext t hsome ht
  · cases h
    exact .ackSent _ _
  · cases h
    exact .ackFail _ _ _
  · cases h
    exact readLocked_rule σ d s _ (Or.inr ⟨rfl, rfl⟩)
  · cases h
    exact .sent _
  · cases h
    exact .sendFail _ _
  · obtain ⟨next, hnext, hn⟩ := Option.map_eq_some_iff.mp h
    subst hn
    exact .commit _ next hnext
  · cases h

variable {t : SessionState}

/-- A call gets to `handle_data_packet` with a data packet it has just received. -/
theorem Call.Rule.handling {r : Option Done} {op : Op} {p : Packet}
    (h : Call.Rule σ d s c e (.handle op p) t r) : e = .recv (.ok p) ∧ p.kind = .data := by
  generalize hc : Call.handle op p = c' at h
  cases h with
  | data op' p' kind =>
    cases hc
    exact ⟨rfl, kind⟩
  | ackSent op' seq => cases op' <;> cases hc
  | _ => cases hc

/-- A `write` fails because its chunk is not sealed, nothing was received, the peer
closed, a packet does not open, or a packet was not sent. -/
theorem Call.Rule.write_error {c' : Call} {bytes : Bytes} {error : IoError}
    (h : Call.Rule σ d s c e c' t (some (.write bytes (.error error)))) :
    σ.encrypt (nonceBytes d s.sendSeq) (chunkOf bytes) = none ∨ e = .recv (.error error) ∨
      (∃ p, e = .recv (.ok p) ∧ p.kind = .close) ∨
      (∃ op p, c = .handle op p ∧ σ.decrypt (nonceBytes d.peer p.seq) p.payload = none) ∨
      ∃ e', e = .send (.error e') := by
  generalize hr : some (Done.write bytes (.error error)) = r at h
  cases h with
  | noSeal bytes' failed =>
    cases hr
    exact Or.inl failed
  | writeClose w p kind => exact Or.inr (Or.inr (Or.inl ⟨p, rfl, kind⟩))
  | recvFail op error' =>
    cases op with
    | read _ => cases hr
    | write _ =>
      cases hr
      exact Or.inr (Or.inl rfl)
  | reject op p forged => exact Or.inr (Or.inr (Or.inr (Or.inl ⟨op, p, rfl, forged⟩)))
  | ackFail op seq e' => exact Or.inr (Or.inr (Or.inr (Or.inr ⟨e', rfl⟩)))
  | sendFail w e' => exact Or.inr (Or.inr (Or.inr (Or.inr ⟨e', rfl⟩)))
  | _ => cases hr

theorem Call.Rule.handle_lock {c' : Call} {r : Option Done} {op : Op} {p : Packet}
    (h : Call.Rule σ d s (.handle op p) e c' t r) : e = .lock := by
  generalize hc : Call.handle op p = c at h
  cases h with
  | fill len at_read _ => rcases at_read with ⟨rfl, _⟩ | ⟨rfl, _⟩ <;> cases hc
  | wait len at_read _ => rcases at_read with ⟨rfl, _⟩ | ⟨rfl, _⟩ <;> cases hc
  | reject | record => rfl
  | _ => cases hc

end MediumOverlay
