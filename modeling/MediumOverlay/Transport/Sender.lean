import MediumOverlay.Transport.Endpoint

/-!
# The sending half of a stream

A `write` seals its chunk under the current sequence number and sends it until
it is acknowledged, and only then moves the number on.  A `write` that fails
leaves the number where it was.

`Endpoint.stream` is what the sender has committed itself to: the chunks of the
writes that returned `Ok`, and after them the chunk of a write that is under way
or has failed.  A caller that retries a failed write with the same bytes only
ever extends the stream (`stream_isPrefix`).  Then every data packet on the
network opens to the chunk of the stream at its own number (`Sending.step`).
-/

namespace MediumOverlay

open Trace

/-! ## What the writes returned -/

/-- The bytes a finished `write` reported as written. -/
def Done.chunk? : Done → Option Bytes
  | .write bytes (.ok n) => some (bytes.take n)
  | _ => none

/-- The chunks of the writes that returned `Ok`, in order. -/
def acceptedChunks (log : List Done) : List Bytes := log.filterMap Done.chunk?

/-- The chunk of the last `write`, if it failed. -/
def unfinished (log : List Done) : Option Bytes :=
  log.foldl (fun open? r => match r with
    | .write bytes (.error _) => some (chunkOf bytes)
    | .write _ (.ok _) => none
    | .read _ _ => open?) none

/-- The chunk of the last `write`, if it timed out. -/
def timedOut (log : List Done) : Option Bytes :=
  log.foldl (fun open? r => match r with
    | .write bytes (.error e) => if e.isTimeout then some (chunkOf bytes) else none
    | .write _ (.ok _) => none
    | .read _ _ => open?) none

/-- Where writes fail only by timing out the two are the same. -/
theorem timedOut_eq_unfinished {log : List Done}
    (h : ∀ bytes e, .write bytes (.error e) ∈ log → e.isTimeout = true) :
    timedOut log = unfinished log := by
  unfold timedOut unfinished
  refine List.foldl_ext _ _ _ ?_
  intro open? r hr
  cases r with
  | read len q => rfl
  | write bytes q =>
    cases q with
    | ok n => rfl
    | error e => simp [h bytes e hr]

@[simp] theorem acceptedChunks_append (log log' : List Done) :
    acceptedChunks (log ++ log') = acceptedChunks log ++ acceptedChunks log' := by
  simp [acceptedChunks]

@[simp] theorem acceptedChunks_error (bytes : Bytes) (e : IoError) :
    acceptedChunks [.write bytes (.error e)] = [] := rfl

theorem unfinished_concat_read (log : List Done) (len : Nat) (q : Except IoError Bytes) :
    unfinished (log ++ [.read len q]) = unfinished log := by
  simp [unfinished]

theorem unfinished_concat_error (log : List Done) (bytes : Bytes) (e : IoError) :
    unfinished (log ++ [.write bytes (.error e)]) = some (chunkOf bytes) := by
  simp [unfinished]

theorem unfinished_concat_ok (log : List Done) (bytes : Bytes) (n : Nat) :
    unfinished (log ++ [.write bytes (.ok n)]) = none := by
  simp [unfinished]

@[simp] theorem take_length_chunkOf (bytes : Bytes) :
    bytes.take (chunkOf bytes).length = chunkOf bytes := by
  simp [chunkOf, List.take_eq_take_iff]

/-- A `write` that returned `Ok` reported its chunk. -/
@[simp] theorem acceptedChunks_ok (bytes : Bytes) :
    acceptedChunks [.write bytes (.ok (chunkOf bytes).length)] = [chunkOf bytes] := by
  simp [acceptedChunks, Done.chunk?]

/-! ## What a step does to the sending half -/

/-- The effect of a step on the sending half: nothing, a sealed packet, a failed
write, or a write that moves the number on. -/
inductive Call.Sending (σ : Cipher) (d : Direction) (s t : SessionState) (c : Call) (e : Event)
    (c' : Call) (r : Option Done) : Prop where
  | quiet (seq : t.sendSeq = s.sendSeq) (writing : c'.writing? = c.writing?)
      (not_write : ∀ bytes, e ≠ .write bytes) (read : ∀ bytes q, r ≠ some (.write bytes q))
      (acked : ∀ w, c' = .commit w → ∃ p, e = .recv (.ok p) ∧ p.kind = .ack ∧ p.seq = w.seq)
  | start (bytes ciphertext : Bytes) (idle : c = .idle) (at_write : e = .write bytes)
      (sealed : σ.encrypt (nonceBytes d s.sendSeq) (chunkOf bytes) = some ciphertext)
      (call : c' = .send ⟨bytes, s.sendSeq, ciphertext, 0⟩) (seq : t.sendSeq = s.sendSeq)
      (done : r = none)
  | fail (bytes : Bytes) (error : IoError)
      (was : (c = .idle ∧ e = .write bytes) ∨
        (∃ w, c.writing? = some w ∧ w.bytes = bytes) ∧ ∀ bytes, e ≠ .write bytes)
      (call : c' = .idle) (seq : t.sendSeq = s.sendSeq)
      (done : r = some (.write bytes (.error error)))
  | commit (w : Writing) (at_commit : c = .commit w) (lock : e = .lock) (call : c' = .idle)
      (seq : t.sendSeq.toNat = s.sendSeq.toNat + 1)
      (done : r = some (.write w.bytes (.ok (chunkOf w.bytes).length)))

theorem Call.Rule.sending {σ : Cipher} {d : Direction} {s t : SessionState} {c c' : Call}
    {e : Event} {r : Option Done} (h : Call.Rule σ d s c e c' t r) :
    Call.Sending σ d s t c e c' r := by
  cases h with
  | fill len at_read _ =>
    rcases at_read with ⟨rfl, rfl⟩ | ⟨rfl, rfl⟩
    all_goals exact .quiet rfl rfl (by simp) (by simp) (by simp)
  | wait len at_read _ =>
    rcases at_read with ⟨rfl, rfl⟩ | ⟨rfl, rfl⟩
    all_goals exact .quiet rfl rfl (by simp) (by simp) (by simp)
  | noSeal bytes _ => exact .fail bytes _ (Or.inl ⟨rfl, rfl⟩) rfl rfl rfl
  | «seal» bytes ciphertext sealed => exact .start bytes ciphertext rfl rfl sealed rfl rfl rfl
  | data op p _ => cases op <;> exact .quiet rfl rfl (by simp) (by simp) (by simp)
  | readClose len p _ => exact .quiet rfl rfl (by simp) (by simp) (by simp)
  | writeClose w p _ => exact .fail w.bytes _ (Or.inr ⟨⟨_, rfl, rfl⟩, by simp⟩) rfl rfl rfl
  | acked w p kind seq =>
    refine .quiet rfl rfl (by simp) (by simp) ?_
    intro w' hw
    cases hw
    exact ⟨p, rfl, kind, seq⟩
  | ackedOther w p _ _ => exact .quiet rfl rfl (by simp) (by simp) (by simp)
  | retry w e _ _ => exact .quiet rfl rfl (by simp) (by simp) (by simp)
  | recvFail op e =>
    cases op with
    | read len => exact .quiet rfl rfl (by simp) (by simp [Op.fail]) (by simp)
    | write w => exact .fail w.bytes e (Or.inr ⟨⟨_, rfl, rfl⟩, by simp⟩) rfl rfl rfl
  | reject op p _ =>
    cases op with
    | read len => exact .quiet rfl rfl (by simp) (by simp [Op.fail]) (by simp)
    | write w => exact .fail w.bytes _ (Or.inr ⟨⟨_, rfl, rfl⟩, by simp⟩) rfl rfl rfl
  | record op p plaintext t _ handled =>
    have hseq := SessionState.handleData_sendSeq handled
    cases op <;> exact .quiet hseq rfl (by simp) (by simp) (by simp)
  | ackSent op seq =>
    cases op <;> exact .quiet rfl rfl (by simp) (by simp) (by simp [Op.resume])
  | ackFail op seq e =>
    cases op with
    | read len => exact .quiet rfl rfl (by simp) (by simp [Op.fail]) (by simp)
    | write w => exact .fail w.bytes _ (Or.inr ⟨⟨_, rfl, rfl⟩, by simp⟩) rfl rfl rfl
  | sent w => exact .quiet rfl rfl (by simp) (by simp) (by simp)
  | sendFail w e => exact .fail w.bytes _ (Or.inr ⟨⟨_, rfl, rfl⟩, by simp⟩) rfl rfl rfl
  | commit w next bumped => exact .commit w rfl rfl rfl (checkedSucc_toNat bumped) rfl

/-- A result that is no `write` leaves the accounts of the writes alone. -/
theorem accounts_of_read (log : List Done) {r : Option Done}
    (h : ∀ bytes q, r ≠ some (.write bytes q)) :
    acceptedChunks (log ++ r.toList) = acceptedChunks log ∧
      unfinished (log ++ r.toList) = unfinished log := by
  cases r with
  | none => simp
  | some done =>
    cases done with
    | read len q =>
      refine ⟨?_, unfinished_concat_read log len q⟩
      simp [acceptedChunks, Done.chunk?]
    | write bytes q => exact absurd rfl (h bytes q)

namespace Endpoint

variable {σ : Cipher} {d : Direction} {x y : Endpoint} {h : Handle} {e : Event}

/-- The chunk of the `write` that is under way, or of one that failed. -/
def openChunk (x : Endpoint) : Option Bytes :=
  match x.writer.writing? with
  | some w => some (chunkOf w.bytes)
  | none => unfinished x.log

/-- The chunks the sender has committed itself to. -/
def stream (x : Endpoint) : List Bytes := acceptedChunks x.log ++ x.openChunk.toList

/-- A `write` after a failed one offers the same chunk. -/
def RetriesSame (x : Endpoint) (e : Event) : Prop :=
  match e with
  | .write bytes => ∀ chunk ∈ unfinished x.log, chunkOf bytes = chunk
  | _ => True

instance (x : Endpoint) : ∀ e, Decidable (x.RetriesSame e)
  | .write bytes => inferInstanceAs (Decidable (∀ chunk ∈ unfinished x.log, chunkOf bytes = chunk))
  | .read _ | .lock | .recv _ | .send _ => .isTrue trivial

/-- The books of the writes, which every environment leaves in order. -/
structure Tracking (x : Endpoint) : Prop where
  /-- The reader never writes. -/
  reader : x.reader.writing? = none
  /-- The sequence number counts the writes that returned `Ok`. -/
  count : (acceptedChunks x.log).length = x.state.sendSeq.toNat
  /-- A `write` is under the current number, of bytes that were offered. -/
  writing : ∀ w, x.writer.writing? = some w → w.seq = x.state.sendSeq ∧ w.bytes ∈ x.offered
  /-- What a `write` returned is about bytes that were offered. -/
  offered : ∀ bytes q, .write bytes q ∈ x.log → bytes ∈ x.offered ∧
    ∀ n, q = .ok n → n = min bytes.length MAX_PAYLOAD_LEN

/-- Every data packet opens, the one of the `write` under way to its chunk. -/
structure Sealing (σ : Cipher) (d : Direction) (x : Endpoint) : Prop extends Tracking x where
  sealed : ∀ w, x.writer.writing? = some w →
    σ.decrypt (nonceBytes d w.seq) w.ciphertext = some (chunkOf w.bytes)
  authentic : ∀ p ∈ x.sent, p.kind = .data →
    ∃ b, σ.decrypt (nonceBytes d p.seq) p.payload = some b

theorem Tracking.init : Tracking Endpoint.init := by
  refine ⟨rfl, rfl, ?_, ?_⟩
  · intro w hw
    cases hw
  · intro bytes q hq
    cases hq

theorem Sealing.init : Sealing σ d Endpoint.init := by
  refine ⟨.init, ?_, ?_⟩
  · intro w hw
    cases hw
  · intro p hp
    cases hp

theorem writer_after_writer (x : Endpoint) (e : Event) (n : Next) :
    (x.after .writer e n).writer = n.call := rfl

variable {bytes : Bytes}

theorem offered_subset_after (n : Next) (hb : bytes ∈ x.offered) :
    bytes ∈ (x.after h e n).offered :=
  List.mem_append_left _ hb

variable {w : Writing}

/-- A handle that is in a `write` is the writer. -/
theorem Tracking.writer_of_writing (hx : Tracking x) (hw : (x.call h).writing? = some w) :
    h = .writer := by
  cases h with
  | reader =>
    have hr := hx.reader
    simp only [call] at hw
    rw [hr] at hw
    cases hw
  | writer => rfl

/-- A step that offers bytes to `write` is the writer's. -/
theorem writer_of_write (hs : x.step σ d (h, .write bytes) = some y) : h = .writer := by
  cases h with
  | reader => cases hs
  | writer => rfl

variable {n : Next}

/-- A step that keeps the `write` of its handle keeps the writer's. -/
theorem Tracking.after_quiet (hx : Tracking x) (hw : n.call.writing? = (x.call h).writing?) :
    (x.after h e n).reader.writing? = none ∧
      (x.after h e n).writer.writing? = x.writer.writing? := by
  cases h with
  | reader => exact ⟨hw.trans hx.reader, rfl⟩
  | writer => exact ⟨hx.reader, hw⟩

/-- A handle that gets back to idle leaves no `write` of its own. -/
theorem Tracking.after_idle (hx : Tracking x) (hc : n.call = .idle) :
    (x.after h e n).reader.writing? = none ∧
      ∀ w, (x.after h e n).writer.writing? = some w → x.writer.writing? = some w := by
  have hnone : n.call.writing? = none := by rw [hc]; rfl
  cases h with
  | reader => exact ⟨hnone, fun w hw => hw⟩
  | writer =>
    refine ⟨hx.reader, ?_⟩
    intro w hw
    rw [writer_after_writer, hnone] at hw
    cases hw

theorem Tracking.offered_old (hx : Tracking x) (n : Next) {q : Except IoError Nat}
    (hq : .write bytes q ∈ x.log) :
    bytes ∈ (x.after h e n).offered ∧ ∀ m, q = .ok m → m = min bytes.length MAX_PAYLOAD_LEN := by
  obtain ⟨hin, hlen⟩ := hx.offered bytes q hq
  exact ⟨offered_subset_after n hin, hlen⟩

/-- The bytes of a failing `write` were offered. -/
theorem Tracking.fail_offered (hx : Tracking x) (n : Next)
    (was : (x.call h = .idle ∧ e = .write bytes) ∨
      (∃ w, (x.call h).writing? = some w ∧ w.bytes = bytes) ∧ ∀ bytes, e ≠ .write bytes) :
    bytes ∈ (x.after h e n).offered := by
  rcases was with ⟨_, rfl⟩ | ⟨⟨w, hw, rfl⟩, _⟩
  · exact List.mem_append_right _ (List.mem_singleton.mpr rfl)
  · have hh := hx.writer_of_writing hw
    subst hh
    exact offered_subset_after n (hx.writing w hw).2

/-- Every step keeps the books. -/
theorem Tracking.step (hx : Tracking x) (hs : x.step σ d (h, e) = some y) : Tracking y := by
  have hwriter := fun bytes (he : e = .write bytes) => writer_of_write (he ▸ hs)
  obtain ⟨n, rfl, hr⟩ := step_rule hs
  cases hr.sending with
  | quiet seq writing not_write read acked =>
    obtain ⟨hreader, hwriting⟩ := hx.after_quiet (e := e) writing
    obtain ⟨hacc, _⟩ := accounts_of_read x.log read
    refine ⟨hreader, ?_, ?_, ?_⟩
    · show (acceptedChunks (x.log ++ n.done.toList)).length = n.state.sendSeq.toNat
      rw [hacc, seq]
      exact hx.count
    · intro w hw
      rw [hwriting] at hw
      obtain ⟨hseq, hoff⟩ := hx.writing w hw
      exact ⟨hseq.trans seq.symm, offered_subset_after n hoff⟩
    · intro bytes q hq
      rcases List.mem_append.mp hq with hq | hq
      · exact hx.offered_old n hq
      · exact absurd (Option.mem_toList.mp hq) (read bytes q)
  | start bytes ciphertext idle at_write sealed call seq done =>
    have hh := hwriter bytes at_write
    subst hh
    refine ⟨hx.reader, ?_, ?_, ?_⟩
    · show (acceptedChunks (x.log ++ n.done.toList)).length = n.state.sendSeq.toNat
      rw [done, seq, Option.toList_none, List.append_nil]
      exact hx.count
    · intro w hw
      rw [writer_after_writer, call] at hw
      cases hw
      refine ⟨seq.symm, ?_⟩
      rw [at_write]
      exact List.mem_append_right _ (List.mem_singleton.mpr rfl)
    · intro bytes q hq
      rcases List.mem_append.mp hq with hq | hq
      · exact hx.offered_old n hq
      · rw [done] at hq
        cases hq
  | fail bytes error was call seq done =>
    have hoff := hx.fail_offered n was
    obtain ⟨hreader, hold⟩ := hx.after_idle (h := h) (e := e) call
    refine ⟨hreader, ?_, ?_, ?_⟩
    · show (acceptedChunks (x.log ++ n.done.toList)).length = n.state.sendSeq.toNat
      rw [done, seq]
      simpa using hx.count
    · intro w hw
      obtain ⟨hseq, hin⟩ := hx.writing w (hold w hw)
      exact ⟨hseq.trans seq.symm, offered_subset_after n hin⟩
    · intro bytes' q hq
      rcases List.mem_append.mp hq with hq | hq
      · exact hx.offered_old n hq
      · rw [done] at hq
        cases List.mem_singleton.mp hq
        exact ⟨hoff, fun m hm => by cases hm⟩
  | commit w at_commit lock call seq done =>
    have hw : (x.call h).writing? = some { w with attempt := 0 } := by rw [at_commit]; rfl
    have hh := hx.writer_of_writing hw
    subst hh
    obtain ⟨_, hoff⟩ := hx.writing _ hw
    refine ⟨hx.reader, ?_, ?_, ?_⟩
    · show (acceptedChunks (x.log ++ n.done.toList)).length = n.state.sendSeq.toNat
      rw [done, seq, ← hx.count]
      simp
    · intro w' hw'
      rw [writer_after_writer, call] at hw'
      cases hw'
    · intro bytes q hq
      rcases List.mem_append.mp hq with hq | hq
      · exact hx.offered_old n hq
      · rw [done] at hq
        cases List.mem_singleton.mp hq
        refine ⟨offered_subset_after n hoff, ?_⟩
        intro m hm
        cases hm
        simp [chunkOf, Nat.min_comm]

/-! ## The packets of the writes -/

/-- The data packets a step sends are the packet of the `write` under way. -/
theorem Tracking.data_sentBy (hx : Tracking x) {p : Packet} (hp : p ∈ sentBy (x.call h) e)
    (hk : p.kind = .data) :
    ∃ w, x.writer.writing? = some w ∧ p = w.packet := by
  rcases mem_sentBy hp with ⟨_, _, hack⟩ | ⟨w, hc, rfl⟩
  · rw [hk] at hack
    cases hack
  · have hw : (x.call h).writing? = some { w with attempt := 0 } := by rw [hc]; rfl
    have hh := hx.writer_of_writing hw
    subst hh
    exact ⟨_, hw, rfl⟩

/-- Every step keeps the packets authentic: a `write` under way was sealed when
it started. -/
theorem Sealing.step (correct : σ.Correct) (hx : Sealing σ d x)
    (hs : x.step σ d (h, e) = some y) : Sealing σ d y := by
  refine ⟨hx.toTracking.step hs, ?_, ?_⟩
  · have hwriter := fun bytes (he : e = .write bytes) => writer_of_write (he ▸ hs)
    obtain ⟨n, rfl, hr⟩ := step_rule hs
    intro w hw
    cases hr.sending with
    | quiet seq writing _ _ _ =>
      rw [(hx.after_quiet writing).2] at hw
      exact hx.sealed w hw
    | start bytes ciphertext idle at_write sealed call seq done =>
      have hh := hwriter bytes at_write
      subst hh
      rw [writer_after_writer, call] at hw
      cases hw
      exact correct _ _ _ sealed
    | fail bytes error was call seq done =>
      exact hx.sealed w ((hx.after_idle call).2 w hw)
    | commit w' at_commit lock call seq done =>
      exact hx.sealed w ((hx.after_idle call).2 w hw)
  · obtain ⟨n, rfl, _⟩ := step_rule hs
    intro p hp hk
    rcases List.mem_append.mp hp with hp | hp
    · exact hx.authentic p hp hk
    · obtain ⟨w, hw, rfl⟩ := hx.data_sentBy hp hk
      exact ⟨_, hx.sealed w hw⟩

/-! ## The stream -/

theorem openChunk_of_writing (hw : x.writer.writing? = some w) :
    x.openChunk = some (chunkOf w.bytes) := by
  simp only [openChunk, hw]

theorem openChunk_of_idle (hw : x.writer.writing? = none) : x.openChunk = unfinished x.log := by
  simp only [openChunk, hw]

/-- The number of chunks is the sequence number, or one more with a `write`
that has not returned `Ok`. -/
theorem Tracking.length_stream (hx : Tracking x) :
    x.state.sendSeq.toNat ≤ x.stream.length ∧ x.stream.length ≤ x.state.sendSeq.toNat + 1 := by
  have hlen : x.openChunk.toList.length ≤ 1 := by
    cases x.openChunk <;> simp
  rw [stream, List.length_append, hx.count]
  omega

/-- The chunk of the `write` under way is the last of the stream. -/
theorem Tracking.stream_writing (hx : Tracking x) (hw : x.writer.writing? = some w) :
    x.stream[w.seq.toNat]? = some (chunkOf w.bytes) := by
  rw [stream, openChunk_of_writing hw, (hx.writing w hw).1, ← hx.count]
  simp

/-- What a step with result `r` does to the accounts of the writes: nothing, a
chunk that is offered, a `write` that fails, or one that is accepted. -/
inductive Accounted (x : Endpoint) (e : Event) (r : Option Done) (y : Endpoint) : Prop where
  | quiet (accepted : acceptedChunks y.log = acceptedChunks x.log)
      (opened : y.openChunk = x.openChunk) (read : ∀ bytes q, r ≠ some (.write bytes q))
      (not_write : ∀ bytes, e ≠ .write bytes)
  | offer (bytes : Bytes) (at_write : e = .write bytes) (was : x.openChunk = unfinished x.log)
      (accepted : acceptedChunks y.log = acceptedChunks x.log)
      (opened : y.openChunk = some (chunkOf bytes))
      (not_ok : ∀ bytes n, r ≠ some (.write bytes (.ok n)))
  | fail (bytes : Bytes) (error : IoError) (was : x.openChunk = some (chunkOf bytes))
      (accepted : acceptedChunks y.log = acceptedChunks x.log)
      (opened : y.openChunk = some (chunkOf bytes)) (done : r = some (.write bytes (.error error)))
      (not_write : ∀ bytes, e ≠ .write bytes)
  | accept (bytes : Bytes) (was : x.openChunk = some (chunkOf bytes))
      (accepted : acceptedChunks y.log = acceptedChunks x.log ++ [chunkOf bytes])
      (opened : y.openChunk = none) (done : r = some (.write bytes (.ok (chunkOf bytes).length)))
      (not_write : ∀ bytes, e ≠ .write bytes)

theorem openChunk_after_read (read : ∀ bytes q, n.done ≠ some (.write bytes q))
    (hw : (x.after h e n).writer.writing? = x.writer.writing?) :
    (x.after h e n).openChunk = x.openChunk := by
  have hunf : unfinished (x.after h e n).log = unfinished x.log :=
    (accounts_of_read x.log read).2
  simp only [openChunk, hw, hunf]

theorem writing?_of_idle (hc : x.call h = .idle) (hh : h = .writer) : x.writer.writing? = none := by
  subst hh
  rw [show x.writer = x.call .writer from rfl, hc]
  rfl

theorem Tracking.accounted (hx : Tracking x) (hs : x.step σ d (h, e) = some y) :
    ∃ r : Option Done, y.log = x.log ++ r.toList ∧ Accounted x e r y := by
  have hwriter := fun bytes (he : e = .write bytes) => writer_of_write (he ▸ hs)
  obtain ⟨n, rfl, hr⟩ := step_rule hs
  refine ⟨n.done, rfl, ?_⟩
  have hlog : (x.after h e n).log = x.log ++ n.done.toList := rfl
  cases hr.sending with
  | quiet seq writing not_write read acked =>
    exact .quiet (accounts_of_read x.log read).1
      (openChunk_after_read read (hx.after_quiet writing).2) read not_write
  | start bytes ciphertext idle at_write sealed call seq done =>
    have hh := hwriter bytes at_write
    have hidle := writing?_of_idle idle hh
    subst hh
    have hnew : (x.after .writer e n).writer.writing?
        = some ⟨bytes, x.state.sendSeq, ciphertext, 0⟩ := by
      rw [writer_after_writer, call]
      rfl
    refine .offer bytes at_write (openChunk_of_idle hidle) ?_ (openChunk_of_writing hnew) ?_
    · rw [hlog, done]
      simp
    · rw [done]
      simp
  | fail bytes error was call seq done =>
    have hacc : acceptedChunks (x.after h e n).log = acceptedChunks x.log := by
      rw [hlog, done]
      simp
    have hunf : unfinished (x.after h e n).log = some (chunkOf bytes) := by
      rw [hlog, done]
      exact unfinished_concat_error x.log bytes error
    have hidle : h = .writer → (x.after h e n).openChunk = some (chunkOf bytes) := by
      rintro rfl
      rw [openChunk_of_idle, hunf]
      rw [writer_after_writer, call]
      rfl
    -- a `write` fails at once if it cannot be sealed, and later in any other way
    rcases was with ⟨idle, at_write⟩ | ⟨⟨w, hw, rfl⟩, not_write⟩
    · have hh := hwriter bytes at_write
      refine .offer bytes at_write (openChunk_of_idle (writing?_of_idle idle hh)) hacc
        (hidle hh) ?_
      rw [done]
      simp
    · have hh := hx.writer_of_writing hw
      subst hh
      exact .fail w.bytes error (openChunk_of_writing hw) hacc (hidle rfl) done not_write
  | commit w at_commit lock call seq done =>
    have hw : (x.call h).writing? = some { w with attempt := 0 } := by rw [at_commit]; rfl
    have hh := hx.writer_of_writing hw
    subst hh
    have hopen : x.openChunk = some (chunkOf w.bytes) :=
      openChunk_of_writing (w := { w with attempt := 0 }) hw
    refine .accept w.bytes hopen ?_ ?_ done (by simp [lock])
    · rw [hlog, done]
      simp
    · rw [openChunk_of_idle, hlog, done]
      · exact unfinished_concat_ok x.log _ _
      · rw [writer_after_writer, call]
        rfl

/-- A step of a caller that retries with the same bytes extends the stream. -/
theorem stream_isPrefix (hx : Tracking x) (same : x.RetriesSame e)
    (hs : x.step σ d (h, e) = some y) : x.stream <+: y.stream := by
  obtain ⟨r, _, hr⟩ := hx.accounted hs
  cases hr with
  | quiet accepted opened _ _ => rw [stream, stream, accepted, opened]
  | offer bytes at_write was accepted opened _ =>
    -- the one step that could replace the open chunk, by another one
    subst at_write
    rw [stream, stream, accepted, opened, was, List.prefix_append_right_inj]
    cases hu : unfinished x.log with
    | none => exact List.nil_prefix
    | some chunk =>
      rw [same chunk hu, Option.toList_some]
  | fail bytes error was accepted opened _ _ => rw [stream, stream, accepted, opened, was]
  | accept bytes was accepted opened _ _ =>
    rw [stream, stream, accepted, opened, was]
    simp

/-- Every data packet that was sent carries the chunk of the stream at its own
number. -/
def Sending (σ : Cipher) (d : Direction) (x : Endpoint) : Prop :=
  ∀ p ∈ x.sent, p.kind = .data →
    ∃ b, σ.decrypt (nonceBytes d p.seq) p.payload = some b ∧ x.stream[p.seq.toNat]? = some b

theorem getElem?_of_isPrefix {α : Type*} {l l' : List α} {i : Nat} {a : α} (h : l <+: l')
    (hi : l[i]? = some a) : l'[i]? = some a := by
  obtain ⟨hlt, rfl⟩ := List.getElem?_eq_some_iff.mp hi
  exact List.prefix_iff_getElem?.mp h i hlt

theorem Sending.step (hx : Sealing σ d x) (hd : Sending σ d x) (same : x.RetriesSame e)
    (hs : x.step σ d (h, e) = some y) : Sending σ d y := by
  have hpre := stream_isPrefix hx.toTracking same hs
  obtain ⟨n, rfl, _⟩ := step_rule hs
  intro p hp hk
  rcases List.mem_append.mp hp with hp | hp
  · obtain ⟨b, hb, hi⟩ := hd p hp hk
    exact ⟨b, hb, getElem?_of_isPrefix hpre hi⟩
  · obtain ⟨w, hw, rfl⟩ := hx.data_sentBy hp hk
    exact ⟨_, hx.sealed w hw, getElem?_of_isPrefix hpre (hx.stream_writing hw)⟩

end Endpoint

end MediumOverlay
