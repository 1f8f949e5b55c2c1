import MediumOverlay.Transport.Session

/-!
# The Android upload path

`StreamBackends` of the Android netstack keeps the bytes of a TCP stream that are
not written yet in `pending_writes`, and `flush_pending_to_writer` offers the
front of that queue to the stream's backend.  Here the backend is the client end
of a UDP session.  The netstack is one thread, so its stream is always in at most
one call.

A `write` that times out leaves the queue as it is, and the bytes are offered
again later.  But the chunk that is offered is cut from the queue each time.  When
more bytes were queued in between and the queue was shorter than a packet, the
`write` reuses the sequence number of the packet that timed out for a longer
chunk (`KeepsChunk` excludes this).  A node that had received the first packet
acknowledges the second without looking at it, and the bytes that were added are
popped and never delivered (`enlarged_loses`).
-/

namespace MediumOverlay

open Trace

/-- Where the netstack stands with the stream. -/
inductive Upload.Task where
  | idle
  /-- At the head of the loop of `flush_pending_to_writer`. -/
  | flush
  /-- At the head of the loop of `pump_reads`. -/
  | read
  /-- In a call of the backend. -/
  | call
  /-- `remove_stream` was called. -/
  | removed
deriving DecidableEq, Repr

/-- A stream of `StreamBackends` with its session.  The chunks that were queued
and the bytes that were popped are history. -/
structure Upload where
  session : Session
  task : Upload.Task
  pending : Bytes
  queued : List Bytes
  popped : Bytes

/-- The length of `scratch` and of the buffer of `pump_reads`. -/
def SCRATCH_LEN : Nat := 8192

namespace Upload

inductive Event where
  /-- `TcpPumpEvent::Received`. -/
  | queue (bytes : Bytes)
  /-- `TcpPumpEvent::Closed`. -/
  | close
  /-- `pump_writes` gets to the stream. -/
  | pumpWrites
  /-- `pump_reads` gets to the stream. -/
  | pumpReads
  /-- The next turn of the loop it is in. -/
  | turn
  /-- The backend's call goes on. -/
  | client (e : MediumOverlay.Event)
  | node (h : Handle) (e : MediumOverlay.Event)

def init : Upload := ⟨.init, .idle, [], [], []⟩

/-- `remove_stream`. -/
def removeStream (x : Upload) : Upload := { x with task := .removed, pending := [] }

/-- What the loops do with the result of a call. -/
def returned (x : Upload) : Done → Upload
  | .write _ (.ok 0) => { x with task := .idle }
  | .write _ (.ok written) =>
    { x with
      task := .flush
      pending := x.pending.drop written
      popped := x.popped ++ x.pending.take written }
  | .write _ (.error e) =>
    if e.isTimeout then { x with task := .idle }
    else if e.kind = .interrupted then { x with task := .flush }
    else x.removeStream
  | .read _ (.ok []) => x.removeStream
  | .read _ (.ok _) => { x with task := .read }
  | .read _ (.error e) =>
    if e.kind = .wouldBlock then { x with task := .idle }
    else if e.kind = .interrupted then { x with task := .read }
    else x.removeStream

/-- A step of the backend's call, with what happens when it returns. -/
def call (σ : Cipher) (x : Upload) (e : MediumOverlay.Event) : Option Upload :=
  (x.session.step σ (.clientToNode, .writer, e)).map fun s =>
    let y := { x with session := s, task := .call }
    match x.session.client.result s.client with
    | none => y
    | some done => y.returned done

def step (σ : Cipher) (x : Upload) : Event → Option Upload
  | .queue bytes =>
    match x.task with
    | .idle =>
      some { x with
        task := .flush, pending := x.pending ++ bytes, queued := x.queued ++ [bytes] }
    | .removed => some x
    | _ => none
  | .close => if x.task = .idle then some x.removeStream else none
  | .pumpWrites => if x.task = .idle then some { x with task := .flush } else none
  | .pumpReads => if x.task = .idle then some { x with task := .read } else none
  | .turn =>
    match x.task with
    | .flush =>
      if x.pending.isEmpty then some { x with task := .idle }
      else x.call σ (.write (x.pending.take SCRATCH_LEN))
    | .read => x.call σ (.read SCRATCH_LEN)
    | _ => none
  | .client e =>
    match x.task, e with
    | .call, .lock => x.call σ .lock
    | .call, .recv q => x.call σ (.recv q)
    | .call, .send q => x.call σ (.send q)
    | _, _ => none
  | .node h e => (x.session.step σ (.nodeToClient, h, e)).map fun s => { x with session := s }

/-- Bytes are queued only while the last `write` did not fail, or when the queue
already fills a packet. -/
def KeepsChunk (x : Upload) : Event → Prop
  | .queue bytes =>
    x.session.client.openChunk = none ∨ MAX_PAYLOAD_LEN ≤ x.pending.length ∨ bytes = []
  | _ => True

instance (x : Upload) : ∀ e, Decidable (x.KeepsChunk e)
  | .queue bytes => inferInstanceAs (Decidable
      (x.session.client.openChunk = none ∨ MAX_PAYLOAD_LEN ≤ x.pending.length ∨ bytes = []))
  | .close | .pumpWrites | .pumpReads | .turn | .client _ | .node _ _ => .isTrue trivial

/-- What the node delivers is a prefix of what was queued, and what was popped
has arrived at the node. -/
def NothingLost (x : Upload) : Prop :=
  returnedBytes x.session.node.log ++ x.session.node.state.pendingRead <+: x.queued.flatten ∧
    x.popped <+: x.session.node.arrived

instance (x : Upload) : Decidable x.NothingLost :=
  inferInstanceAs (Decidable (_ ∧ _))

/-! ## The books -/

/-- The queue and the client's stream agree. -/
structure Books (σ : Cipher) (x : Upload) : Prop where
  linked : Linked σ .clientToNode x.session.client x.session.node
  /-- The popped bytes are those of the writes that returned `Ok`. -/
  popped : x.popped = (acceptedChunks x.session.client.log).flatten
  /-- The client committed itself to queued bytes only. -/
  stream : x.session.client.stream.flatten <+: x.queued.flatten
  /-- What was queued was popped or is pending. -/
  queued : x.task ≠ .removed → x.popped ++ x.pending = x.queued.flatten
  /-- The chunk of a `write` that has not returned `Ok` is the front of the queue. -/
  opened : x.task ≠ .removed → ∀ chunk ∈ x.session.client.openChunk, chunk = chunkOf x.pending

variable {σ : Cipher} {x y : Upload} {e : MediumOverlay.Event}

theorem Books.init (σ : Cipher) : Books σ Upload.init := by
  refine ⟨.init σ _, rfl, List.prefix_rfl, fun _ => rfl, ?_⟩
  intro _ chunk h
  cases h

/-- A step of the netstack that leaves the session and the queue alone, or
removes the stream. -/
theorem Books.of_task (hx : Books σ x) (session : y.session = x.session)
    (queued : y.queued = x.queued) (popped : y.popped = x.popped)
    (alive : y.task ≠ .removed → x.task ≠ .removed ∧ y.pending = x.pending) : Books σ y := by
  refine ⟨session ▸ hx.linked, ?_, ?_, ?_, ?_⟩
  · rw [popped, session]
    exact hx.popped
  · rw [session, queued]
    exact hx.stream
  · intro hy
    rw [popped, queued, (alive hy).2]
    exact hx.queued (alive hy).1
  · intro hy
    rw [session, (alive hy).2]
    exact hx.opened (alive hy).1

/-- Only a `write` that returned `Ok` touches the queue. -/
theorem Books.returned (hx : Books σ x) (alive : x.task ≠ .removed) {r : Done}
    (not_ok : ∀ bytes n, r ≠ .write bytes (.ok n)) : Books σ (x.returned r) := by
  have hremove : Books σ x.removeStream := hx.of_task rfl rfl rfl fun h => absurd rfl h
  have htask : ∀ task, Books σ { x with task := task } := fun task =>
    hx.of_task rfl rfl rfl fun _ => ⟨alive, rfl⟩
  unfold Upload.returned
  split
  next bytes => exact absurd rfl (not_ok bytes 0)
  next bytes n _ => exact absurd rfl (not_ok bytes n)
  next bytes error =>
    split
    · exact htask _
    · split
      · exact htask _
      · exact hremove
  next => exact hremove
  next => exact htask _
  next len error =>
    split
    · exact htask _
    · split
      · exact htask _
      · exact hremove

/-- A `write` that returned `Ok` pops what it wrote. -/
theorem returned_ok (x : Upload) (bytes : Bytes) (n : Nat) :
    ∃ task, x.returned (.write bytes (.ok n)) =
      { x with
        task := task, pending := x.pending.drop n, popped := x.popped ++ x.pending.take n } := by
  cases n with
  | zero => exact ⟨.idle, by simp [Upload.returned]⟩
  | succ k => exact ⟨.flush, rfl⟩

theorem chunkOf_take_scratch (bytes : Bytes) :
    chunkOf (bytes.take SCRATCH_LEN) = chunkOf bytes := by
  simp [chunkOf, List.take_take, SCRATCH_LEN, MAX_PAYLOAD_LEN]

theorem chunkOf_append_of_le {bytes : Bytes} (more : Bytes)
    (h : MAX_PAYLOAD_LEN ≤ bytes.length) : chunkOf (bytes ++ more) = chunkOf bytes := by
  rw [chunkOf, List.take_append_of_le_length h, chunkOf]

/-- The `write` of `flush_pending_to_writer` retries with the same chunk. -/
theorem Books.retriesSame (hx : Books σ x) (alive : x.task ≠ .removed)
    (offers : ∀ bytes, e = .write bytes → bytes = x.pending.take SCRATCH_LEN)
    {s : Session} (hs : x.session.step σ (.clientToNode, .writer, e) = some s) :
    x.session.client.RetriesSame e := by
  cases e with
  | write bytes =>
    intro chunk hchunk
    obtain ⟨z, hz, _, _⟩ := Session.step_eq_some hs
    obtain ⟨r, _, hr⟩ := hx.linked.sealing.accounted hz
    cases hr with
    | offer bytes' at_write was _ _ _ =>
      have hopen := hx.opened alive chunk (by rw [was]; exact hchunk)
      rw [hopen, offers bytes rfl, chunkOf_take_scratch]
    | quiet _ _ _ not_write => exact absurd rfl (not_write bytes)
    | fail _ _ _ _ _ _ not_write => exact absurd rfl (not_write bytes)
    | accept _ _ _ _ _ not_write => exact absurd rfl (not_write bytes)
  | read _ | lock | recv _ | send _ => trivial

/-- A step of the client that accepts no chunk leaves the queue as it is. -/
theorem Books.keep (hx : Books σ x) (alive : x.task ≠ .removed) {z : Endpoint}
    (linked : Linked σ .clientToNode z x.session.node)
    (accepted : acceptedChunks z.log = acceptedChunks x.session.client.log)
    (opened : ∀ chunk ∈ z.openChunk, chunk = chunkOf x.pending) :
    Books σ { x with session := x.session.put .clientToNode z, task := .call } := by
  refine ⟨linked, ?_, ?_, fun _ => hx.queued alive, fun _ => opened⟩
  · show x.popped = (acceptedChunks z.log).flatten
    rw [accepted]
    exact hx.popped
  · show z.stream.flatten <+: _
    rw [Endpoint.stream, accepted, List.flatten_append, ← hx.popped, ← hx.queued alive,
      List.prefix_append_right_inj]
    cases hc : z.openChunk with
    | none => exact List.nil_prefix
    | some chunk =>
      rw [opened chunk hc]
      simpa [chunkOf] using List.take_prefix _ _

/-- A step of the backend's call keeps the books. -/
theorem Books.call (correct : σ.Correct) (hx : Books σ x) (alive : x.task ≠ .removed)
    (offers : ∀ bytes, e = .write bytes → bytes = x.pending.take SCRATCH_LEN)
    (hs : x.call σ e = some y) : Books σ y := by
  obtain ⟨s, hstep, hy⟩ := Option.map_eq_some_iff.mp hs
  have hsame := hx.retriesSame alive offers hstep
  obtain ⟨z, hz, rfl, hnet⟩ := Session.step_eq_some hstep
  have hlinked : Linked σ .clientToNode z x.session.node := hx.linked.sender correct hsame hnet hz
  obtain ⟨r, hlog, hr⟩ := hx.linked.sealing.accounted hz
  have hres : x.session.client.result (x.session.put .clientToNode z).client = r :=
    Endpoint.result_eq hlog
  rw [hres] at hy
  -- the result of such a step only moves the task
  have hkeep : acceptedChunks z.log = acceptedChunks x.session.client.log →
      (∀ chunk ∈ z.openChunk, chunk = chunkOf x.pending) →
      (∀ bytes n, r ≠ some (.write bytes (.ok n))) → Books σ y := by
    intro hacc hopen hno
    have hbooks := hx.keep alive hlinked hacc hopen
    cases r with
    | none =>
      subst hy
      exact hbooks
    | some done =>
      subst hy
      exact hbooks.returned (by simp) fun bytes n h => hno bytes n (by rw [h])
  cases hr with
  | quiet accepted opened read _ =>
    refine hkeep accepted ?_ fun bytes n => read bytes _
    rw [opened]
    exact hx.opened alive
  | offer bytes at_write was accepted opened not_ok =>
    -- what is offered is the front of the queue as it is now
    refine hkeep accepted ?_ not_ok
    intro chunk hchunk
    rw [opened] at hchunk
    cases hchunk
    rw [offers bytes at_write, chunkOf_take_scratch]
  | fail bytes error was accepted opened done _ =>
    refine hkeep accepted ?_ (by simp [done])
    rw [opened, ← was]
    exact hx.opened alive
  | accept bytes was accepted opened done _ =>
    -- the accepted chunk is the front of the queue, and just that is popped
    have hfront : chunkOf bytes = chunkOf x.pending := hx.opened alive _ was
    have hstream : z.stream = x.session.client.stream := by
      rw [Endpoint.stream, Endpoint.stream, accepted, opened, was]
      simp
    have hpopped : x.popped ++ chunkOf x.pending = (acceptedChunks z.log).flatten := by
      rw [accepted, hfront, hx.popped]
      simp
    have htake : x.pending.take (chunkOf bytes).length = chunkOf x.pending := by
      rw [hfront, take_length_chunkOf]
    subst done
    obtain ⟨task, hret⟩ := returned_ok
      { x with session := x.session.put .clientToNode z, task := .call } bytes
      (chunkOf bytes).length
    rw [show y = _ from hy.symm.trans hret]
    refine ⟨hlinked, ?_, ?_, ?_, ?_⟩
    · show x.popped ++ x.pending.take _ = (acceptedChunks z.log).flatten
      rw [htake, hpopped]
    · show z.stream.flatten <+: _
      rw [hstream]
      exact hx.stream
    · intro _
      show x.popped ++ x.pending.take _ ++ x.pending.drop _ = _
      rw [List.append_assoc, List.take_append_drop]
      exact hx.queued alive
    · intro _ chunk hc
      rw [show Session.client _ = z from rfl, opened] at hc
      cases hc

/-- Queuing bytes keeps the front of the queue where it matters. -/
theorem Books.queue (hx : Books σ x) (alive : x.task ≠ .removed) {bytes : Bytes}
    (keeps : x.KeepsChunk (.queue bytes)) :
    Books σ { x with
      task := .flush, pending := x.pending ++ bytes, queued := x.queued ++ [bytes] } := by
  refine ⟨hx.linked, hx.popped, ?_, ?_, ?_⟩
  · show _ <+: (x.queued ++ [bytes]).flatten
    rw [List.flatten_append]
    exact hx.stream.trans (List.prefix_append _ _)
  · intro _
    show x.popped ++ (x.pending ++ bytes) = (x.queued ++ [bytes]).flatten
    rw [← List.append_assoc, hx.queued alive]
    simp
  · intro _ chunk hc
    show chunk = chunkOf (x.pending ++ bytes)
    have hfront := hx.opened alive chunk hc
    -- the new bytes go behind the chunk, so they must not get into it
    rcases keeps with hnone | hfull | rfl
    · rw [hnone] at hc
      cases hc
    · rw [chunkOf_append_of_le bytes hfull]
      exact hfront
    · rw [List.append_nil]
      exact hfront

/-- Every step that keeps the chunk of an unfinished `write` keeps the books. -/
theorem Books.step (correct : σ.Correct) (hx : Books σ x) {ev : Upload.Event}
    (keeps : x.KeepsChunk ev) (hs : x.step σ ev = some y) : Books σ y := by
  have htask : x.task = .idle → ∀ task, Books σ { x with task := task } := fun hidle task =>
    hx.of_task rfl rfl rfl fun _ => ⟨by simp [hidle], rfl⟩
  cases ev with
  | queue bytes =>
    simp only [Upload.step] at hs
    split at hs
    next hidle =>
      cases hs
      exact hx.queue (by simp [hidle]) keeps
    next =>
      cases hs
      exact hx
    next => cases hs
  | close =>
    obtain ⟨_, hy⟩ := Option.ite_none_right_eq_some.mp hs
    cases hy
    exact hx.of_task rfl rfl rfl fun h => absurd rfl h
  | pumpWrites =>
    obtain ⟨hidle, hy⟩ := Option.ite_none_right_eq_some.mp hs
    cases hy
    exact htask hidle _
  | pumpReads =>
    obtain ⟨hidle, hy⟩ := Option.ite_none_right_eq_some.mp hs
    cases hy
    exact htask hidle _
  | turn =>
    simp only [Upload.step] at hs
    split at hs
    next hflush =>
      split at hs
      next =>
        cases hs
        exact hx.of_task rfl rfl rfl fun _ => ⟨by simp [hflush], rfl⟩
      next =>
        refine hx.call correct (by simp [hflush]) ?_ hs
        intro bytes he
        cases he
        rfl
    next hread => exact hx.call correct (by simp [hread]) (by simp) hs
    next => cases hs
  | client e =>
    simp only [Upload.step] at hs
    split at hs
    next hcall => exact hx.call correct (by simp [hcall]) (by simp) hs
    next hcall => exact hx.call correct (by simp [hcall]) (by simp) hs
    next hcall => exact hx.call correct (by simp [hcall]) (by simp) hs
    next => cases hs
  | node h e =>
    obtain ⟨s, hstep, rfl⟩ := Option.map_eq_some_iff.mp hs
    obtain ⟨z, hz, rfl, hnet⟩ := Session.step_eq_some hstep
    have hlinked : Linked σ .clientToNode x.session.client z := hx.linked.receiver hnet hz
    exact ⟨hlinked, hx.popped, hx.stream, hx.queued, hx.opened⟩

/-- **Upload.**  While bytes are queued only behind a finished `write` or behind
a full packet, the node delivers a prefix of what was queued, and every byte that
was popped has arrived there. -/
theorem nothingLost_of_keepsChunk (correct : σ.Correct) (es : List Upload.Event)
    (keeps : Meets (Upload.step σ) KeepsChunk init es)
    (run : exec (Upload.step σ) init es = some x) : x.NothingLost := by
  have hx : Books σ x := by
    refine exec_invariant ?_ es _ _ (Books.init σ) keeps run
    intro s ev t hI hok hs
    exact hI.step correct hok hs
  obtain ⟨rest, harr, hrest⟩ := hx.linked.arrived
  have hdel : returnedBytes x.session.node.log ++ x.session.node.state.pendingRead
      <+: x.session.node.arrived := List.prefix_append _ _
  refine ⟨hdel.trans ?_, ?_⟩
  · rw [harr]
    refine List.IsPrefix.trans ?_ hx.stream
    rw [Endpoint.stream, List.flatten_append, List.prefix_append_right_inj]
    rcases hrest with rfl | hopen
    · exact List.nil_prefix
    · simp [hopen]
  · rw [harr, hx.popped]
    exact List.prefix_append _ _

/-! ### A timed out write and a longer one -/

/-- An attempt of a `write` that is not acknowledged in time. -/
def lostAttempt : List Upload.Event :=
  [.client (.send (.ok ())), .client (.recv (.error ⟨.wouldBlock, ""⟩))]

/-- The node reads one packet and acknowledges it. -/
def nodeReads (p : Packet) : List Upload.Event :=
  (readOne 16 p).map fun (h, e) => .node h e

/-- `abc` is queued and sent.  The node reads it, and its acknowledgements are
lost until the `write` gives up. -/
def timedOutRun : List Upload.Event :=
  ([.queue [97, 98, 99], .turn] : List Upload.Event) ++ lostAttempt
    ++ nodeReads (boxed .clientToNode 0 [97, 98, 99])
    ++ lostAttempt ++ lostAttempt ++ lostAttempt ++ lostAttempt

/-- The front of the queue is offered again, the node acknowledges it, and the
queue is empty. -/
def acknowledgedRun (p : Packet) : List Upload.Event :=
  ([.turn, .client (.send (.ok ()))] : List Upload.Event) ++ nodeReads p
    ++ ([.client (.recv (.ok ⟨.ack, 0, []⟩)), .client .lock, .turn] : List Upload.Event)

theorem nothingLost_retried :
    ((exec (Upload.step tagCipher) init (timedOutRun ++ .pumpWrites ::
        acknowledgedRun (boxed .clientToNode 0 [97, 98, 99]))).map Upload.popped
      = some [97, 98, 99]) ∧
    ∃ x, exec (Upload.step tagCipher) init (timedOutRun ++ .pumpWrites ::
        acknowledgedRun (boxed .clientToNode 0 [97, 98, 99])) = some x ∧ x.NothingLost := by
  have hrun : (exec (Upload.step tagCipher) init (timedOutRun ++ .pumpWrites ::
      acknowledgedRun (boxed .clientToNode 0 [97, 98, 99]))).isSome := by decide +kernel
  obtain ⟨x, hx⟩ := Option.isSome_iff_exists.mp hrun
  exact ⟨by decide +kernel, x, hx,
    nothingLost_of_keepsChunk tagCipher_correct _ (by decide +kernel) hx⟩

/-- `def` is queued after the timeout.  The `write` of `abcdef` reuses number 0,
which the node has, so it is acknowledged and all six bytes are popped. -/
def enlargedRun : List Upload.Event :=
  timedOutRun ++ .queue [100, 101, 102] ::
    acknowledgedRun (boxed .clientToNode 0 [97, 98, 99, 100, 101, 102])

theorem enlarged_loses :
    ((exec (Upload.step tagCipher) init enlargedRun).map fun x =>
        (x.queued, x.popped, x.pending, x.session.node.arrived))
      = some ([[97, 98, 99], [100, 101, 102]], [97, 98, 99, 100, 101, 102], [], [97, 98, 99]) ∧
    ∃ x, exec (Upload.step tagCipher) init enlargedRun = some x ∧ ¬ x.NothingLost := by
  constructor <;> decide +kernel

end Upload

end MediumOverlay
