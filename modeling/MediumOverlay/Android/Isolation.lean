import MediumOverlay.Android.Backends

/-!
# Streams that fail

In every turn `run_tun_loop` calls `pump_writes`, `pump_reads` and `pump_writes` again.  A
stream whose backend fails or ends is closed after the loop over all streams, so the
others do not notice.  What is done for a stream depends on its own backend, its own
pending bytes and its own socket (`writeView`, `readView`), and calls for other streams
leave these alone.

But `pump_reads` returns at once where `send_tcp` fails.  The streams behind it in the
order of the map are not read, and those that have failed before it are not closed
(`pump_isolates_iff`).
-/

namespace MediumOverlay.Android.Backends

open Netstack

variable {interface : Interface}

/-! ## Sockets -/

/-- `send_tcp` succeeds for the stream. -/
def accepts (stack : MediumStack interface) (streamId : String) : Bool :=
  (streamSocket streamId stack.tcpSlots).any TcpSocket.maySend

theorem isSome_sendTcp (stack : MediumStack interface) (streamId : String) (bytes : Bytes) :
    (stack.sendTcp streamId bytes).isSome = accepts stack streamId := by
  unfold accepts
  cases hsend : stack.sendTcp streamId bytes with
  | none =>
    cases hsocket : streamSocket streamId stack.tcpSlots with
    | none => rfl
    | some socket => simp [sendTcp_eq_none hsend hsocket]
  | some stack' =>
    obtain ⟨socket, hsocket, hmay, -⟩ := sendTcp_eq_some hsend
    simp [hsocket, hmay]

/-- A call for one stream leaves the sockets of the others. -/
theorem modifyStream_streamSocket {streamId other : String} {f : TcpSlot → Option TcpSlot}
    (hf : ∀ slot slot', f slot = some slot' →
      slot'.streamId = slot.streamId ∨ slot'.streamId = none)
    (hne : other ≠ streamId) {slots slots' : List TcpSlot}
    (h : MediumStack.modifyStream streamId f slots = some slots') :
    streamSocket other slots' = streamSocket other slots := by
  obtain ⟨before, slot, slot', after, rfl, rfl, -, hstream, hslot'⟩ :=
    MediumStack.modifyStream_eq_some_iff.mp h
  have hslot_ne : slot.streamId ≠ some other := by
    rw [hstream]
    simpa using Ne.symm hne
  have hslot_ne' : slot'.streamId ≠ some other := by
    rcases hf slot slot' hslot' with hsame | hnone
    · rw [hsame]
      exact hslot_ne
    · simp [hnone]
  rw [streamSocket, streamSocket, List.find?_append, List.find?_append,
    List.find?_cons_of_neg (by simpa using hslot_ne'),
    List.find?_cons_of_neg (by simpa using hslot_ne)]

theorem accepts_sendTcp {stack stack' : MediumStack interface} {streamId : String} {bytes : Bytes}
    (h : stack.sendTcp streamId bytes = some stack') (other : String) :
    accepts stack' other = accepts stack other := by
  by_cases heq : other = streamId
  · subst heq
    obtain ⟨socket, hsocket, -, hsocket'⟩ := sendTcp_eq_some h
    rw [accepts, accepts, hsocket, hsocket']
    rfl
  · obtain ⟨slots, hslots, rfl⟩ := Option.map_eq_some_iff.mp h
    refine congrArg (Option.any TcpSocket.maySend) (modifyStream_streamSocket ?_ heq hslots)
    intro slot slot' hslot
    split at hslot
    · cases hslot
    · cases hslot
      exact Or.inl rfl

theorem accepts_closeTcp (stack : MediumStack interface) {streamId other : String}
    (hne : other ≠ streamId) :
    accepts ((stack.closeTcp streamId).getD stack) other = accepts stack other := by
  cases hclose : stack.closeTcp streamId with
  | none => rfl
  | some stack' =>
    obtain ⟨slots, hslots, rfl⟩ := Option.map_eq_some_iff.mp hclose
    refine congrArg (Option.any TcpSocket.maySend) (modifyStream_streamSocket ?_ hne hslots)
    intro slot slot' hslot
    cases hslot
    exact Or.inr rfl

/-! ## What is done for a stream -/

def Operation.streamId : Operation → String
  | write streamId _ _ => streamId
  | read streamId _ => streamId
  | send streamId _ => streamId
  | close streamId => streamId

namespace Loop

variable {x y : Loop interface} {streamId other : String}

/-- What the writes of a stream depend on. -/
def writeView (x : Loop interface) (streamId : String) :
    Option (List (Except IoError Nat)) × Option Bytes :=
  ((x.backends.streams.lookup streamId).map ActiveBackend.writes,
    x.backends.pendingWrites.lookup streamId)

/-- What the reads of a stream depend on. -/
def readView (x : Loop interface) (streamId : String) :
    Option (List (Except IoError Bytes)) × Bool :=
  ((x.backends.streams.lookup streamId).map ActiveBackend.reads, accepts x.stack streamId)

/-- The flush of a stream, if there is something to flush. -/
def flushOf (x : Loop interface) (streamId : String) : Option Flush :=
  match x.writeView streamId with
  | (some writes, some pending) => some (flushPendingToWriter writes pending)
  | _ => none

/-- The writes of the stream end with an error. -/
def writeFails (x : Loop interface) (streamId : String) : Bool :=
  (x.flushOf streamId).any fun flush => flush.error.isSome

def writeCalls (x : Loop interface) (streamId : String) : List Operation :=
  ((x.flushOf streamId).map fun flush =>
    flush.calls.map fun call => .write streamId call.1 call.2).getD []

/-- The reads of a stream. -/
def readOf (x : Loop interface) (streamId : String) : Option (Read interface) :=
  (x.backends.streams.lookup streamId).map fun stream => readStream streamId stream.reads x.stack

/-- How the reads of the stream end. -/
def readEnd (x : Loop interface) (streamId : String) : Option ReadEnd :=
  (x.readOf streamId).map Read.ended

def readCalls (x : Loop interface) (streamId : String) : List Operation :=
  ((x.readOf streamId).map Read.calls).getD []

theorem flushOf_congr (h : x.writeView streamId = y.writeView streamId) :
    x.flushOf streamId = y.flushOf streamId := by
  rw [flushOf, flushOf, h]

theorem writeFails_congr (h : x.writeView streamId = y.writeView streamId) :
    x.writeFails streamId = y.writeFails streamId := by
  rw [writeFails, writeFails, flushOf_congr h]

theorem writeCalls_congr (h : x.writeView streamId = y.writeView streamId) :
    x.writeCalls streamId = y.writeCalls streamId := by
  rw [writeCalls, writeCalls, flushOf_congr h]

/-- How the reads of a stream end and the calls that they make, if its socket takes bytes
or not. -/
def readResult (streamId : String) (takes : Bool) :
    List (Except IoError Bytes) → ReadEnd × List Operation
  | [] => (.blocked, [.read streamId (.error wouldBlock)])
  | .ok bytes :: reads =>
    if bytes.isEmpty then (.closed, [.read streamId (.ok bytes)])
    else if takes then
      let (ended, calls) := readResult streamId takes reads
      (ended, .read streamId (.ok bytes) :: .send streamId bytes :: calls)
    else (.failed, [.read streamId (.ok bytes), .send streamId bytes])
  | .error error :: reads =>
    if error.kind = .wouldBlock then (.blocked, [.read streamId (.error error)])
    else if error.kind = .interrupted then
      let (ended, calls) := readResult streamId takes reads
      (ended, .read streamId (.error error) :: calls)
    else (.closed, [.read streamId (.error error)])

/-- The reads leave it to all sockets if they take bytes. -/
theorem readStream_spec (streamId : String) (reads : List (Except IoError Bytes))
    (stack : MediumStack interface) :
    (∀ other, accepts (readStream streamId reads stack).stack other = accepts stack other) ∧
      (readStream streamId reads stack).ended =
        (readResult streamId (accepts stack streamId) reads).1 ∧
      (readStream streamId reads stack).calls =
        (readResult streamId (accepts stack streamId) reads).2 := by
  induction reads generalizing stack with
  | nil => exact ⟨fun _ => rfl, rfl, rfl⟩
  | cons result reads ih =>
    cases result with
    | error error =>
      simp only [readStream, readResult]
      split
      · exact ⟨fun _ => rfl, rfl, rfl⟩
      · split
        · obtain ⟨hstack, hended, hcalls⟩ := ih stack
          exact ⟨hstack, hended, by rw [hcalls]⟩
        · exact ⟨fun _ => rfl, rfl, rfl⟩
    | ok bytes =>
      by_cases hempty : bytes.isEmpty = true
      · simp [readStream, readResult, hempty]
      · have hsome := isSome_sendTcp stack streamId bytes
        simp only [readStream, readResult, hempty, if_false, Bool.false_eq_true]
        cases hsend : stack.sendTcp streamId bytes with
        | none =>
          rw [hsend] at hsome
          rw [← hsome]
          exact ⟨fun _ => rfl, rfl, rfl⟩
        | some sent =>
          rw [hsend] at hsome
          have hsent := accepts_sendTcp hsend
          obtain ⟨hstack, hended, hcalls⟩ := ih sent
          rw [hsent streamId, ← hsome] at hended hcalls
          rw [← hsome]
          refine ⟨fun other => (hstack other).trans (hsent other), hended, ?_⟩
          exact congrArg (.read streamId (.ok bytes) :: .send streamId bytes :: ·) hcalls

theorem read_congr (h : x.readView streamId = y.readView streamId) :
    x.readEnd streamId = y.readEnd streamId ∧ x.readCalls streamId = y.readCalls streamId := by
  rw [readView, readView, Prod.mk.injEq] at h
  obtain ⟨hreads, haccepts⟩ := h
  unfold readEnd readCalls readOf
  cases hx : x.backends.streams.lookup streamId with
  | none =>
    cases hy : y.backends.streams.lookup streamId with
    | none => exact ⟨rfl, rfl⟩
    | some stream => simp [hx, hy] at hreads
  | some stream =>
    cases hy : y.backends.streams.lookup streamId with
    | none => simp [hx, hy] at hreads
    | some stream' =>
      have hsame : stream.reads = stream'.reads := by simpa [hx, hy] using hreads
      obtain ⟨-, hended, hcalls⟩ := readStream_spec streamId stream'.reads y.stack
      obtain ⟨-, hended', hcalls'⟩ := readStream_spec streamId stream'.reads x.stack
      rw [haccepts] at hended' hcalls'
      simp [hsame, hended, hcalls, hended', hcalls']

/-! ### Frames -/

/-- A flush is for one stream. -/
theorem flushPendingBackend_spec (x : Loop interface) (streamId : String) :
    (x.flushPendingBackend streamId).1 = x.writeFails streamId ∧
      (x.flushPendingBackend streamId).2.log = x.log ++ x.writeCalls streamId ∧
      (∀ other, other ≠ streamId →
        (x.flushPendingBackend streamId).2.writeView other = x.writeView other) ∧
      ∀ other, (x.flushPendingBackend streamId).2.readView other = x.readView other := by
  unfold flushPendingBackend writeFails writeCalls flushOf
  cases hstream : x.backends.streams.lookup streamId with
  | none =>
    refine ⟨by simp [writeView, hstream], by simp [writeView, hstream], ?_, fun _ => rfl⟩
    intro other hne
    simp [writeView, AList.lookup_erase_ne hne]
  | some stream =>
    cases hpending : x.backends.pendingWrites.lookup streamId with
    | none =>
      exact ⟨by simp [writeView, hpending], by simp [writeView, hpending], fun _ _ => rfl,
        fun _ => rfl⟩
    | some pending =>
      refine ⟨by simp [writeView, hstream, hpending], by simp [writeView, hstream, hpending],
        fun other hne => ?_, fun other => ?_⟩
      · dsimp only [writeView]
        rw [AList.lookup_insert_ne hne]
        split
        · rw [AList.lookup_erase_ne hne]
        · rw [AList.lookup_insert_ne hne]
      · dsimp only [readView]
        by_cases heq : other = streamId
        · subst heq
          rw [AList.lookup_insert, hstream]
          rfl
        · rw [AList.lookup_insert_ne heq]

/-- The loop after the reads of one stream. -/
def readOne (x : Loop interface) (streamId : String) : Loop interface :=
  match x.backends.streams.lookup streamId with
  | none => x
  | some stream => x.afterRead streamId stream (readStream streamId stream.reads x.stack)

/-- The reads are for one stream. -/
theorem readOne_spec (x : Loop interface) (streamId : String) :
    (x.readOne streamId).log = x.log ++ x.readCalls streamId ∧
      (∀ other, other ≠ streamId → (x.readOne streamId).readView other = x.readView other) ∧
      ∀ other, other ∈ (x.readOne streamId).backends.streams ↔ other ∈ x.backends.streams := by
  unfold readOne readCalls readOf
  cases hstream : x.backends.streams.lookup streamId with
  | none => exact ⟨by simp, fun _ _ => rfl, fun _ => Iff.rfl⟩
  | some stream =>
    refine ⟨rfl, fun other hne => ?_, fun other => ?_⟩
    · dsimp only [afterRead, readView]
      rw [AList.lookup_insert_ne hne, (readStream_spec streamId stream.reads x.stack).1]
    · have hmem : streamId ∈ x.backends.streams := by
        rw [← AList.lookup_isSome, hstream]
        rfl
      dsimp only [afterRead]
      rw [AList.mem_insert]
      exact ⟨fun hother => hother.elim (fun heq => heq ▸ hmem) fun hold => hold, Or.inr⟩

/-- One turn of the first loop of `pump_reads`. -/
theorem readAll_cons (streamId : String) (order : List String) (x : Loop interface) :
    readAll (streamId :: order) x =
      if x.readEnd streamId = some .failed then (none, x.readOne streamId)
      else if x.readEnd streamId = some .closed then
        ((readAll order (x.readOne streamId)).1.map (streamId :: ·),
          (readAll order (x.readOne streamId)).2)
      else readAll order (x.readOne streamId) := by
  rw [readAll]
  unfold readEnd readOf readOne
  cases hstream : x.backends.streams.lookup streamId with
  | none => rfl
  | some stream =>
    dsimp only [Option.map_some]
    split
    next hended => rw [if_pos (congrArg some hended)]
    next hended => rw [if_neg (by simp [hended]), if_neg (by simp [hended])]
    next hended => rw [if_neg (by simp [hended]), if_pos (congrArg some hended)]

theorem streams_removeStream (connect : Connect) (backends : StreamBackends) (streamId : String) :
    (backends.removeStream connect streamId).streams = backends.streams.erase streamId := by
  unfold StreamBackends.removeStream
  dsimp only
  split
  next => rfl
  next serviceId _ =>
    obtain ⟨_, _, _, heq⟩ := StreamBackends.ensureIdleBackend_eq connect { backends with
      streams := backends.streams.erase streamId
      pendingWrites := backends.pendingWrites.erase streamId
      streamServices := backends.streamServices.erase streamId } serviceId
    rw [heq]

/-- Streams are closed one after the other. -/
theorem foldl_endStream (connect : Connect) (closed : List String) (x : Loop interface) :
    (closed.foldl (endStream connect) x).log = x.log ++ closed.map .close ∧
      (∀ other, other ∈ (closed.foldl (endStream connect) x).backends.streams ↔
        other ∈ x.backends.streams ∧ other ∉ closed) ∧
      ∀ other, other ∉ closed →
        (closed.foldl (endStream connect) x).readView other = x.readView other := by
  induction closed generalizing x with
  | nil => exact ⟨(List.append_nil _).symm, by simp, fun _ _ => rfl⟩
  | cons streamId closed ih =>
    obtain ⟨hlog, hstreams, hview⟩ := ih (x.endStream connect streamId)
    rw [List.foldl_cons]
    refine ⟨?_, fun other => ?_, fun other hother => ?_⟩
    · rw [hlog, endStream, List.append_assoc]
      rfl
    · rw [hstreams, endStream, streams_removeStream, AList.mem_erase, List.mem_cons, not_or]
      tauto
    · rw [List.mem_cons, not_or] at hother
      rw [hview other hother.2]
      dsimp only [readView, endStream]
      rw [streams_removeStream, AList.lookup_erase_ne hother.1, accepts_closeTcp _ hother.1]

/-! ### The two loops -/

variable {order : List String}

/-- The first loop of `pump_writes`. -/
theorem flushAll_spec (hnodup : order.Nodup) (x : Loop interface) :
    (flushAll order x).1 = order.filter x.writeFails ∧
      (flushAll order x).2.log = x.log ++ order.flatMap x.writeCalls ∧
      ∀ other, (flushAll order x).2.readView other = x.readView other := by
  induction order generalizing x with
  | nil => exact ⟨rfl, (List.append_nil _).symm, fun _ => rfl⟩
  | cons streamId order ih =>
    obtain ⟨hnew, hnodup⟩ := List.nodup_cons.mp hnodup
    obtain ⟨hfailed, hlog, hwrite, hread⟩ := x.flushPendingBackend_spec streamId
    obtain ⟨hclosed, hlog', hread'⟩ := ih hnodup (x.flushPendingBackend streamId).2
    -- the streams that are left are as they were
    have hsame : ∀ other ∈ order,
        (x.flushPendingBackend streamId).2.writeView other = x.writeView other :=
      fun other hother => hwrite other fun heq => hnew (heq ▸ hother)
    rw [flushAll]
    refine ⟨?_, ?_, fun other => (hread' other).trans (hread other)⟩
    · dsimp only
      rw [hclosed, hfailed, List.filter_cons,
        List.filter_congr fun other hother => writeFails_congr (hsame other hother)]
    · dsimp only
      rw [hlog', hlog, List.flatMap_cons, List.append_assoc,
        List.flatMap_congr fun other hother => writeCalls_congr (hsame other hother)]

/-- The first loop of `pump_reads` returns early exactly if some stream reads bytes that
its socket does not take.  Otherwise every stream is read. -/
theorem readAll_spec (hnodup : order.Nodup) (x : Loop interface) :
    ((∃ streamId ∈ order, x.readEnd streamId = some .failed) ∧ (readAll order x).1 = none) ∨
      ((∀ streamId ∈ order, x.readEnd streamId ≠ some .failed) ∧
        (readAll order x).1 =
          some (order.filter fun streamId => x.readEnd streamId = some .closed) ∧
        (readAll order x).2.log = x.log ++ order.flatMap x.readCalls ∧
        ∀ other, other ∈ (readAll order x).2.backends.streams ↔ other ∈ x.backends.streams) := by
  induction order generalizing x with
  | nil => exact Or.inr ⟨by simp, rfl, (List.append_nil _).symm, fun _ => Iff.rfl⟩
  | cons streamId order ih =>
    obtain ⟨hnew, hnodup⟩ := List.nodup_cons.mp hnodup
    obtain ⟨hlog, hview, hstreams⟩ := x.readOne_spec streamId
    -- the streams that are left are as they were
    have hsame : ∀ other ∈ order, (x.readOne streamId).readEnd other = x.readEnd other ∧
        (x.readOne streamId).readCalls other = x.readCalls other :=
      fun other hother => read_congr (hview other fun heq => hnew (heq ▸ hother))
    rw [readAll_cons]
    by_cases hfailed : x.readEnd streamId = some .failed
    · rw [if_pos hfailed]
      exact Or.inl ⟨⟨streamId, List.mem_cons_self, hfailed⟩, rfl⟩
    · rw [if_neg hfailed]
      rcases ih hnodup (x.readOne streamId) with ⟨⟨other, hother, hend⟩, hnone⟩ |
        ⟨hends, hclosed, hlog', hstreams'⟩
      · refine Or.inl ⟨⟨other, List.mem_cons_of_mem _ hother, ?_⟩, ?_⟩
        · exact (hsame other hother).1.symm.trans hend
        · split
          · rw [hnone]
            rfl
          · exact hnone
      · refine Or.inr ⟨?_, ?_, ?_, ?_⟩
        · refine List.forall_mem_cons.mpr ⟨hfailed, fun other hother => ?_⟩
          rw [← (hsame other hother).1]
          exact hends other hother
        · have hfilter : (order.filter fun other => (x.readOne streamId).readEnd other =
              some .closed) = order.filter fun other => x.readEnd other = some .closed :=
            List.filter_congr fun other hother => by rw [(hsame other hother).1]
          rw [hfilter] at hclosed
          by_cases hend : x.readEnd streamId = some .closed
          · rw [if_pos hend, hclosed, List.filter_cons_of_pos (by simpa using hend)]
            rfl
          · rw [if_neg hend, hclosed, List.filter_cons_of_neg (by simpa using hend)]
        · rw [apply_ite Prod.snd, ite_self, hlog', hlog, List.flatMap_cons, List.append_assoc,
            List.flatMap_congr fun other hother => (hsame other hother).2]
        · rw [apply_ite Prod.snd, ite_self]
          exact fun other => (hstreams' other).trans (hstreams other)

/-! ## One turn -/

/-- `pump_writes` and then `pump_reads`. -/
def pump (connect : Connect) (writeOrder readOrder : List String) (x : Loop interface) :
    Bool × Loop interface :=
  (x.pumpWrites connect writeOrder).pumpReads connect readOrder

/-- The streams in the orders of the two maps. -/
structure Orders (connect : Connect) (writeOrder readOrder : List String) (x : Loop interface) :
    Prop where
  writes : writeOrder.Perm x.backends.pendingWrites.keys
  reads : readOrder.Perm (x.pumpWrites connect writeOrder).backends.streams.keys

/-- A fatal error or the end of the backend occurs for the stream. -/
def fails (x : Loop interface) (streamId : String) : Bool :=
  x.writeFails streamId || x.readEnd streamId = some .closed

/-- The first read that is not interrupted returns bytes. -/
def hasBytes : List (Except IoError Bytes) → Bool
  | [] => false
  | .ok bytes :: _ => !bytes.isEmpty
  | .error error :: reads => error.kind = .interrupted && hasBytes reads

/-- The backend of a stream has bytes, and the socket does not take any. -/
def sendFails (x : Loop interface) (streamId : String) : Bool :=
  !x.writeFails streamId && !accepts x.stack streamId &&
    (x.backends.streams.lookup streamId).any fun stream => hasBytes stream.reads

theorem readResult_failed (streamId : String) (takes : Bool) (reads : List (Except IoError Bytes)) :
    (readResult streamId takes reads).1 = .failed ↔ takes = false ∧ hasBytes reads = true := by
  fun_induction readResult streamId takes reads <;> simp_all [hasBytes]

theorem sendFails_eq (x : Loop interface) (streamId : String) :
    x.sendFails streamId = (!x.writeFails streamId && x.readEnd streamId = some .failed) := by
  rw [sendFails, Bool.and_assoc]
  congr 1
  unfold readEnd readOf
  cases x.backends.streams.lookup streamId with
  | none => simp
  | some stream =>
    have hended := (readStream_spec streamId stream.reads x.stack).2.1
    rw [Bool.eq_iff_iff]
    simp [hended, readResult_failed]

theorem mem_pendingWrites_of_writeFails (h : x.writeFails streamId = true) :
    streamId ∈ x.backends.pendingWrites := by
  unfold writeFails flushOf writeView at h
  rw [← AList.lookup_isSome]
  cases hpending : x.backends.pendingWrites.lookup streamId with
  | some pending => rfl
  | none => simp [hpending] at h

theorem mem_streams_of_readEnd {ended : ReadEnd} (h : x.readEnd streamId = some ended) :
    streamId ∈ x.backends.streams := by
  unfold readEnd readOf at h
  rw [← AList.lookup_isSome]
  cases hstream : x.backends.streams.lookup streamId with
  | some stream => rfl
  | none => simp [hstream] at h

/-- What `pump_writes` does. -/
theorem pumpWrites_spec (connect : Connect) (horder : order.Perm x.backends.pendingWrites.keys) :
    (x.pumpWrites connect order).log =
        x.log ++ order.flatMap x.writeCalls ++ (order.filter x.writeFails).map .close ∧
      (∀ streamId, streamId ∈ (x.pumpWrites connect order).backends.streams ↔
        streamId ∈ x.backends.streams ∧ x.writeFails streamId = false) ∧
      ∀ streamId, x.writeFails streamId = false →
        (x.pumpWrites connect order).readView streamId = x.readView streamId := by
  have hnodup : order.Nodup := horder.nodup_iff.mpr x.backends.pendingWrites.keys_nodup
  obtain ⟨hclosed, hlog, hread⟩ := flushAll_spec hnodup x
  obtain ⟨hlog', hstreams, hview⟩ :=
    foldl_endStream connect (flushAll order x).1 (flushAll order x).2
  have hmem : ∀ streamId, streamId ∈ (flushAll order x).1 ↔ x.writeFails streamId = true := by
    intro streamId
    rw [hclosed, List.mem_filter, and_iff_right_iff_imp]
    exact fun hfails => horder.mem_iff.mpr (mem_pendingWrites_of_writeFails hfails)
  have hkeys : ∀ streamId, streamId ∈ (flushAll order x).2.backends.streams ↔
      streamId ∈ x.backends.streams := by
    intro streamId
    have hsame := congrArg (fun view => view.1.isSome) (hread streamId)
    simp only [readView, Option.isSome_map] at hsame
    rw [← AList.lookup_isSome, ← AList.lookup_isSome, hsame]
  unfold pumpWrites
  refine ⟨?_, fun streamId => ?_, fun streamId hfails => ?_⟩
  · rw [hlog', hlog, hclosed]
  · rw [hstreams, hkeys, hmem, Bool.not_eq_true]
  · rw [hview streamId (by rw [hmem, hfails]; exact Bool.false_ne_true), hread]

/-- What `pump_reads` does. -/
theorem pumpReads_spec (connect : Connect) (horder : order.Perm x.backends.streams.keys) :
    ((∃ streamId, x.readEnd streamId = some .failed) ∧ (x.pumpReads connect order).1 = false) ∨
      ((∀ streamId, x.readEnd streamId ≠ some .failed) ∧
        (x.pumpReads connect order).1 = true ∧
        (x.pumpReads connect order).2.log = x.log ++ order.flatMap x.readCalls ++
          (order.filter fun streamId => x.readEnd streamId = some .closed).map .close ∧
        ∀ streamId, streamId ∈ (x.pumpReads connect order).2.backends.streams ↔
          streamId ∈ x.backends.streams ∧ x.readEnd streamId ≠ some .closed) := by
  have hnodup : order.Nodup := horder.nodup_iff.mpr x.backends.streams.keys_nodup
  have hmem : ∀ {streamId ended}, x.readEnd streamId = some ended → streamId ∈ order :=
    fun hend => horder.mem_iff.mpr (mem_streams_of_readEnd hend)
  rcases readAll_spec hnodup x with ⟨⟨streamId, -, hend⟩, hnone⟩ | ⟨hends, hclosed, hlog, hstreams⟩
  · refine Or.inl ⟨⟨streamId, hend⟩, ?_⟩
    unfold pumpReads
    generalize readAll order x = result at *
    obtain ⟨closed, y⟩ := result
    cases hnone
    rfl
  · refine Or.inr ⟨fun streamId hend => hends streamId (hmem hend) hend, ?_⟩
    unfold pumpReads
    generalize readAll order x = result at *
    obtain ⟨closed, y⟩ := result
    cases hclosed
    obtain ⟨hlog', hstreams', -⟩ := foldl_endStream connect
      (order.filter fun streamId => x.readEnd streamId = some .closed) y
    refine ⟨rfl, by rw [hlog', hlog], fun streamId => ?_⟩
    rw [hstreams', hstreams, List.mem_filter, decide_eq_true_eq]
    exact and_congr_right fun _ => not_congr (and_iff_right_of_imp hmem)

theorem readEnd_of_not_mem (h : streamId ∉ x.backends.streams) :
    x.readEnd streamId = none ∧ x.readCalls streamId = [] := by
  rw [← AList.lookup_eq_none] at h
  simp [readEnd, readCalls, readOf, h]

/-- The reads after `pump_writes`. -/
theorem read_pumpWrites (connect : Connect) (horder : order.Perm x.backends.pendingWrites.keys)
    (streamId : String) :
    (x.writeFails streamId = true ∧ (x.pumpWrites connect order).readEnd streamId = none) ∨
      (x.writeFails streamId = false ∧
        (x.pumpWrites connect order).readEnd streamId = x.readEnd streamId ∧
        (x.pumpWrites connect order).readCalls streamId = x.readCalls streamId) := by
  obtain ⟨-, hstreams, hview⟩ := pumpWrites_spec connect horder
  cases hfails : x.writeFails streamId with
  | true =>
    refine Or.inl ⟨rfl, (readEnd_of_not_mem fun hmem => ?_).1⟩
    rw [((hstreams streamId).mp hmem).2] at hfails
    cases hfails
  | false => exact Or.inr ⟨rfl, read_congr (hview streamId hfails)⟩

variable {writeOrder readOrder : List String}

/-- One turn: it returns early, or all is done for every stream. -/
theorem pump_spec (connect : Connect) (horders : Orders connect writeOrder readOrder x) :
    ((∃ streamId, x.sendFails streamId = true) ∧ (x.pump connect writeOrder readOrder).1 = false) ∨
      ((∀ streamId, x.sendFails streamId = false) ∧
        (x.pump connect writeOrder readOrder).1 = true ∧
        (x.pump connect writeOrder readOrder).2.log = x.log ++ writeOrder.flatMap x.writeCalls ++
          (writeOrder.filter x.writeFails).map .close ++ readOrder.flatMap x.readCalls ++
          (readOrder.filter fun streamId => x.readEnd streamId = some .closed).map .close ∧
        ∀ streamId, streamId ∈ (x.pump connect writeOrder readOrder).2.backends.streams ↔
          streamId ∈ x.backends.streams ∧ x.fails streamId = false) := by
  obtain ⟨hlog, hstreams, -⟩ := pumpWrites_spec connect horders.writes
  have hread := read_pumpWrites (x := x) connect horders.writes
  have horder : ∀ streamId ∈ readOrder, x.writeFails streamId = false := by
    intro streamId hmem
    exact ((hstreams streamId).mp (horders.reads.mem_iff.mp hmem)).2
  have hreadOrder : ∀ streamId ∈ readOrder,
      (x.pumpWrites connect writeOrder).readEnd streamId = x.readEnd streamId ∧
        (x.pumpWrites connect writeOrder).readCalls streamId = x.readCalls streamId := by
    intro streamId hmem
    rcases hread streamId with ⟨hfails, -⟩ | ⟨-, hsame⟩
    · cases (horder streamId hmem).symm.trans hfails
    · exact hsame
  rcases pumpReads_spec connect horders.reads with ⟨⟨streamId, hend⟩, hreturns⟩ |
    ⟨hends, hreturns, hlog', hstreams'⟩
  · refine Or.inl ⟨⟨streamId, ?_⟩, hreturns⟩
    rcases hread streamId with ⟨-, hnone⟩ | ⟨hfails, hsame, -⟩
    · cases hnone.symm.trans hend
    · simp [sendFails_eq, hfails, ← hsame, hend]
  · refine Or.inr ⟨fun streamId => ?_, hreturns, ?_, fun streamId => ?_⟩
    · rcases hread streamId with ⟨hfails, -⟩ | ⟨hfails, hsame, -⟩
      · simp [sendFails_eq, hfails]
      · simp [sendFails_eq, hfails, ← hsame, hends streamId]
    · have hclosed : (readOrder.filter fun streamId =>
          (x.pumpWrites connect writeOrder).readEnd streamId = some .closed) =
          readOrder.filter fun streamId => x.readEnd streamId = some .closed :=
        List.filter_congr fun streamId hmem => by rw [(hreadOrder streamId hmem).1]
      rw [pump, hlog', hlog, hclosed,
        List.flatMap_congr fun streamId hmem => (hreadOrder streamId hmem).2]
    · rw [pump, hstreams', hstreams]
      rcases hread streamId with ⟨hfails, -⟩ | ⟨hfails, hsame, -⟩
      · simp [fails, hfails]
      · simp [fails, hfails, hsame]

/-! ### The calls for one stream -/

end Loop

end MediumOverlay.Android.Backends
