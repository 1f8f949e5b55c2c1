import MediumOverlay.Lib.Table
import MediumOverlay.MediumSession.WssByteStream

/-!
# The WebSocket backend of the Android client

`ActiveBackend::read` on a WebSocket copies as much of a Binary message into the buffer
as fits, and forgets the rest.  A Binary message without a payload is `Ok(0)`, which the
caller takes for the end of the stream, and so is every Binary message if the buffer is
empty.

A read skips messages and then ends at a Binary message, a `Close` or an error (`stops`),
so the reads go to those in turn (`Logged`).  A run keeps a log of the reads with what
the socket had before and has no more.  `webSocket_byte_stream_iff` says for which messages
and buffers the reads make up a byte stream.
-/

namespace MediumOverlay.Android

open Table Trace
open MediumSession (Message WsError SocketTurn)

/-- The error that the backend makes of an error of its socket. -/
def backendError : WsError → IoError
  | .io error => if error.isTimeout then error else .other (WsError.io error).display
  | .protocol message => .other (WsError.protocol message).display

/-- `ActiveBackend::read` on a WebSocket, with a buffer of `size` bytes: its result, what it
has sent, and what the socket is going to return after it.  `none` if the socket has
nothing to return yet. -/
def readWebSocket (size : Nat) :
    List SocketTurn → Option (Except IoError Bytes × List Message × List SocketTurn)
  | [] => none
  | ⟨.ok (.binary payload), _⟩ :: rest => some (.ok (payload.take size), [], rest)
  | ⟨.ok .close, _⟩ :: rest => some (.ok [], [], rest)
  | ⟨.ok (.ping payload), send⟩ :: rest =>
    let sent := if send.toOption.isSome then [.pong payload] else []
    (readWebSocket size rest).map fun (result, sent', rest) => (result, sent ++ sent', rest)
  | ⟨.ok (.pong _), _⟩ :: rest | ⟨.ok (.text _), _⟩ :: rest | ⟨.ok (.frame _), _⟩ :: rest =>
    readWebSocket size rest
  | ⟨.error error, _⟩ :: rest => some (.error (backendError error), [], rest)

/-- A read: what it has returned, and what it has taken from the socket. -/
structure WebSocketRead where
  result : Except IoError Bytes
  turns : List SocketTurn

/-- A backend with what its socket is going to return, what was sent over it, and the
reads so far. -/
structure WebSocketBackend where
  socket : List SocketTurn
  sent : List Message
  reads : List WebSocketRead

namespace WebSocketBackend

def init (socket : List SocketTurn) : WebSocketBackend := ⟨socket, [], []⟩

def read (x : WebSocketBackend) (size : Nat) : Option WebSocketBackend :=
  (readWebSocket size x.socket).map fun (result, sent, rest) =>
    ⟨rest, x.sent ++ sent,
      x.reads ++ [⟨result, x.socket.take (x.socket.length - rest.length)⟩]⟩

end WebSocketBackend

/-! ## What a byte stream is -/

/-- The payload of a Binary message. -/
def binaryPayload (turn : SocketTurn) : Bytes :=
  match turn.read with
  | .ok (.binary payload) => payload
  | _ => []

namespace WebSocketRead

/-- The bytes that were returned. -/
def bytes (read : WebSocketRead) : Bytes := read.result.toOption.getD []

/-- The payload that was taken from the socket. -/
def payload (read : WebSocketRead) : Bytes := read.turns.flatMap binaryPayload

end WebSocketRead

/-- What the reads have taken is a first part of what the socket had.  The reads in front of
the first `Ok(0)` return its payloads, and `Ok(0)` is only returned at a `Close`. -/
def IsByteStream (socket : List SocketTurn) (x : WebSocketBackend) : Prop :=
  x.reads.flatMap WebSocketRead.turns ++ x.socket = socket ∧
    (x.reads.takeWhile fun read => read.result ≠ .ok []).flatMap WebSocketRead.bytes =
      x.reads.flatMap WebSocketRead.payload ∧
    ∀ read ∈ x.reads, read.result = .ok [] → ∃ turn ∈ read.turns, turn.read = .ok .close

instance (socket : List SocketTurn) (x : WebSocketBackend) : Decidable (IsByteStream socket x) :=
  inferInstanceAs (Decidable (_ ∧ _ ∧ ∀ read ∈ x.reads, read.result = .ok [] → _))

/-- A `Close` is the last message. -/
def CloseLast (socket : List SocketTurn) : Prop :=
  ∀ turn ∈ socket.dropLast, turn.read ≠ .ok .close

instance (socket : List SocketTurn) : Decidable (CloseLast socket) :=
  inferInstanceAs (Decidable (∀ turn ∈ socket.dropLast, turn.read ≠ .ok .close))

/-- What a read returns at: a Binary message, a `Close` or an error. -/
def stops (turn : SocketTurn) : Bool :=
  match turn.read with
  | .ok (.binary _) | .ok .close | .error _ => true
  | .ok (.text _) | .ok (.ping _) | .ok (.pong _) | .ok (.frame _) => false

/-- A Binary message is not empty, and fits into the buffer. -/
def Fits (turn : SocketTurn) (size : Nat) : Prop :=
  turn.read ≠ .ok (.binary []) ∧ (binaryPayload turn).length ≤ size

instance (turn : SocketTurn) (size : Nat) : Decidable (Fits turn size) :=
  inferInstanceAs (Decidable (_ ∧ _))

/-! ## One read -/

/-- What a read returns at a turn that stops it. -/
def resultAt (turn : SocketTurn) (size : Nat) : Except IoError Bytes :=
  match turn.read with
  | .error error => .error (backendError error)
  | .ok _ => .ok ((binaryPayload turn).take size)

/-- A read goes to the next turn that stops it. -/
theorem readWebSocket_spec {size : Nat} (socket : List SocketTurn)
    (result : Except IoError Bytes) (sent : List Message) (rest : List SocketTurn)
    (h : readWebSocket size socket = some (result, sent, rest)) :
    ∃ skipped turn, socket = skipped ++ turn :: rest ∧ (∀ t ∈ skipped, stops t = false)
      ∧ stops turn = true ∧ result = resultAt turn size := by
  induction socket generalizing sent with
  | nil => cases h
  | cons turn socket ih =>
    have hskip : ∀ sent', stops turn = false →
        readWebSocket size socket = some (result, sent', rest) →
        ∃ skipped last, turn :: socket = skipped ++ last :: rest
          ∧ (∀ t ∈ skipped, stops t = false) ∧ stops last = true
          ∧ result = resultAt last size := by
      intro sent' hturn hread
      obtain ⟨skipped, last, hsocket, hskipped, hstops, hresult⟩ := ih sent' hread
      exact ⟨turn :: skipped, last, congrArg _ hsocket,
        List.forall_mem_cons.mpr ⟨hturn, hskipped⟩, hstops, hresult⟩
    rcases turn with ⟨error | message, send⟩
    · cases h
      exact ⟨[], _, rfl, by simp, rfl, rfl⟩
    · cases message with
      | binary payload =>
        cases h
        exact ⟨[], _, rfl, by simp, rfl, rfl⟩
      | close =>
        cases h
        exact ⟨[], _, rfl, by simp, rfl, by simp [resultAt, binaryPayload]⟩
      | ping payload =>
        obtain ⟨⟨result', sent', rest'⟩, hread, heq⟩ := Option.map_eq_some_iff.mp h
        cases heq
        exact hskip sent' rfl hread
      | text text | pong payload | frame payload => exact hskip sent rfl h

/-- What a read with a buffer of `size` bytes leaves in the log, and the turn that stops it. -/
structure Stopped (turn : SocketTurn) (size : Nat) (read : WebSocketRead) : Prop where
  stop : stops turn = true
  result : read.result = resultAt turn size
  payload : read.payload = binaryPayload turn
  close : (∃ t ∈ read.turns, t.read = .ok .close) ↔ turn.read = .ok .close
  turns : read.turns ≠ []

theorem stopped_of_skipped {turn : SocketTurn} {size : Nat} {skipped : List SocketTurn}
    (hskipped : ∀ t ∈ skipped, stops t = false) (hstop : stops turn = true) :
    Stopped turn size ⟨resultAt turn size, skipped ++ [turn]⟩ where
  stop := hstop
  result := rfl
  payload := by
    have hnone : skipped.flatMap binaryPayload = [] := by
      refine List.flatMap_eq_nil_iff.mpr fun t ht => ?_
      have hstops := hskipped t ht
      rcases t with ⟨error | message, send⟩
      · rfl
      · cases message <;> first | rfl | cases hstops
    rw [WebSocketRead.payload, List.flatMap_append, hnone, List.flatMap_singleton,
      List.nil_append]
  close := by
    constructor
    · rintro ⟨t, ht, hclose⟩
      rcases List.mem_append.mp ht with ht | ht
      · have hstops := hskipped t ht
        rw [stops, hclose] at hstops
        cases hstops
      · rwa [← List.mem_singleton.mp ht]
    · exact fun hclose => ⟨turn, by simp, hclose⟩
  turns := by simp

/-! ### Reads that fit and reads that do not -/

variable {turn : SocketTurn} {size : Nat} {read : WebSocketRead}

theorem Stopped.bytes (h : Stopped turn size read) :
    read.bytes = (binaryPayload turn).take size := by
  rw [WebSocketRead.bytes, h.result, resultAt]
  cases hread : turn.read with
  | error error => simp [binaryPayload, hread, Except.toOption]
  | ok message => rfl

/-- A read that fits returns its payload, and `Ok(0)` only at a `Close`. -/
theorem Stopped.of_fits (h : Stopped turn size read) (fits : Fits turn size) :
    read.bytes = read.payload
      ∧ (read.result = .ok [] → ∃ t ∈ read.turns, t.read = .ok .close) := by
  have htake : (binaryPayload turn).take size = binaryPayload turn :=
    List.take_of_length_le fits.2
  refine ⟨by rw [h.bytes, h.payload, htake], fun hnil => h.close.mpr ?_⟩
  rw [h.result, resultAt, htake] at hnil
  rcases turn with ⟨error | message, send⟩
  · cases hnil
  · cases message with
    | binary payload =>
      cases hnil
      exact absurd rfl fits.1
    | close => rfl
    | text | ping | pong | frame => cases h.stop

/-- A read that does not fit returns `Ok(0)` for a Binary message, or loses some of it. -/
theorem Stopped.of_not_fits (h : Stopped turn size read) (fits : ¬Fits turn size) :
    (read.result = .ok [] ∧ ¬∃ t ∈ read.turns, t.read = .ok .close)
      ∨ read.bytes.length < read.payload.length := by
  rw [h.bytes, h.payload, h.close, h.result, List.length_take]
  by_cases hempty : turn.read = .ok (.binary [])
  · exact .inl (by simp [resultAt, binaryPayload, hempty])
  · have hlong : size < (binaryPayload turn).length := by
      by_contra hle
      exact fits ⟨hempty, Nat.le_of_not_lt hle⟩
    exact .inr (by omega)

theorem Stopped.length_le (h : Stopped turn size read) :
    read.bytes.length ≤ read.payload.length := by
  rw [h.bytes, h.payload, List.length_take]
  exact Nat.min_le_right ..

/-! ## Runs -/

/-- What is true of a run with buffers of the sizes. -/
structure Logged (socket : List SocketTurn) (sizes : List Nat) (x : WebSocketBackend) : Prop where
  taken : x.reads.flatMap WebSocketRead.turns ++ x.socket = socket
  /-- The reads go to the turns that stop one, one after the other. -/
  pairs : ∃ turns, turns.length = sizes.length
    ∧ socket.filter stops = turns ++ x.socket.filter stops
    ∧ List.Forall₂ (fun p read => Stopped p.1 p.2 read) (turns.zip sizes) x.reads

variable {socket : List SocketTurn} {sizes : List Nat} {x y : WebSocketBackend}

theorem Logged.step (h : Logged socket sizes x) (hs : x.read size = some y) :
    Logged socket (sizes ++ [size]) y := by
  obtain ⟨⟨result, sent, rest⟩, hread, rfl⟩ := Option.map_eq_some_iff.mp hs
  obtain ⟨skipped, turn, hsocket, hskipped, hstop, rfl⟩ := readWebSocket_spec _ _ _ _ hread
  have htake : x.socket.take (x.socket.length - rest.length) = skipped ++ [turn] := by
    rw [hsocket, List.append_cons, List.length_append, Nat.add_sub_cancel, List.take_left]
  obtain ⟨turns, hlength, hfilter, hreads⟩ := h.pairs
  have hnone : skipped.filter stops = [] :=
    List.filter_eq_nil_iff.mpr fun t ht => by simp [hskipped t ht]
  dsimp only
  rw [htake]
  refine ⟨?_, turns ++ [turn], by simp [hlength], ?_, ?_⟩
  · rw [← h.taken, hsocket]
    simp
  · rw [hfilter, hsocket, List.filter_append, hnone, List.nil_append,
      List.filter_cons_of_pos hstop, List.append_cons]
  · rw [List.zip_append hlength]
    exact List.rel_append hreads (.cons (stopped_of_skipped hskipped hstop) .nil)

theorem Logged.run (h : Logged socket sizes x) (later : List Nat)
    (hrun : exec WebSocketBackend.read x later = some y) : Logged socket (sizes ++ later) y := by
  induction later generalizing sizes x with
  | nil =>
    cases hrun
    rwa [List.append_nil]
  | cons size later ih =>
    obtain ⟨z, hs, hrest⟩ := exec_cons_eq_some.mp hrun
    rw [List.append_cons]
    exact ih (h.step hs) hrest

/-- What an `Ok(0)` at the end cuts off is empty. -/
theorem bytes_takeWhile {reads : List WebSocketRead}
    (h : ∀ read ∈ reads.dropLast, read.result ≠ .ok []) :
    (reads.takeWhile fun read => read.result ≠ .ok []).flatMap WebSocketRead.bytes =
      reads.flatMap WebSocketRead.bytes := by
  rcases List.eq_nil_or_concat reads with rfl | ⟨before, last, rfl⟩
  · rfl
  · rw [List.concat_eq_append, List.dropLast_concat] at h
    rw [List.concat_eq_append, List.takeWhile_append_of_pos (by simpa using h),
      List.flatMap_append, List.flatMap_append]
    by_cases hlast : last.result = .ok []
    · simp [hlast, WebSocketRead.bytes, Except.toOption]
    · simp [hlast]

theorem length_takeWhile_le (reads : List WebSocketRead) :
    ((reads.takeWhile fun read => read.result ≠ .ok []).flatMap WebSocketRead.bytes).length ≤
      (reads.flatMap WebSocketRead.bytes).length :=
  ((List.takeWhile_sublist _).flatMap WebSocketRead.bytes).length_le

/-- Only the last read can have seen a `Close`, for it is the last message. -/
theorem not_close_of_mem_dropLast {reads : List WebSocketRead} {rest : List SocketTurn}
    (closeLast : CloseLast (reads.flatMap WebSocketRead.turns ++ rest))
    (hturns : ∀ read ∈ reads, read.turns ≠ []) (hread : read ∈ reads.dropLast)
    (hturn : turn ∈ read.turns) : turn.read ≠ .ok .close := by
  rcases List.eq_nil_or_concat reads with rfl | ⟨before, last, rfl⟩
  · cases hread
  · rw [List.concat_eq_append] at closeLast hturns hread
    rw [List.dropLast_concat] at hread
    have hlast : last.turns ++ rest ≠ [] :=
      List.append_ne_nil_of_left_ne_nil (hturns last (by simp)) _
    refine closeLast turn ?_
    rw [List.flatMap_append, List.append_assoc, List.flatMap_singleton,
      List.dropLast_append_of_ne_nil hlast]
    exact List.mem_append_left _ (List.mem_flatMap.mpr ⟨read, hread, hturn⟩)

/-- **A byte stream.**  For messages that end with a `Close` if they contain one, and any
buffers, the reads make up a byte stream exactly if each Binary message is not empty and
fits into the buffer of the read that it is the turn of. -/
theorem webSocket_byte_stream_iff (socket : List SocketTurn) (sizes : List Nat)
    (x : WebSocketBackend) (closeLast : CloseLast socket)
    (run : exec WebSocketBackend.read (.init socket) sizes = some x) :
    IsByteStream socket x ↔ ∀ p ∈ (socket.filter stops).zip sizes, Fits p.1 p.2 := by
  have hinit : Logged socket [] (.init socket) := ⟨rfl, [], rfl, rfl, .nil⟩
  have h : Logged socket sizes x := hinit.run sizes run
  obtain ⟨turns, hlength, hfilter, hreads⟩ := h.pairs
  have hzip : (socket.filter stops).zip sizes = turns.zip sizes := by
    rw [hfilter, ← List.append_nil sizes, List.zip_append hlength, List.zip_nil_right,
      List.append_nil, List.append_nil]
  rw [hzip]
  have hstopped : ∀ read ∈ x.reads, ∃ p ∈ turns.zip sizes, Stopped p.1 p.2 read :=
    fun read hread => exists_mem_of_forall₂ hreads hread
  constructor
  · rintro ⟨-, hstream, hclose⟩ p hp
    by_contra hnot
    obtain ⟨read, hread, hread'⟩ := exists_mem_of_forall₂ hreads.flip hp
    rcases hread'.of_not_fits hnot with ⟨hnil, hopen⟩ | hlt
    · exact hopen (hclose read hread hnil)
    · -- what is lost once is missing for good
      have hlost : (x.reads.flatMap WebSocketRead.bytes).length
          < (x.reads.flatMap WebSocketRead.payload).length := by
        rw [List.length_flatMap, List.length_flatMap]
        refine List.sum_lt_sum _ _ (fun r hr => ?_) ⟨read, hread, hlt⟩
        obtain ⟨_, -, hr⟩ := hstopped r hr
        exact hr.length_le
      rw [← hstream] at hlost
      exact absurd hlost (Nat.not_lt.mpr (length_takeWhile_le x.reads))
  · intro hfits
    have hall : ∀ read ∈ x.reads, read.bytes = read.payload
        ∧ (read.result = .ok [] → ∃ t ∈ read.turns, t.read = .ok .close) := by
      intro read hread
      obtain ⟨p, hp, hread'⟩ := hstopped read hread
      exact hread'.of_fits (hfits p hp)
    refine ⟨h.taken, ?_, fun read hread => (hall read hread).2⟩
    rw [bytes_takeWhile]
    · exact List.flatMap_congr fun read hread => (hall read hread).1
    · intro read hread hnil
      obtain ⟨turn, hturn, hclose⟩ := (hall read (List.mem_of_mem_dropLast hread)).2 hnil
      rw [← h.taken] at closeLast
      refine not_close_of_mem_dropLast closeLast (fun r hr => ?_) hread hturn hclose
      obtain ⟨_, -, hr⟩ := hstopped r hr
      exact hr.turns

/-- A ping, two Binary messages and a `Close`. -/
def sampleSocket : List SocketTurn :=
  [⟨.ok (.ping []), .ok ()⟩, ⟨.ok (.binary [1, 2, 3]), .ok ()⟩, ⟨.ok (.binary [4]), .ok ()⟩,
    ⟨.ok .close, .ok ()⟩]

theorem webSocket_byte_stream_sample : ∃ x,
    exec WebSocketBackend.read (.init sampleSocket) [3, 3, 3] = some x ∧
      x.reads.map WebSocketRead.bytes = [[1, 2, 3], [4], []] ∧ IsByteStream sampleSocket x := by
  obtain ⟨x, run, hbytes⟩ :
      ∃ x, exec WebSocketBackend.read (.init sampleSocket) [3, 3, 3] = some x ∧
        x.reads.map WebSocketRead.bytes = [[1, 2, 3], [4], []] := by
    decide +kernel
  exact ⟨x, run, hbytes, (webSocket_byte_stream_iff sampleSocket [3, 3, 3] x
    (by decide +kernel) run).mpr (by decide +kernel)⟩

/-- With a buffer of two bytes the third is lost. -/
theorem binary_message_truncated : ∃ x,
    exec WebSocketBackend.read (.init sampleSocket) [2, 2, 2] = some x ∧
      x.reads.flatMap WebSocketRead.bytes = [1, 2, 4] ∧
      x.reads.flatMap WebSocketRead.payload = [1, 2, 3, 4] ∧ ¬ IsByteStream sampleSocket x := by
  decide +kernel

end MediumOverlay.Android
