import MediumOverlay.Android.Download

/-!
# The backends of the Android network stack

`StreamBackends` keeps four tables: the backend of each stream, the service of each
stream, the bytes that are still to be written for it, and a pool of idle backends by
service.  Its calls connect, read and write, and each of these can fail.

A backend is an object.  It is known by the attempt to connect that it came from, and it
brings along what its reads and writes will return.  Where nothing more is said, a call
would block.
-/

namespace MediumOverlay.Android.Backends

open Netstack

/-! ## The pool -/

/-- `IdlePool`. -/
structure IdlePool (τ : Type) where
  maxPerService : Nat
  backends : AList fun _ : String => List τ

namespace IdlePool

variable {τ : Type}

def new (maxPerService : Nat) : IdlePool τ := ⟨maxPerService, ∅⟩

/-- `push`.  Where there is no room, the backend comes back. -/
def push (pool : IdlePool τ) (serviceId : String) (backend : τ) : Except τ Unit × IdlePool τ :=
  let entries := (pool.backends.lookup serviceId).getD []
  if pool.maxPerService ≤ entries.length then
    (.error backend, { pool with backends := pool.backends.insert serviceId entries })
  else (.ok (), { pool with backends := pool.backends.insert serviceId (entries ++ [backend]) })

/-- `pop`. -/
def pop (pool : IdlePool τ) (serviceId : String) : Option τ × IdlePool τ :=
  match pool.backends.lookup serviceId with
  | none => (none, pool)
  | some entries =>
    let backends :=
      if entries.tail.isEmpty then pool.backends.erase serviceId
      else pool.backends.insert serviceId entries.tail
    (entries.head?, { pool with backends })

/-- `len`. -/
def len (pool : IdlePool τ) (serviceId : String) : Nat :=
  ((pool.backends.lookup serviceId).map List.length).getD 0

end IdlePool

/-! ## Backends -/

/-- `ActiveBackend`: the attempt that it came from, and what its calls return. -/
structure ActiveBackend where
  attempt : Nat
  reads : List (Except IoError Bytes)
  writes : List (Except IoError Nat)

/-- `BackendConnectOutcome`. -/
structure BackendConnectOutcome where
  reads : List (Except IoError Bytes)
  writes : List (Except IoError Nat)
  selectedIcePath : Option IceCandidate

/-- What comes of an attempt: `connect_backend` with `configure_nonblocking`, by the
number of the attempt, the route and the preferred path. -/
abbrev Connect : Type :=
  Nat → BackendRoute → Option IceCandidate → Except String BackendConnectOutcome

/-- `StreamBackends`, with the number of attempts to connect so far. -/
structure StreamBackends where
  routes : AList fun _ : String => BackendRoute
  streams : AList fun _ : String => ActiveBackend
  streamServices : AList fun _ : String => String
  idleBackends : IdlePool ActiveBackend
  pendingWrites : AList fun _ : String => Bytes
  selectedIcePaths : AList fun _ : String => IceCandidate
  attempts : Nat

/-- A call that is made for a stream. -/
inductive Operation where
  | write (streamId : String) (offered : Bytes) (result : Except IoError Nat)
  | read (streamId : String) (result : Except IoError Bytes)
  | send (streamId : String) (bytes : Bytes)
  /-- `remove_stream` and `close_tcp`. -/
  | close (streamId : String)
deriving DecidableEq

namespace StreamBackends

def new (routes : AList fun _ : String => BackendRoute) : StreamBackends where
  routes := routes
  streams := ∅
  streamServices := ∅
  idleBackends := .new IDLE_BACKENDS_PER_SERVICE
  pendingWrites := ∅
  selectedIcePaths := ∅
  attempts := 0

/-- The backends after an attempt. -/
def attempted (backends : StreamBackends) (serviceId : String)
    (outcome : Except String BackendConnectOutcome) : StreamBackends :=
  match outcome with
  | .error _ => { backends with attempts := backends.attempts + 1 }
  | .ok outcome =>
    { backends with
      attempts := backends.attempts + 1
      selectedIcePaths :=
        match outcome.selectedIcePath with
        | none => backends.selectedIcePaths
        | some candidate => backends.selectedIcePaths.insert serviceId candidate }

/-- `ensure_idle_backend`. -/
def ensureIdleBackend (connect : Connect) (backends : StreamBackends) (serviceId : String) :
    StreamBackends :=
  if IDLE_BACKENDS_PER_SERVICE ≤ backends.idleBackends.len serviceId then backends
  else match backends.routes.lookup serviceId with
    | some (.sessionGrant grant controlPin) =>
      let outcome := connect backends.attempts (.sessionGrant grant controlPin)
        (backends.selectedIcePaths.lookup serviceId)
      let after := backends.attempted serviceId outcome
      match outcome with
      | .error _ => after
      | .ok outcome =>
        { after with
          idleBackends := (after.idleBackends.push serviceId
            ⟨backends.attempts, outcome.reads, outcome.writes⟩).2 }
    | _ => backends

/-- `warm_up`, with the services in the order of the map. -/
def warmUp (connect : Connect) (order : List String) (backends : StreamBackends) :
    StreamBackends :=
  (order.filter fun serviceId =>
    match backends.routes.lookup serviceId with
    | some (.sessionGrant _ _) => true
    | _ => false).foldl (ensureIdleBackend connect) backends

/-- A new backend for a service. -/
def connectBackend (connect : Connect) (backends : StreamBackends) (serviceId : String)
    (route : BackendRoute) : Except String ActiveBackend × StreamBackends :=
  let outcome := connect backends.attempts route (backends.selectedIcePaths.lookup serviceId)
  (outcome.map fun outcome => ⟨backends.attempts, outcome.reads, outcome.writes⟩,
    backends.attempted serviceId outcome)

/-- `take_or_connect_backend`. -/
def takeOrConnectBackend (connect : Connect) (backends : StreamBackends) (serviceId : String)
    (route : BackendRoute) : Except String ActiveBackend × StreamBackends :=
  match backends.idleBackends.pop serviceId with
  | (some stream, idleBackends) => (.ok stream, { backends with idleBackends })
  | (none, idleBackends) =>
    StreamBackends.connectBackend connect { backends with idleBackends } serviceId route

/-- `remove_stream`. -/
def removeStream (connect : Connect) (backends : StreamBackends) (streamId : String) :
    StreamBackends :=
  let rest := { backends with
    streams := backends.streams.erase streamId
    pendingWrites := backends.pendingWrites.erase streamId
    streamServices := backends.streamServices.erase streamId }
  match backends.streamServices.lookup streamId with
  | none => rest
  | some serviceId => rest.ensureIdleBackend connect serviceId

end StreamBackends

/-! ## Writes -/

/-- What `flush_pending_to_writer` leaves: what the backend will return, the bytes that
are pending, the error if there was one, and the calls that were made. -/
structure Flush where
  writes : List (Except IoError Nat)
  pending : Bytes
  error : Option IoError
  calls : List (Bytes × Except IoError Nat)

/-- `std::io::ErrorKind::WouldBlock.into()`. -/
def wouldBlock : IoError := ⟨.wouldBlock, ""⟩

/-- `flush_pending_to_writer`. -/
def flushPendingToWriter (writes : List (Except IoError Nat)) (pending : Bytes) : Flush :=
  if pending.isEmpty then ⟨writes, pending, none, []⟩
  else
    let offered := pending.take SCRATCH_LEN
    match writes with
    | [] => ⟨[], pending, none, [(offered, .error wouldBlock)]⟩
    | .ok 0 :: writes => ⟨writes, pending, none, [(offered, .ok 0)]⟩
    | .ok written :: writes =>
      let rest := flushPendingToWriter writes (pending.drop written)
      { rest with calls := (offered, .ok written) :: rest.calls }
    | .error error :: writes =>
      if error.isTimeout then ⟨writes, pending, none, [(offered, .error error)]⟩
      else if error.kind = .interrupted then
        let rest := flushPendingToWriter writes pending
        { rest with calls := (offered, .error error) :: rest.calls }
      else ⟨writes, pending, some error, [(offered, .error error)]⟩

namespace Flush

/-- The bytes that the writer took. -/
def accepted (calls : List (Bytes × Except IoError Nat)) : Bytes :=
  calls.flatMap fun
    | (offered, .ok written) => offered.take written
    | (_, .error _) => []

/-- No write takes more than it is offered. -/
def Bounded (flush : Flush) : Prop :=
  ∀ offered written, (offered, .ok written) ∈ flush.calls → written ≤ offered.length

/-- The answers are those of the writer, in order, which behind them would block. -/
def AnsweredBy (flush : Flush) (writes : List (Except IoError Nat)) : Prop :=
  flush.calls.map Prod.snd ++ flush.writes = writes
    ∨ flush.calls.map Prod.snd = writes ++ [.error wouldBlock] ∧ flush.writes = []

/-- The last call ends the flush. -/
inductive Ends (flush : Flush) : Prop where
  | empty (error : flush.error = none) (pending : flush.pending = [])
  | refused (error : flush.error = none) (offered : Bytes)
      (last : flush.calls.getLast? = some (offered, .ok 0))
  | timeout (error : flush.error = none) (offered : Bytes) (e : IoError)
      (last : flush.calls.getLast? = some (offered, .error e)) (isTimeout : e.isTimeout = true)
  | failed (offered : Bytes) (e : IoError) (error : flush.error = some e)
      (last : flush.calls.getLast? = some (offered, .error e)) (isTimeout : e.isTimeout = false)
      (kind : e.kind ≠ .interrupted)

/-- A call before the others does not change how the flush ends. -/
theorem Ends.cons {flush : Flush} (call : Bytes × Except IoError Nat) (h : flush.Ends) :
    Ends { flush with calls := call :: flush.calls } := by
  have hlast : ∀ {last}, flush.calls.getLast? = some last →
      (call :: flush.calls).getLast? = some last := by
    intro last hlast
    rw [List.getLast?_cons, hlast, Option.getD_some]
  cases h with
  | empty error pending => exact .empty error pending
  | refused error offered last => exact .refused error offered (hlast last)
  | timeout error offered e last isTimeout =>
    exact .timeout error offered e (hlast last) isTimeout
  | failed offered e error last isTimeout kind =>
    exact .failed offered e error (hlast last) isTimeout kind

end Flush

theorem ends_flushPendingToWriter (writes : List (Except IoError Nat)) (pending : Bytes) :
    (flushPendingToWriter writes pending).Ends := by
  fun_induction flushPendingToWriter writes pending with
  | case1 writes pending hempty => exact .empty rfl (List.isEmpty_iff.mp hempty)
  | case2 pending hempty offered => exact .timeout rfl _ _ rfl rfl
  | case3 pending hempty offered writes => exact .refused rfl _ rfl
  | case4 pending hempty offered written writes hwritten rest ih => exact ih.cons _
  | case5 pending hempty offered error writes htimeout => exact .timeout rfl _ _ rfl htimeout
  | case6 pending hempty offered error writes htimeout hkind rest ih => exact ih.cons _
  | case7 pending hempty offered error writes htimeout hkind =>
    exact .failed _ _ rfl rfl (Bool.eq_false_iff.mpr htimeout) hkind

/-- What was taken and what is left are what was pending. -/
theorem accepted_flushPendingToWriter (writes : List (Except IoError Nat)) (pending : Bytes)
    (h : (flushPendingToWriter writes pending).Bounded) :
    Flush.accepted (flushPendingToWriter writes pending).calls
      ++ (flushPendingToWriter writes pending).pending = pending := by
  fun_induction flushPendingToWriter writes pending with
  | case1 | case2 | case3 | case5 | case7 => rfl
  | case4 pending hempty offered written writes hwritten rest ih =>
    have hle : written ≤ offered.length := h _ _ List.mem_cons_self
    have htake : offered.take written = pending.take written := by
      rw [List.take_take, min_eq_left (hle.trans (List.length_take_le _ _))]
    calc Flush.accepted ((offered, .ok written) :: rest.calls) ++ rest.pending
        = offered.take written ++ (Flush.accepted rest.calls ++ rest.pending) :=
          List.append_assoc _ _ _
      _ = pending.take written ++ pending.drop written := by
          rw [htake, ih fun _ _ hmem => h _ _ (List.mem_cons_of_mem _ hmem)]
      _ = pending := List.take_append_drop _ _
  | case6 pending hempty offered error writes htimeout hkind rest ih =>
    exact ih fun _ _ hmem => h _ _ (List.mem_cons_of_mem _ hmem)

theorem answeredBy_flushPendingToWriter (writes : List (Except IoError Nat)) (pending : Bytes) :
    (flushPendingToWriter writes pending).AnsweredBy writes := by
  fun_induction flushPendingToWriter writes pending with
  | case1 | case3 | case5 | case7 => exact .inl rfl
  | case2 => exact .inr ⟨rfl, rfl⟩
  | case4 pending hempty offered written writes hwritten rest ih
  | case6 pending hempty offered error writes htimeout hkind rest ih =>
    exact ih.imp (congrArg (_ :: ·)) (And.imp_left (congrArg (_ :: ·)))

/-- **A flush loses nothing.**  Whatever the writer answers, what it took and what is left are
what was pending.  An error is the last answer and is neither a timeout nor an interruption.
Without an error something is left only behind a write that took nothing or a timeout. -/
theorem flush_conserves (writes : List (Except IoError Nat)) (pending : Bytes)
    (hbounded : (flushPendingToWriter writes pending).Bounded) :
    (flushPendingToWriter writes pending).AnsweredBy writes
      ∧ Flush.accepted (flushPendingToWriter writes pending).calls
        ++ (flushPendingToWriter writes pending).pending = pending
      ∧ (∀ e, (flushPendingToWriter writes pending).error = some e →
        e.kind ∉ [.wouldBlock, .timedOut, .interrupted]
          ∧ ∃ offered, (flushPendingToWriter writes pending).calls.getLast?
            = some (offered, .error e))
      ∧ ((flushPendingToWriter writes pending).error = none →
        (flushPendingToWriter writes pending).pending ≠ [] →
        ∃ offered answer, (flushPendingToWriter writes pending).calls.getLast?
            = some (offered, answer)
          ∧ (answer = .ok 0 ∨ ∃ e, answer = .error e ∧ e.kind ∈ [.wouldBlock, .timedOut])) := by
  have hkind : ∀ e : IoError, e.isTimeout = true ↔ e.kind ∈ [.wouldBlock, .timedOut] := by
    simp [IoError.isTimeout]
  refine ⟨answeredBy_flushPendingToWriter writes pending,
    accepted_flushPendingToWriter writes pending hbounded, fun e he => ?_,
    fun herror hpending => ?_⟩
  · cases ends_flushPendingToWriter writes pending with
    | empty error | refused error | timeout error => cases error.symm.trans he
    | failed offered e' error last isTimeout kind =>
      cases error.symm.trans he
      refine ⟨?_, offered, last⟩
      rw [← Bool.not_eq_true, hkind] at isTimeout
      simp_all
  · cases ends_flushPendingToWriter writes pending with
    | empty error pending => exact absurd pending hpending
    | refused error offered last => exact ⟨offered, _, last, .inl rfl⟩
    | timeout error offered e last isTimeout =>
      exact ⟨offered, _, last, .inr ⟨e, rfl, (hkind e).mp isTimeout⟩⟩
    | failed offered e error => cases error.symm.trans herror

/-- One write is interrupted, one takes two bytes of three, and the last fails. -/
def sampleWrites : List (Except IoError Nat) :=
  [.error ⟨.interrupted, ""⟩, .ok 2, .error ⟨.os 32, ""⟩]

theorem flush_conserves_sample :
    Flush.accepted (flushPendingToWriter sampleWrites [1, 2, 3]).calls
      ++ (flushPendingToWriter sampleWrites [1, 2, 3]).pending = [1, 2, 3] := by
  have hcalls : (flushPendingToWriter sampleWrites [1, 2, 3]).calls
      = [([1, 2, 3], .error ⟨.interrupted, ""⟩), ([1, 2, 3], .ok 2), ([3], .error ⟨.os 32, ""⟩)] :=
    rfl
  exact (flush_conserves _ _ (by simp [Flush.Bounded, hcalls])).2.1

/-! ## The page of an error -/

/-- `html_escape`. -/
def htmlEscape (value : String) : String :=
  (((value.replace "&" "&amp;").replace "<" "&lt;").replace ">" "&gt;").replace "\"" "&quot;"

/-- `diagnostic_http_response`. -/
def diagnosticHttpResponse (status : Nat) (title body : String) : String :=
  let body := "<!doctype html><html><head><meta charset=\"utf-8\"><title>" ++ htmlEscape title
    ++ "</title></head><body style=\"font-family: sans-serif; padding: 24px; line-height: 1.45\">"
    ++ "<h1>" ++ htmlEscape title ++ "</h1><pre style=\"white-space: pre-wrap\">"
    ++ htmlEscape body ++ "</pre></body></html>"
  "HTTP/1.1 " ++ toString status ++ " " ++ title
    ++ "\r\nContent-Type: text/html; charset=utf-8\r\nContent-Length: "
    ++ toString body.utf8ByteSize ++ "\r\nConnection: close\r\n\r\n" ++ body

/-- The page of a service whose backend cannot be reached. -/
def backendUnavailable (serviceId error : String) : String :=
  diagnosticHttpResponse 502 "Medium backend unavailable"
    ("Medium resolved the service and accepted the browser TCP connection, "
      ++ "but no backend candidate could be reached for service `" ++ serviceId
      ++ "`.\n\nLast error:\n" ++ error
      ++ "\n\nCheck that the node-agent is running and that either direct TCP is reachable "
      ++ "or relay/WSS relay is configured and reachable from this phone.")

/-! ## The loop -/

/-- The state of `run_tun_loop`, with the calls that were made for streams. -/
structure Loop (interface : Interface) where
  backends : StreamBackends
  stack : MediumStack interface
  log : List Operation

namespace Loop

variable {interface : Interface}

/-- `flush_pending_backend`, and if it failed. -/
def flushPendingBackend (x : Loop interface) (streamId : String) : Bool × Loop interface :=
  match x.backends.streams.lookup streamId with
  | none =>
    (false, { x with backends := { x.backends with
      pendingWrites := x.backends.pendingWrites.erase streamId } })
  | some stream =>
    match x.backends.pendingWrites.lookup streamId with
    | none => (false, x)
    | some pending =>
      let flush := flushPendingToWriter stream.writes pending
      (flush.error.isSome,
        { x with
          backends := { x.backends with
            streams := x.backends.streams.insert streamId { stream with writes := flush.writes }
            pendingWrites :=
              if flush.error.isNone && flush.pending.isEmpty then
                x.backends.pendingWrites.erase streamId
              else x.backends.pendingWrites.insert streamId flush.pending }
          log := x.log ++ flush.calls.map fun call => .write streamId call.1 call.2 })

/-- `remove_stream` with `close_tcp`. -/
def endStream (connect : Connect) (x : Loop interface) (streamId : String) : Loop interface where
  backends := x.backends.removeStream connect streamId
  stack := (x.stack.closeTcp streamId).getD x.stack
  log := x.log ++ [.close streamId]

/-- The first loop of `pump_writes`: the streams that are to be closed. -/
def flushAll : List String → Loop interface → List String × Loop interface
  | [], x => ([], x)
  | streamId :: order, x =>
    let (failed, y) := x.flushPendingBackend streamId
    let (closed, z) := flushAll order y
    (if failed then streamId :: closed else closed, z)

/-- `pump_writes`, with the streams in the order of the map. -/
def pumpWrites (connect : Connect) (order : List String) (x : Loop interface) : Loop interface :=
  let (closed, y) := flushAll order x
  closed.foldl (endStream connect) y

/-! ## Reads -/

/-- How the reads of a stream end: with nothing to read, with the end of the backend or
an error of it, or with an error of `send_tcp`. -/
inductive ReadEnd where
  | blocked
  | closed
  | failed
deriving DecidableEq, Repr

/-- What the reads of a stream leave. -/
structure Read (interface : Interface) where
  reads : List (Except IoError Bytes)
  stack : MediumStack interface
  ended : ReadEnd
  calls : List Operation

/-- The inner loop of `pump_reads`. -/
def readStream (streamId : String) :
    List (Except IoError Bytes) → MediumStack interface → Read interface
  | [], stack => ⟨[], stack, .blocked, [.read streamId (.error wouldBlock)]⟩
  | .ok bytes :: reads, stack =>
    if bytes.isEmpty then ⟨reads, stack, .closed, [.read streamId (.ok bytes)]⟩
    else match stack.sendTcp streamId bytes with
      | none => ⟨reads, stack, .failed, [.read streamId (.ok bytes), .send streamId bytes]⟩
      | some stack =>
        let rest := readStream streamId reads stack
        { rest with
          calls := .read streamId (.ok bytes) :: .send streamId bytes :: rest.calls }
  | .error error :: reads, stack =>
    if error.kind = .wouldBlock then
      ⟨reads, stack, .blocked, [.read streamId (.error error)]⟩
    else if error.kind = .interrupted then
      let rest := readStream streamId reads stack
      { rest with calls := .read streamId (.error error) :: rest.calls }
    else ⟨reads, stack, .closed, [.read streamId (.error error)]⟩

/-- The loop after the reads of a stream. -/
def afterRead (x : Loop interface) (streamId : String) (stream : ActiveBackend)
    (read : Read interface) : Loop interface where
  backends := { x.backends with
    streams := x.backends.streams.insert streamId { stream with reads := read.reads } }
  stack := read.stack
  log := x.log ++ read.calls

/-- The first loop of `pump_reads`: the streams that are to be closed, or `none` if it
returns early. -/
def readAll : List String → Loop interface → Option (List String) × Loop interface
  | [], x => (some [], x)
  | streamId :: order, x =>
    match x.backends.streams.lookup streamId with
    | none => readAll order x
    | some stream =>
      let read := readStream streamId stream.reads x.stack
      let y := x.afterRead streamId stream read
      match read.ended with
      | .failed => (none, y)
      | .blocked => readAll order y
      | .closed =>
        let (closed, z) := readAll order y
        (closed.map (streamId :: ·), z)

/-- `pump_reads`, with the streams in the order of the map, and if it returns `Ok`. -/
def pumpReads (connect : Connect) (order : List String) (x : Loop interface) :
    Bool × Loop interface :=
  match readAll order x with
  | (none, y) => (false, y)
  | (some closed, y) => (true, closed.foldl (endStream connect) y)

/-! ## Events -/

/-- `close_tcp`, and if it returns `Ok`. -/
def closeTcp (x : Loop interface) (streamId : String) : Bool × Loop interface :=
  match x.stack.closeTcp streamId with
  | none => (false, x)
  | some stack => (true, { x with stack })

/-- `open_backend`, and if it returns `Ok`. -/
def openBackend (connect : Connect) (x : Loop interface) (streamId serviceId : String) :
    Bool × Loop interface :=
  match x.backends.routes.lookup serviceId with
  | none => x.closeTcp streamId
  | some route =>
    match x.backends.takeOrConnectBackend connect serviceId route with
    | (.ok stream, backends) =>
      (true, { x with backends := { backends with
        streams := backends.streams.insert streamId stream
        streamServices := backends.streamServices.insert streamId serviceId } })
    | (.error error, backends) =>
      let response := (backendUnavailable serviceId error).toUTF8.data.toList
      let x := { x with backends, stack := (x.stack.sendTcp streamId response).getD x.stack }
      x.closeTcp streamId

/-- `queue_backend_write`, and if it failed. -/
def queueBackendWrite (x : Loop interface) (streamId : String) (bytes : Bytes) :
    Bool × Loop interface :=
  match x.backends.streams.lookup streamId with
  | none => (false, x)
  | some _ =>
    let pending := (x.backends.pendingWrites.lookup streamId).getD []
    let pendingWrites := x.backends.pendingWrites.insert streamId (pending ++ bytes)
    flushPendingBackend { x with backends := { x.backends with pendingWrites } } streamId

/-- `handle_event`, and if it returns `Ok`. -/
def handleEvent (connect : Connect) (x : Loop interface) : TcpPumpEvent → Bool × Loop interface
  | .connected streamId serviceId => x.openBackend connect streamId serviceId
  | .received streamId _ bytes =>
    let (failed, y) := x.queueBackendWrite streamId bytes
    (true, if failed then y.endStream connect streamId else y)
  | .closed streamId _ =>
    (true, { x with backends := x.backends.removeStream connect streamId })

end Loop

/-! ## What the tables keep -/

variable {β : Type}

theorem lookup_erase_eq (table : AList fun _ : String => β) (key other : String) :
    (table.erase key).lookup other = if other = key then none else table.lookup other := by
  split
  next heq => rw [heq, AList.lookup_erase]
  next hne => exact AList.lookup_erase_ne hne

theorem lookup_insert_eq (table : AList fun _ : String => β) (key other : String) (value : β) :
    (table.insert key value).lookup other =
      if other = key then some value else table.lookup other := by
  split
  next heq => rw [heq, AList.lookup_insert]
  next hne => exact AList.lookup_insert_ne hne

variable {table : AList fun _ : String => β} {key other : String} {found : β}

theorem lookup_erase_eq_some :
    (table.erase key).lookup other = some found ↔
      other ≠ key ∧ table.lookup other = some found := by
  rw [lookup_erase_eq]
  by_cases heq : other = key
  · simp [heq]
  · simp [heq]

theorem lookup_insert_eq_some {value : β} :
    (table.insert key value).lookup other = some found ↔
      (other = key ∧ found = value) ∨ (other ≠ key ∧ table.lookup other = some found) := by
  rw [lookup_insert_eq]
  by_cases heq : other = key
  · simp [heq, eq_comm]
  · simp [heq]

namespace StreamBackends

/-- The invariants of the tables. -/
structure Tables (backends : StreamBackends) : Prop where
  services : ∀ streamId, streamId ∈ backends.streams ↔ streamId ∈ backends.streamServices
  pending : ∀ streamId ∈ backends.pendingWrites, streamId ∈ backends.streams
  idle : ∀ serviceId, backends.idleBackends.len serviceId ≤ 1
  routes : ∀ serviceId, 0 < backends.idleBackends.len serviceId →
    ∃ grant controlPin, backends.routes.lookup serviceId = some (.sessionGrant grant controlPin)
  queues : ∀ serviceId queue, backends.idleBackends.backends.lookup serviceId = some queue →
    queue ≠ []
  objects : ∀ streamId stream serviceId queue, backends.streams.lookup streamId = some stream →
    backends.idleBackends.backends.lookup serviceId = some queue →
    ∀ backend ∈ queue, backend.attempt ≠ stream.attempt

/-- The idle backend of a service. -/
def Idle (backends : StreamBackends) (serviceId : String) (backend : ActiveBackend) : Prop :=
  backends.idleBackends.backends.lookup serviceId = some [backend]

/-- What every call keeps. -/
structure Kept (backends : StreamBackends) : Prop where
  services : ∀ streamId, streamId ∈ backends.streams ↔ streamId ∈ backends.streamServices
  pending : ∀ streamId ∈ backends.pendingWrites, streamId ∈ backends.streams
  max : backends.idleBackends.maxPerService = IDLE_BACKENDS_PER_SERVICE
  single : ∀ serviceId queue, backends.idleBackends.backends.lookup serviceId = some queue →
    ∃ backend, queue = [backend]
  routes : ∀ serviceId backend, backends.Idle serviceId backend →
    ∃ grant controlPin, backends.routes.lookup serviceId = some (.sessionGrant grant controlPin)
  idleAttempt : ∀ serviceId backend, backends.Idle serviceId backend →
    backend.attempt < backends.attempts
  idleDistinct : ∀ serviceId serviceId' backend backend', backends.Idle serviceId backend →
    backends.Idle serviceId' backend' → backend.attempt = backend'.attempt → serviceId = serviceId'
  streamAttempt : ∀ streamId stream, backends.streams.lookup streamId = some stream →
    stream.attempt < backends.attempts
  objects : ∀ streamId stream serviceId backend, backends.streams.lookup streamId = some stream →
    backends.Idle serviceId backend → backend.attempt ≠ stream.attempt

variable {backends : StreamBackends} {connect : Connect} {streamId serviceId : String}

/-- A service has an idle backend or no entry. -/
theorem Kept.idle_or_none (h : backends.Kept) (serviceId : String) :
    backends.idleBackends.backends.lookup serviceId = none ∨
      ∃ backend, backends.Idle serviceId backend := by
  cases hqueue : backends.idleBackends.backends.lookup serviceId with
  | none => exact Or.inl rfl
  | some queue =>
    obtain ⟨backend, rfl⟩ := h.single serviceId queue hqueue
    exact Or.inr ⟨backend, hqueue⟩

theorem Kept.tables (h : backends.Kept) : backends.Tables where
  services := h.services
  pending := h.pending
  idle serviceId := by
    rcases h.idle_or_none serviceId with hnone | ⟨backend, hidle⟩
    · simp [IdlePool.len, hnone]
    · simp [IdlePool.len, show _ = _ from hidle]
  routes serviceId hpos := by
    rcases h.idle_or_none serviceId with hnone | ⟨backend, hidle⟩
    · simp [IdlePool.len, hnone] at hpos
    · exact h.routes serviceId backend hidle
  queues serviceId queue hqueue := by
    obtain ⟨backend, rfl⟩ := h.single serviceId queue hqueue
    exact List.cons_ne_nil backend []
  objects streamId stream serviceId queue hstream hqueue backend hbackend := by
    obtain ⟨other, rfl⟩ := h.single serviceId queue hqueue
    rw [List.mem_singleton.mp hbackend]
    exact h.objects streamId stream serviceId other hstream hqueue

theorem kept_new (routes : AList fun _ : String => BackendRoute) : (new routes).Kept := by
  constructor <;> simp [new, Idle, IdlePool.new]

theorem attempted_eq (backends : StreamBackends) (serviceId : String)
    (outcome : Except String BackendConnectOutcome) :
    ∃ selectedIcePaths, backends.attempted serviceId outcome =
      { backends with attempts := backends.attempts + 1, selectedIcePaths } := by
  cases outcome with
  | error error => exact ⟨_, rfl⟩
  | ok outcome => exact ⟨_, rfl⟩

/-- `ensure_idle_backend` leaves the routes and the tables of the streams. -/
theorem ensureIdleBackend_eq (connect : Connect) (backends : StreamBackends) (serviceId : String) :
    ∃ idleBackends selectedIcePaths attempts, backends.ensureIdleBackend connect serviceId =
      { backends with idleBackends, selectedIcePaths, attempts } := by
  unfold ensureIdleBackend
  split
  · exact ⟨_, _, _, rfl⟩
  · split
    next grant controlPin hroute =>
      obtain ⟨_, heq⟩ := attempted_eq backends serviceId (connect backends.attempts
        (.sessionGrant grant controlPin) (backends.selectedIcePaths.lookup serviceId))
      dsimp only
      rw [heq]
      split <;> exact ⟨_, _, _, rfl⟩
    next => exact ⟨_, _, _, rfl⟩

/-- An attempt is made. -/
theorem Kept.attempted (h : backends.Kept) (serviceId : String)
    (outcome : Except String BackendConnectOutcome) :
    (backends.attempted serviceId outcome).Kept := by
  obtain ⟨selectedIcePaths, heq⟩ := attempted_eq backends serviceId outcome
  rw [heq]
  exact { h with
    idleAttempt := fun serviceId backend hidle =>
      Nat.lt_succ_of_lt (h.idleAttempt serviceId backend hidle)
    streamAttempt := fun streamId stream hstream =>
      Nat.lt_succ_of_lt (h.streamAttempt streamId stream hstream) }

/-- A backend of the last attempt is put in the pool. -/
theorem Kept.push (h : backends.Kept) {backend : ActiveBackend} {grant : SessionOpenGrant}
    {controlPin : Option String}
    (hnone : backends.idleBackends.backends.lookup serviceId = none)
    (hroute : backends.routes.lookup serviceId = some (.sessionGrant grant controlPin))
    (hattempt : backend.attempt < backends.attempts)
    (hidles : ∀ serviceId other, backends.Idle serviceId other → other.attempt ≠ backend.attempt)
    (hstreams : ∀ streamId stream, backends.streams.lookup streamId = some stream →
      stream.attempt ≠ backend.attempt) :
    Kept { backends with idleBackends := (backends.idleBackends.push serviceId backend).2 } := by
  have hpush : (backends.idleBackends.push serviceId backend).2 =
      { backends.idleBackends with
        backends := backends.idleBackends.backends.insert serviceId [backend] } := by
    simp [IdlePool.push, hnone, h.max, IDLE_BACKENDS_PER_SERVICE]
  rw [hpush]
  have hidle : ∀ {other otherBackend}, Idle { backends with idleBackends :=
      { backends.idleBackends with
        backends := backends.idleBackends.backends.insert serviceId [backend] } } other
      otherBackend → (other = serviceId ∧ otherBackend = backend) ∨
        backends.Idle other otherBackend := by
    intro other otherBackend hidle
    rcases lookup_insert_eq_some.mp hidle with ⟨heq, hqueue⟩ | ⟨-, hold⟩
    · exact Or.inl ⟨heq, List.singleton_inj.mp hqueue⟩
    · exact Or.inr hold
  refine ⟨h.services, h.pending, h.max, ?_, ?_, ?_, ?_, h.streamAttempt, ?_⟩
  · intro other queue hqueue
    rcases lookup_insert_eq_some.mp hqueue with ⟨-, hqueue⟩ | ⟨-, hold⟩
    · exact ⟨backend, hqueue⟩
    · exact h.single other queue hold
  · intro other otherBackend hother
    rcases hidle hother with ⟨rfl, rfl⟩ | hother
    · exact ⟨grant, controlPin, hroute⟩
    · exact h.routes other otherBackend hother
  · intro other otherBackend hother
    rcases hidle hother with ⟨rfl, rfl⟩ | hother
    · exact hattempt
    · exact h.idleAttempt other otherBackend hother
  · intro other other' otherBackend otherBackend' hother hother' hsame
    rcases hidle hother with ⟨heq, rfl⟩ | hold <;> rcases hidle hother' with ⟨heq', rfl⟩ | hold'
    · exact heq.trans heq'.symm
    · exact absurd hsame.symm (hidles other' otherBackend' hold')
    · exact absurd hsame (hidles other otherBackend hold)
    · exact h.idleDistinct other other' otherBackend otherBackend' hold hold' hsame
  · intro streamId stream other otherBackend hstream hother
    rcases hidle hother with ⟨rfl, rfl⟩ | hother
    · exact (hstreams streamId stream hstream).symm
    · exact h.objects streamId stream other otherBackend hstream hother

theorem Kept.ensureIdleBackend (h : backends.Kept) (connect : Connect) (serviceId : String) :
    (backends.ensureIdleBackend connect serviceId).Kept := by
  unfold StreamBackends.ensureIdleBackend
  split
  next => exact h
  next hlen =>
    have hnone : backends.idleBackends.backends.lookup serviceId = none := by
      refine (h.idle_or_none serviceId).resolve_right ?_
      rintro ⟨backend, hidle⟩
      simp [IdlePool.len, show _ = _ from hidle, IDLE_BACKENDS_PER_SERVICE] at hlen
    split
    next grant controlPin hroute =>
      generalize connect backends.attempts (.sessionGrant grant controlPin)
        (backends.selectedIcePaths.lookup serviceId) = outcome
      cases outcome with
      | error error => exact h.attempted serviceId (.error error)
      | ok outcome =>
        have hafter := h.attempted serviceId (.ok outcome)
        obtain ⟨selectedIcePaths, heq⟩ := attempted_eq backends serviceId (.ok outcome)
        dsimp only
        rw [heq] at hafter ⊢
        refine hafter.push hnone hroute (Nat.lt_succ_self _) ?_ ?_
        · exact fun other backend hidle => (h.idleAttempt other backend hidle).ne
        · exact fun streamId stream hstream => (h.streamAttempt streamId stream hstream).ne
    next => exact h

theorem kept_foldl {α : Type} {f : StreamBackends → α → StreamBackends}
    (hf : ∀ backends a, backends.Kept → (f backends a).Kept) (as : List α) (h : backends.Kept) :
    (as.foldl f backends).Kept := by
  induction as generalizing backends with
  | nil => exact h
  | cons a as ih => exact ih (hf backends a h)

theorem Kept.warmUp (h : backends.Kept) (connect : Connect) (order : List String) :
    (backends.warmUp connect order).Kept :=
  kept_foldl (fun _ serviceId h => h.ensureIdleBackend connect serviceId) _ h

variable {stream : ActiveBackend}

/-- A backend is taken from the pool. -/
theorem Kept.pop (h : backends.Kept) {idleBackends : IdlePool ActiveBackend}
    (hpop : backends.idleBackends.pop serviceId = (some stream, idleBackends)) :
    Kept { backends with idleBackends } ∧ stream.attempt < backends.attempts ∧
      ∀ other backend, Idle { backends with idleBackends } other backend →
        backend.attempt ≠ stream.attempt := by
  rcases h.idle_or_none serviceId with hnone | ⟨backend, hidle⟩
  · simp [IdlePool.pop, hnone] at hpop
  · have hpopped : backends.idleBackends.pop serviceId = (some backend, { backends.idleBackends with
        backends := backends.idleBackends.backends.erase serviceId }) := by
      simp [IdlePool.pop, show _ = _ from hidle]
    rw [hpop, Prod.mk.injEq, Option.some_inj] at hpopped
    obtain ⟨rfl, rfl⟩ := hpopped
    -- what is left of the pool was there before
    have hlookup : ∀ {other queue}, (backends.idleBackends.backends.erase serviceId).lookup other =
        some queue → other ≠ serviceId ∧ backends.idleBackends.backends.lookup other =
          some queue := lookup_erase_eq_some.mp
    refine ⟨?_, h.idleAttempt serviceId stream hidle, fun other backend hother hsame => ?_⟩
    · exact { h with
        single := fun other queue hqueue => h.single other queue (hlookup hqueue).2
        routes := fun other backend hother => h.routes other backend (hlookup hother).2
        idleAttempt := fun other backend hother => h.idleAttempt other backend (hlookup hother).2
        idleDistinct := fun other other' backend backend' hother hother' =>
          h.idleDistinct other other' backend backend' (hlookup hother).2 (hlookup hother').2
        objects := fun streamId stream other backend hstream hother =>
          h.objects streamId stream other backend hstream (hlookup hother).2 }
    · obtain ⟨hne, hother⟩ := hlookup hother
      exact hne (h.idleDistinct other serviceId backend stream hother hidle hsame)

variable {route : BackendRoute} {result : Except String ActiveBackend} {after : StreamBackends}

/-- A new backend is in no table. -/
theorem Kept.connectBackend (h : backends.Kept)
    (hconnect : backends.connectBackend connect serviceId route = (result, after)) :
    after.Kept ∧ ∀ stream, result = .ok stream → stream.attempt < after.attempts ∧
      ∀ other backend, after.Idle other backend → backend.attempt ≠ stream.attempt := by
  unfold StreamBackends.connectBackend at hconnect
  generalize connect backends.attempts route (backends.selectedIcePaths.lookup serviceId) =
    outcome at hconnect
  rw [Prod.mk.injEq] at hconnect
  obtain ⟨rfl, rfl⟩ := hconnect
  refine ⟨h.attempted serviceId outcome, fun stream hstream => ?_⟩
  obtain ⟨selectedIcePaths, heq⟩ := attempted_eq backends serviceId outcome
  rw [heq]
  cases outcome with
  | error error => cases hstream
  | ok outcome =>
    cases hstream
    exact ⟨Nat.lt_succ_self _, fun other backend hother =>
      (h.idleAttempt other backend hother).ne⟩

/-- The backend that a stream gets is in no table. -/
theorem Kept.takeOrConnectBackend (h : backends.Kept)
    (htake : backends.takeOrConnectBackend connect serviceId route = (result, after)) :
    after.Kept ∧ ∀ stream, result = .ok stream → stream.attempt < after.attempts ∧
      ∀ other backend, after.Idle other backend → backend.attempt ≠ stream.attempt := by
  unfold StreamBackends.takeOrConnectBackend at htake
  split at htake
  next stream idleBackends hpop =>
    cases htake
    obtain ⟨hkept, hattempt, hother⟩ := h.pop hpop
    refine ⟨hkept, fun stream hstream => ?_⟩
    cases hstream
    exact ⟨hattempt, hother⟩
  next idleBackends hpop =>
    have hsame : idleBackends = backends.idleBackends := by
      rcases h.idle_or_none serviceId with hnone | ⟨backend, hidle⟩
      · simp only [IdlePool.pop, hnone, Prod.mk.injEq, true_and] at hpop
        exact hpop.symm
      · simp [IdlePool.pop, show _ = _ from hidle] at hpop
    subst hsame
    exact h.connectBackend htake

/-- A stream gets a backend that is in no table. -/
theorem Kept.insert (h : backends.Kept) (streamId serviceId : String)
    (hattempt : stream.attempt < backends.attempts)
    (hidles : ∀ other backend, backends.Idle other backend → backend.attempt ≠ stream.attempt) :
    Kept { backends with
      streams := backends.streams.insert streamId stream
      streamServices := backends.streamServices.insert streamId serviceId } := by
  have hlookup : ∀ {other otherStream}, (backends.streams.insert streamId stream).lookup other =
      some otherStream → otherStream = stream ∨
        backends.streams.lookup other = some otherStream := by
    intro other otherStream hother
    exact (lookup_insert_eq_some.mp hother).imp And.right And.right
  exact { h with
    services := fun other => by
      rw [AList.mem_insert, AList.mem_insert, h.services]
    pending := fun other hother => (AList.mem_insert _).mpr (Or.inr (h.pending other hother))
    streamAttempt := fun other otherStream hother => by
      rcases hlookup hother with rfl | hold
      · exact hattempt
      · exact h.streamAttempt other otherStream hold
    objects := fun other otherStream serviceId backend hother hidle => by
      rcases hlookup hother with rfl | hold
      · exact hidles serviceId backend hidle
      · exact h.objects other otherStream serviceId backend hold hidle }

/-- A backend goes on, and what is pending changes. -/
theorem Kept.update (h : backends.Kept) (hstream : backends.streams.lookup streamId = some stream)
    (stream' : ActiveBackend) (hattempt : stream'.attempt = stream.attempt)
    {pendingWrites : AList fun _ : String => Bytes}
    (hpending : ∀ other ∈ pendingWrites, other = streamId ∨ other ∈ backends.pendingWrites) :
    Kept { backends with streams := backends.streams.insert streamId stream', pendingWrites } := by
  have hmem : streamId ∈ backends.streams := by
    rw [← AList.lookup_isSome, hstream]
    rfl
  have hlookup : ∀ {other otherStream}, (backends.streams.insert streamId stream').lookup other =
      some otherStream → ∃ before, backends.streams.lookup other = some before ∧
        before.attempt = otherStream.attempt := by
    intro other otherStream hother
    rcases lookup_insert_eq_some.mp hother with ⟨rfl, rfl⟩ | ⟨-, hold⟩
    · exact ⟨stream, hstream, hattempt.symm⟩
    · exact ⟨otherStream, hold, rfl⟩
  exact { h with
    services := fun other => by
      rw [AList.mem_insert, ← h.services]
      exact ⟨fun hother => hother.elim (fun heq => heq ▸ hmem) id, Or.inr⟩
    pending := fun other hother => by
      refine (AList.mem_insert _).mpr ?_
      exact (hpending other hother).imp_right fun hold => h.pending other hold
    streamAttempt := fun other otherStream hother => by
      obtain ⟨before, hbefore, hsame⟩ := hlookup hother
      exact hsame ▸ h.streamAttempt other before hbefore
    objects := fun other otherStream serviceId backend hother hidle => by
      obtain ⟨before, hbefore, hsame⟩ := hlookup hother
      exact hsame ▸ h.objects other before serviceId backend hbefore hidle }

theorem Kept.erase (h : backends.Kept) (streamId : String) :
    Kept { backends with
      streams := backends.streams.erase streamId
      pendingWrites := backends.pendingWrites.erase streamId
      streamServices := backends.streamServices.erase streamId } := by
  have hlookup : ∀ {other stream}, (backends.streams.erase streamId).lookup other = some stream →
      backends.streams.lookup other = some stream :=
    fun hother => (lookup_erase_eq_some.mp hother).2
  exact { h with
    services := fun other => by
      rw [AList.mem_erase, AList.mem_erase, h.services]
    pending := fun other hother => by
      obtain ⟨hne, hold⟩ := AList.mem_erase.mp hother
      exact AList.mem_erase.mpr ⟨hne, h.pending other hold⟩
    streamAttempt := fun other stream hother => h.streamAttempt other stream (hlookup hother)
    objects := fun other stream serviceId backend hother =>
      h.objects other stream serviceId backend (hlookup hother) }

/-- Bytes are queued for a stream. -/
theorem Kept.queue (h : backends.Kept) (hstream : backends.streams.lookup streamId = some stream)
    (bytes : Bytes) :
    Kept { backends with pendingWrites := backends.pendingWrites.insert streamId bytes } := by
  refine { h with pending := fun other hother => ?_ }
  rcases (AList.mem_insert _).mp hother with rfl | hold
  · rw [← AList.lookup_isSome, hstream]
    rfl
  · exact h.pending other hold

theorem Kept.removeStream (h : backends.Kept) (connect : Connect) (streamId : String) :
    (backends.removeStream connect streamId).Kept := by
  unfold StreamBackends.removeStream
  dsimp only
  split
  · exact h.erase streamId
  · exact (h.erase streamId).ensureIdleBackend connect _

end StreamBackends

namespace Loop

variable {interface : Interface} {x y : Loop interface} {connect : Connect} {streamId : String}

theorem kept_flushPendingBackend (h : x.backends.Kept) {failed : Bool}
    (hflush : x.flushPendingBackend streamId = (failed, y)) : y.backends.Kept := by
  unfold flushPendingBackend at hflush
  split at hflush
  next hnone =>
    cases hflush
    exact { h with pending := fun other hother => h.pending other (AList.mem_erase.mp hother).2 }
  next stream hstream =>
    split at hflush
    next => cases hflush; exact h
    next pending hpending =>
      cases hflush
      refine h.update hstream
        { stream with writes := (flushPendingToWriter stream.writes pending).writes } rfl
        fun other hother => ?_
      split at hother
      · exact Or.inr (AList.mem_erase.mp hother).2
      · exact (AList.mem_insert _).mp hother

theorem kept_endStream (h : x.backends.Kept) (connect : Connect) (streamId : String) :
    (x.endStream connect streamId).backends.Kept :=
  h.removeStream connect streamId

theorem kept_endStreams (h : x.backends.Kept) (connect : Connect) (closed : List String) :
    (closed.foldl (endStream connect) x).backends.Kept := by
  induction closed generalizing x with
  | nil => exact h
  | cons streamId closed ih => exact ih (kept_endStream h connect streamId)

theorem kept_flushAll (h : x.backends.Kept) (order : List String) :
    (flushAll order x).2.backends.Kept := by
  induction order generalizing x with
  | nil => exact h
  | cons streamId order ih => exact ih (kept_flushPendingBackend h rfl)

theorem kept_pumpWrites (h : x.backends.Kept) (connect : Connect) (order : List String) :
    (x.pumpWrites connect order).backends.Kept :=
  kept_endStreams (kept_flushAll h order) connect _

theorem kept_afterRead (h : x.backends.Kept) {stream : ActiveBackend}
    (hstream : x.backends.streams.lookup streamId = some stream) (read : Read interface) :
    (x.afterRead streamId stream read).backends.Kept :=
  h.update hstream { stream with reads := read.reads } rfl fun _ hother => Or.inr hother

theorem kept_readAll (h : x.backends.Kept) (order : List String) :
    (readAll order x).2.backends.Kept := by
  induction order generalizing x with
  | nil => exact h
  | cons streamId order ih =>
    rw [readAll]
    split
    next => exact ih h
    next stream hstream =>
      have hafter := kept_afterRead h hstream (readStream streamId stream.reads x.stack)
      dsimp only
      split
      · exact hafter
      · exact ih hafter
      · exact ih hafter

theorem kept_pumpReads (h : x.backends.Kept) (connect : Connect) (order : List String) :
    (x.pumpReads connect order).2.backends.Kept := by
  have hread := kept_readAll h order
  unfold pumpReads
  split
  next y hall =>
    rw [hall] at hread
    exact hread
  next closed y hall =>
    rw [hall] at hread
    exact kept_endStreams hread connect closed

theorem backends_closeTcp (x : Loop interface) (streamId : String) :
    (x.closeTcp streamId).2.backends = x.backends := by
  unfold closeTcp
  split <;> rfl

theorem kept_openBackend (h : x.backends.Kept) (connect : Connect) (streamId serviceId : String) :
    (x.openBackend connect streamId serviceId).2.backends.Kept := by
  unfold openBackend
  split
  next => rw [backends_closeTcp]; exact h
  next route hroute =>
    split
    next stream backends htake =>
      obtain ⟨hkept, hstream⟩ := h.takeOrConnectBackend htake
      obtain ⟨hattempt, hidles⟩ := hstream stream rfl
      exact hkept.insert streamId serviceId hattempt hidles
    next error backends htake =>
      rw [backends_closeTcp]
      exact (h.takeOrConnectBackend htake).1

theorem kept_queueBackendWrite (h : x.backends.Kept) (streamId : String) (bytes : Bytes) :
    (x.queueBackendWrite streamId bytes).2.backends.Kept := by
  unfold queueBackendWrite
  split
  next => exact h
  next stream hstream =>
    exact kept_flushPendingBackend (h.queue hstream _) rfl

theorem kept_handleEvent (h : x.backends.Kept) (connect : Connect) (event : TcpPumpEvent) :
    (x.handleEvent connect event).2.backends.Kept := by
  cases event with
  | connected streamId serviceId => exact kept_openBackend h connect streamId serviceId
  | received streamId serviceId bytes =>
    have hqueue := kept_queueBackendWrite h streamId bytes
    unfold handleEvent
    dsimp only
    split
    · exact kept_endStream hqueue connect streamId
    · exact hqueue
  | closed streamId serviceId => exact h.removeStream connect streamId

end Loop

/-- The calls of `run_tun_loop`, each with the stack at that time. -/
inductive Call (interface : Interface) where
  | warmUp (order : List String)
  | handleEvent (stack : MediumStack interface) (event : TcpPumpEvent)
  | pumpWrites (stack : MediumStack interface) (order : List String)
  | pumpReads (stack : MediumStack interface) (order : List String)

/-- The backends after a call, whether it returns `Ok` or not. -/
def StreamBackends.call {interface : Interface} (connect : Connect) (backends : StreamBackends) :
    Call interface → StreamBackends
  | .warmUp order => backends.warmUp connect order
  | .handleEvent stack event => (Loop.handleEvent connect ⟨backends, stack, []⟩ event).2.backends
  | .pumpWrites stack order => (Loop.pumpWrites connect order ⟨backends, stack, []⟩).backends
  | .pumpReads stack order => (Loop.pumpReads connect order ⟨backends, stack, []⟩).2.backends

/-- **The tables of the backends.**  After every sequence of calls, whatever becomes of the
attempts to connect and of the reads and writes, the tables of the streams have the same
keys, pending bytes are for streams, and the pool has at most one backend for a service,
one with a session grant.  It has no empty queue, and no backend of it is that of a
stream. -/
theorem backend_tables (interface : Interface) (connect : Connect)
    (routes : AList fun _ : String => BackendRoute) (calls : List (Call interface)) :
    (calls.foldl (StreamBackends.call connect) (.new routes)).Tables := by
  refine (StreamBackends.kept_foldl ?_ calls (StreamBackends.kept_new routes)).tables
  intro backends call h
  cases call with
  | warmUp order => exact h.warmUp connect order
  | handleEvent stack event =>
    exact Loop.kept_handleEvent (x := ⟨backends, stack, []⟩) h connect event
  | pumpWrites stack order =>
    exact Loop.kept_pumpWrites (x := ⟨backends, stack, []⟩) h connect order
  | pumpReads stack order => exact Loop.kept_pumpReads (x := ⟨backends, stack, []⟩) h connect order

end MediumOverlay.Android.Backends
