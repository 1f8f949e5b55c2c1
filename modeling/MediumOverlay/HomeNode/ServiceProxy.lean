import MediumOverlay.HomeNode.Access
import MediumOverlay.Transport.HttpHeader

/-!
# The proxy of a service

`proxy_stream_to_service` joins a stream to the target of a service.  For a plain
service it connects and copies both ways.  An SSH service is wrapped in TLS first.
For an HTTP service it also reads the request before it connects, so that it can
answer in the target's place if the target is away, slow or silent.

A step is one call that returns: a read or a write of either side, a connection, a
timeout.  What it returns is up to the environment.  TLS stands between the proxy
and its stream, and here it may read and write anything on the stream at any time
and hand the proxy any bytes.
-/

namespace MediumOverlay

/-! ## HTTP -/

/-- The content length in a header line. -/
def contentLength (line : String) : Option Nat :=
  (Str.splitOnce ':' line).bind fun (name, value) =>
    if Str.eqIgnoreAsciiCase (Str.trim name) "content-length" then
      (Str.parseUnsigned (2 ^ 64 - 1) (Str.trim value)).toOption
    else none

/-- `complete_http_request`. -/
def completeHttpRequest (data : Bytes) : Bool :=
  match headerEnd data with
  | none => false
  | some headerEnd =>
    match String.fromUTF8? ⟨(data.take headerEnd).toArray⟩ with
    | none => true
    | some headers =>
      match (Str.lines headers).findSome? contentLength with
      | some length => length ≤ data.length - (headerEnd + 4)
      | none => true

/-- The response of `write_http_error_response`. -/
def httpErrorResponse (status body : String) : Bytes :=
  ("HTTP/1.1 " ++ status ++ "\r\ncontent-type: text/plain; charset=utf-8\r\ncontent-length: "
    ++ toString body.utf8ByteSize ++ "\r\nconnection: close\r\n\r\n" ++ body).toUTF8.data.toList

namespace ProxyService

/-- The response of `write_service_unavailable_response`. -/
def unavailableResponse (service : ProxyService) (error : IoError) : Bytes :=
  httpErrorResponse "502 Bad Gateway" ("Medium service target unavailable\n\nservice: "
    ++ service.id ++ "\ntarget: " ++ service.target ++ "\nerror: " ++ error.message ++ "\n")

/-- The response of `write_service_closed_response`. -/
def closedResponse (service : ProxyService) (error : String) : Bytes :=
  httpErrorResponse "502 Bad Gateway"
    ("Medium service target closed before returning a response\n\nservice: " ++ service.id
      ++ "\ntarget: " ++ service.target ++ "\nerror: " ++ error ++ "\n")

/-- The response of `write_service_timeout_response`. -/
def timeoutResponse (service : ProxyService) : Bytes :=
  httpErrorResponse "504 Gateway Timeout"
    ("Medium service target did not return a response in time\n\nservice: " ++ service.id
      ++ "\ntarget: " ++ service.target ++ "\n")

end ProxyService

/-! ## The machine -/

/-- One direction of `copy_bidirectional`: what it has read and not yet written,
whether it has seen the end, and whether it has passed the end on. -/
structure CopyDirection where
  pending : Bytes
  eof : Bool
  finished : Bool
deriving DecidableEq, Repr

/-- The length of a buffer of `copy_bidirectional`. -/
def COPY_BIDIRECTIONAL_LEN : Nat := 8192

namespace CopyDirection

def start : CopyDirection := ⟨[], false, false⟩

/-- The result of a read goes to the buffer. -/
def read (d : CopyDirection) (bytes : Bytes) : Option CopyDirection :=
  if d.eof || COPY_BIDIRECTIONAL_LEN < d.pending.length + bytes.length then none
  else if bytes.isEmpty then some { d with eof := true }
  else some { d with pending := d.pending ++ bytes }

/-- A write takes bytes from the buffer. -/
def wrote (d : CopyDirection) (n : Nat) : Option CopyDirection :=
  if 0 < n ∧ n ≤ d.pending.length then some { d with pending := d.pending.drop n } else none

/-- The end is passed on. -/
def shutdown (d : CopyDirection) : Option CopyDirection :=
  if d.eof ∧ d.pending = [] ∧ ¬d.finished then some { d with finished := true } else none

end CopyDirection

/-- Where `proxy_stream_to_service` is. -/
inductive Stage where
  /-- In `acceptor.accept`. -/
  | accept
  /-- In `read_http_request_for_proxy`, with what it has read. -/
  | request (buffer : Bytes)
  /-- In `TcpStream::connect`, with the request of an HTTP service. -/
  | connect (request : Option Bytes)
  /-- In `outbound.write_all`, with what is left of the request. -/
  | send (rest : Bytes)
  /-- In `forward_first_http_response_chunk`, before the read returns. -/
  | first
  /-- Behind that read, with what is left of the chunk. -/
  | forward (rest : Bytes)
  /-- In `write_http_error_response`, with what is left of the response. -/
  | respond (rest : Bytes)
  /-- In the shutdown at the end of that. -/
  | closing
  | copy (toTarget toInbound : CopyDirection)
  | done (result : Except AnyhowError Unit)
deriving DecidableEq

def Stage.isConnect : Stage → Bool
  | .connect _ => true
  | _ => false

/-- What happens to the target of a service. -/
inductive TargetEffect where
  | connect (target : String)
  | write (target : String) (bytes : Bytes)
deriving DecidableEq, Repr

def TargetEffect.target : TargetEffect → String
  | .connect target => target
  | .write target _ => target

/-- The proxy, with the bytes it has read from its stream and written to it, and what
it has done to the target. -/
structure ServiceProxy where
  service : ProxyService
  stage : Stage
  read : Bytes
  written : Bytes
  effects : List TargetEffect

namespace ServiceProxy

inductive Event where
  /-- TLS reads from the stream, or writes to it. -/
  | rawRead (bytes : Bytes)
  | rawWrite (bytes : Bytes)
  | accepted
  | acceptFails
  /-- A read of the inbound side returns these bytes, none at the end. -/
  | read (bytes : Bytes)
  | readFails (error : IoError)
  /-- A write to the inbound side takes this many bytes. -/
  | write (n : Nat)
  | flushed
  | closed
  /-- A write, flush or shutdown of the inbound side fails. -/
  | writeFails (error : IoError)
  | timeout
  | connected
  | connectFails (error : IoError)
  | targetRead (bytes : Bytes)
  | targetReadFails (error : IoError)
  | targetWrite (n : Nat)
  | targetShutdown
  | targetWriteFails (error : IoError)
deriving DecidableEq

/-- The inbound side is TLS over the stream. -/
def tls (p : ServiceProxy) : Bool := p.service.tlsConfig.isSome

/-- The bytes that the proxy is about to write to its inbound side. -/
def outgoing (p : ServiceProxy) : Bytes :=
  match p.stage with
  | .forward rest | .respond rest => rest
  | .copy _ toInbound => toInbound.pending
  | _ => []

/-- The bytes a step reads from the stream. -/
def takes (p : ServiceProxy) : Event → Bytes
  | .rawRead bytes => bytes
  | .read bytes => if p.tls then [] else bytes
  | _ => []

/-- The bytes a step writes to the stream. -/
def puts (p : ServiceProxy) : Event → Bytes
  | .rawWrite bytes => bytes
  | .write n => if p.tls then [] else p.outgoing.take n
  | _ => []

/-- `read_http_request_for_proxy` on the result of a read. -/
def afterRequestRead (buffer bytes : Bytes) : Stage :=
  if bytes.isEmpty then .connect (some buffer)
  else if completeHttpRequest (buffer ++ bytes) || 64 * 1024 < (buffer ++ bytes).length then
    .connect (some (buffer ++ bytes))
  else .request (buffer ++ bytes)

/-- `copy_bidirectional` returns when both directions have finished. -/
def copying (toTarget toInbound : CopyDirection) : Stage :=
  if toTarget.finished && toInbound.finished then .done (.ok ()) else .copy toTarget toInbound

/-- The stage of `outbound.write_all` and, with nothing left, the one behind it. -/
def sending (rest : Bytes) : Stage := if rest.isEmpty then .first else .send rest

def fails (error : AnyhowError) : Stage := .done (.error error)

/-- The stage behind an event. -/
def next (p : ServiceProxy) (e : Event) : Option Stage :=
  match p.stage, e with
  | .done _, _ => none
  | stage, .rawRead _ | stage, .rawWrite _ => if p.tls then some stage else none
  -- TLS
  | .accept, .accepted => some (if p.service.tlsMode = .raw then .connect none else .request [])
  | .accept, .acceptFails => some (fails (.message ("accept TLS for service " ++ p.service.id)))
  -- the request of an HTTP service
  | .request buffer, .read bytes =>
    if bytes.length ≤ 1024 then some (afterRequestRead buffer bytes) else none
  | .request _, .readFails error => some (fails (.io error))
  | .request _, .timeout =>
    some (fails (.message ("timed out waiting for HTTP request for service " ++ p.service.id)))
  -- the connection
  | .connect (some request), .connected => some (sending request)
  | .connect none, .connected => some (.copy .start .start)
  | .connect (some _), .connectFails error =>
    some (.respond (p.service.unavailableResponse error))
  | .connect none, .connectFails _ =>
    some (fails (.message ("connect service " ++ p.service.id ++ " target " ++ p.service.target)))
  | .send rest, .targetWrite n =>
    if 0 < n ∧ n ≤ rest.length then some (sending (rest.drop n)) else none
  | .send _, .targetWriteFails error => some (.respond (p.service.closedResponse error.message))
  -- the first chunk of the response
  | .first, .targetRead bytes =>
    if 16 * 1024 < bytes.length then none
    else if bytes.isEmpty then
      some (.respond (p.service.closedResponse
        "service target closed before returning a response"))
    else some (.forward bytes)
  | .first, .targetReadFails error => some (.respond (p.service.closedResponse error.message))
  | .first, .timeout => some (.respond p.service.timeoutResponse)
  | .forward rest, .write n =>
    if 0 < n ∧ n ≤ rest.length then some (.forward (rest.drop n)) else none
  | .forward [], .flushed => some (.copy .start .start)
  | .forward _, .writeFails error => some (fails (.io error))
  -- a response in the target's place
  | .respond rest, .write n =>
    if 0 < n ∧ n ≤ rest.length then some (.respond (rest.drop n)) else none
  | .respond [], .flushed => some .closing
  | .respond _, .writeFails error => some (fails (.io error))
  | .closing, .closed => some (.done (.ok ()))
  | .closing, .writeFails error => some (fails (.io error))
  -- both ways
  | .copy toTarget toInbound, .read bytes => (toTarget.read bytes).map (.copy · toInbound)
  | .copy toTarget toInbound, .targetWrite n => (toTarget.wrote n).map (.copy · toInbound)
  | .copy toTarget toInbound, .targetShutdown => toTarget.shutdown.map (copying · toInbound)
  | .copy toTarget toInbound, .targetRead bytes => (toInbound.read bytes).map (.copy toTarget ·)
  | .copy toTarget toInbound, .write n => (toInbound.wrote n).map (.copy toTarget ·)
  | .copy toTarget toInbound, .closed => toInbound.shutdown.map (copying toTarget ·)
  | .copy _ _, .readFails error | .copy _ _, .writeFails error
  | .copy _ _, .targetReadFails error | .copy _ _, .targetWriteFails error =>
    some (fails (.io error))
  | _, _ => none

/-- What a step to a stage does to the target.  It connects when the stage begins. -/
def touches (p : ServiceProxy) (e : Event) (stage : Stage) : List TargetEffect :=
  match p.stage, e with
  | .send rest, .targetWrite n => [.write p.service.target (rest.take n)]
  | .copy toTarget _, .targetWrite n => [.write p.service.target (toTarget.pending.take n)]
  | _, _ => if stage.isConnect && !p.stage.isConnect then [.connect p.service.target] else []

def step (p : ServiceProxy) (e : Event) : Option ServiceProxy :=
  (p.next e).map fun stage =>
    { p with
      stage := stage
      read := p.read ++ p.takes e
      written := p.written ++ p.puts e
      effects := p.effects ++ p.touches e stage }

/-- `proxy_stream_to_service` at its start. -/
def start (service : ProxyService) : ServiceProxy :=
  if service.tlsConfig.isSome then ⟨service, .accept, [], [], []⟩
  else ⟨service, .connect none, [], [], [.connect service.target]⟩

/-- At its start the proxy has read and written nothing, and the only target it can
have gone to is that of the service. -/
theorem start_spec (service : ProxyService) :
    (start service).service = service ∧ (start service).read = [] ∧ (start service).written = []
      ∧ ∀ f ∈ (start service).effects, f.target = service.target := by
  unfold start
  split
  · exact ⟨rfl, rfl, rfl, by simp⟩
  · exact ⟨rfl, rfl, rfl, by simp [TargetEffect.target]⟩

/-- A step touches no target but that of the service. -/
theorem target_of_touches {p : ServiceProxy} {e : Event} {stage : Stage} {f : TargetEffect}
    (hf : f ∈ p.touches e stage) : f.target = p.service.target := by
  unfold touches at hf
  split at hf
  · rw [List.mem_singleton.mp hf]
    rfl
  · rw [List.mem_singleton.mp hf]
    rfl
  · split at hf
    · rw [List.mem_singleton.mp hf]
      rfl
    · cases hf

theorem step_eq_some {p q : ServiceProxy} {e : Event} (h : p.step e = some q) :
    q.service = p.service ∧ q.read = p.read ++ p.takes e ∧ q.written = p.written ++ p.puts e
      ∧ ∃ new, q.effects = p.effects ++ new ∧ ∀ f ∈ new, f.target = p.service.target := by
  obtain ⟨stage, -, rfl⟩ := Option.map_eq_some_iff.mp h
  exact ⟨rfl, rfl, rfl, _, rfl, fun f hf => target_of_touches hf⟩

/-- The proxy writes nothing in the step in which it returns. -/
theorem puts_of_next_done {p : ServiceProxy} {e : Event} (h : p.next e = some (.done (.ok ()))) :
    p.puts e = [] := by
  cases e with
  | rawWrite bytes | write n => cases hstage : p.stage <;> simp [next, hstage] at h
  | _ => rfl

end ServiceProxy

end MediumOverlay
