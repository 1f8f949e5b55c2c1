import MediumOverlay.Android.Routing
import MediumOverlay.Android.Upload

/-!
# The Android download path

`pump_reads` reads from the backend of every stream until nothing is left to read, and
hands what it has read to the TCP socket of the stream.  The socket takes as many bytes as
it has room for and says how many, but `pump_reads` does not look.  The rest is lost, and
the stream goes on behind it (`download_lossless_iff`).

The end of a backend closes the stream.  By then all that was read has been handed over,
so the close itself loses nothing.  A socket that takes no bytes at all, because the
connection is gone, ends the loop for all streams.
-/

namespace MediumOverlay

open Trace

namespace Android

open Netstack

variable {interface : Interface}

/-! ## The socket of a stream -/

/-- The socket of the first slot with the stream. -/
def streamSocket (streamId : String) (slots : List TcpSlot) : Option TcpSocket :=
  (slots.find? fun slot => slot.streamId = some streamId).map TcpSlot.socket

/-- The bytes that it has still to send. -/
def transmitBuffer (streamId : String) (slots : List TcpSlot) : Bytes :=
  ((streamSocket streamId slots).map TcpSocket.tx).getD []

/-- The bytes that `send_slice` takes. -/
def taken (socket : TcpSocket) (bytes : Bytes) : Bytes :=
  match socket.sendSlice bytes with
  | .error _ => []
  | .ok (n, _) => bytes.take n

/-- `send_slice` takes all of the bytes. -/
def HasRoom (socket : TcpSocket) (bytes : Bytes) : Prop :=
  socket.maySend = true ∧ bytes.length ≤ TCP_BUFFER_SIZE - socket.tx.length

instance (socket : TcpSocket) (bytes : Bytes) : Decidable (HasRoom socket bytes) :=
  inferInstanceAs (Decidable (_ ∧ _))

/-- `send_slice` puts what it takes behind what is there. -/
theorem sendSlice_eq (socket : TcpSocket) (bytes : Bytes) :
    socket.sendSlice bytes =
      if socket.maySend then
        .ok ((taken socket bytes).length,
          { socket with tx := socket.tx ++ taken socket bytes })
      else .error .invalidState := by
  unfold taken TcpSocket.sendSlice
  cases socket.maySend with
  | false => rfl
  | true => simp [← List.take_eq_take_min]

variable {socket : TcpSocket} {bytes : Bytes}

theorem taken_eq_self_iff (hne : bytes ≠ []) :
    taken socket bytes = bytes ↔ HasRoom socket bytes := by
  unfold taken TcpSocket.sendSlice HasRoom
  cases socket.maySend with
  | false => simpa using hne.symm
  | true => simp [List.take_eq_self_iff, List.length_take]

theorem length_taken_le (socket : TcpSocket) (bytes : Bytes) :
    (taken socket bytes).length ≤ bytes.length := by
  unfold taken
  split
  next => exact Nat.zero_le _
  next => exact List.length_take_le' _ _

/-- What is not taken in full is taken in part. -/
theorem length_taken_lt (hne : bytes ≠ []) (h : ¬ HasRoom socket bytes) :
    (taken socket bytes).length < bytes.length := by
  have hpart : taken socket bytes <+: bytes := by
    unfold taken
    split
    next => exact List.nil_prefix
    next => exact List.take_prefix _ _
  refine lt_of_le_of_ne (length_taken_le socket bytes) fun hlength => h ?_
  exact (taken_eq_self_iff hne).mp (hpart.eq_of_length hlength)

variable {streamId : String}

theorem modifyStream_eq_some {f : TcpSlot → Option TcpSlot}
    (hf : ∀ slot slot', f slot = some slot' → slot'.streamId = slot.streamId)
    {slots slots' : List TcpSlot} (h : MediumStack.modifyStream streamId f slots = some slots') :
    ∃ slot slot', slots.find? (fun slot => slot.streamId = some streamId) = some slot ∧
      f slot = some slot' ∧
      slots'.find? (fun slot => slot.streamId = some streamId) = some slot' := by
  obtain ⟨before, slot, slot', after, rfl, rfl, hbefore, hstream, hslot'⟩ :=
    MediumStack.modifyStream_eq_some_iff.mp h
  have hnone : before.find? (fun slot => slot.streamId = some streamId) = none := by
    simpa using hbefore
  refine ⟨slot, slot', ?_, hslot', ?_⟩
  · rw [List.find?_append, hnone, List.find?_cons_of_pos (by simpa using hstream)]
    rfl
  · rw [List.find?_append, hnone, List.find?_cons_of_pos (by simpa [hf _ _ hslot'] using hstream)]
    rfl

theorem modifyStream_eq_none {f : TcpSlot → Option TcpSlot} {slots : List TcpSlot}
    (h : MediumStack.modifyStream streamId f slots = none) {slot : TcpSlot}
    (hslot : slots.find? (fun slot => slot.streamId = some streamId) = some slot) :
    f slot = none := by
  obtain ⟨hstream, before, after, rfl, hbefore⟩ := List.find?_eq_some_iff_append.mp hslot
  cases hmodify : f slot with
  | none => rfl
  | some slot' =>
    have hsome := MediumStack.modifyStream_eq_some_iff.mpr ⟨before, slot, slot', after, rfl, rfl,
      by simpa using hbefore, by simpa using hstream, hmodify⟩
    rw [h] at hsome
    cases hsome

/-- `send_tcp` puts what is taken in the socket. -/
theorem sendTcp_eq_some {stack stack' : MediumStack interface}
    (h : stack.sendTcp streamId bytes = some stack') :
    ∃ socket, streamSocket streamId stack.tcpSlots = some socket ∧ socket.maySend = true ∧
      streamSocket streamId stack'.tcpSlots
        = some { socket with tx := socket.tx ++ taken socket bytes } := by
  obtain ⟨slots, hslots, rfl⟩ := Option.map_eq_some_iff.mp h
  obtain ⟨slot, slot', hfound, hsend, hfound'⟩ := modifyStream_eq_some (by
    intro slot slot' hslot
    split at hslot
    next => cases hslot
    next =>
      cases hslot
      rfl) hslots
  rw [sendSlice_eq] at hsend
  cases hmay : slot.socket.maySend with
  | false =>
    rw [hmay] at hsend
    cases hsend
  | true =>
    rw [hmay] at hsend
    cases hsend
    refine ⟨slot.socket, by rw [streamSocket, hfound]; rfl, hmay, ?_⟩
    rw [streamSocket, hfound', Option.map_some]

/-- Where it fails, the socket takes nothing. -/
theorem sendTcp_eq_none {stack : MediumStack interface} (h : stack.sendTcp streamId bytes = none)
    (hsocket : streamSocket streamId stack.tcpSlots = some socket) : socket.maySend = false := by
  obtain ⟨slot, hslot, rfl⟩ := Option.map_eq_some_iff.mp hsocket
  have hnone := modifyStream_eq_none (Option.map_eq_none_iff.mp h) hslot
  rw [sendSlice_eq] at hnone
  cases hmay : slot.socket.maySend with
  | false => rfl
  | true =>
    rw [hmay] at hnone
    cases hnone

/-! ## The loop -/

/-- Where `run_tun_loop` is. -/
inductive Download.Task where
  | idle
  /-- In `pump_reads`, at the first of the streams that are left.  Those that are to be
  closed come behind all of them. -/
  | pump (rest closed : List String)
  /-- The loop has ended with an error. -/
  | failed
deriving DecidableEq

/-- What has happened to a stream. -/
inductive Download.Entry where
  | read (streamId : String) (bytes : Bytes)
  | enqueued (streamId : String) (bytes : Bytes)
  | closed (streamId : String)
deriving DecidableEq

/-- The tunnel, with the log of `pump_reads`. -/
structure Download (interface : Interface) where
  tunnel : Tunnel interface
  task : Download.Task
  log : List Download.Entry

namespace Download

inductive Event where
  /-- The loop outside of `pump_reads`. -/
  | tunnel (e : Tunnel.Event)
  /-- `pump_reads` with the streams in the order of the map. -/
  | pump (order : List String)
  /-- What the backend returns. -/
  | read (result : Except IoError Bytes)
  /-- The next stream is closed. -/
  | close (connects : Bool)

def start (tunnel : Tunnel interface) : Download interface := ⟨tunnel, .idle, []⟩

/-- The loop goes on with these streams, or `pump_reads` returns. -/
def pumping : List String → List String → Task
  | [], [] => .idle
  | rest, closed => .pump rest closed

/-- `send_tcp` with what has been read.  The loop ends if it fails.  What the socket has
got is what is in its buffer behind what was there. -/
def send (x : Download interface) (streamId : String) (bytes : Bytes) : Download interface :=
  match x.tunnel.stack.sendTcp streamId bytes with
  | none =>
    { x with
      task := .failed
      log := x.log ++ [.read streamId bytes, .enqueued streamId []] }
  | some stack =>
    let queued := transmitBuffer streamId x.tunnel.stack.tcpSlots
    { x with
      tunnel := { x.tunnel with stack }
      log := x.log ++ [.read streamId bytes,
        .enqueued streamId ((transmitBuffer streamId stack.tcpSlots).drop queued.length)] }

def step (x : Download interface) (e : Event) : Option (Download interface) :=
  match x.task, e with
  | .idle, .tunnel (.write _ _) => none
  | .idle, .tunnel e => (x.tunnel.step e).map fun tunnel => { x with tunnel }
  | .idle, .pump order =>
    if order.Perm (x.tunnel.backends.streams.map Prod.fst).dedup then
      some { x with task := pumping order [] }
    else none
  | .pump (streamId :: rest) closed, .read (.ok bytes) =>
    if SCRATCH_LEN < bytes.length then none
    else if bytes.isEmpty then some { x with task := pumping rest (closed ++ [streamId]) }
    else some (x.send streamId bytes)
  | .pump (streamId :: rest) closed, .read (.error error) =>
    if error.kind = .wouldBlock then some { x with task := pumping rest closed }
    else if error.kind = .interrupted then some x
    else some { x with task := pumping rest (closed ++ [streamId]) }
  | .pump [] (streamId :: closed), .close connects =>
    some
      { tunnel := x.tunnel.endStream streamId connects
        task := pumping [] closed
        log := x.log ++ [.closed streamId] }
  | _, _ => none

/-! ## What is lost -/

/-- What has been read for a stream. -/
def bytesRead (streamId : String) (log : List Entry) : Bytes :=
  log.flatMap fun
    | .read id bytes => if id = streamId then bytes else []
    | _ => []

/-- What has been put in the socket of a stream. -/
def bytesEnqueued (streamId : String) (log : List Entry) : Bytes :=
  log.flatMap fun
    | .enqueued id bytes => if id = streamId then bytes else []
    | _ => []

/-- All that has been read has been put in the sockets in order, and by the time that a
stream was closed too. -/
structure Lossless (log : List Entry) : Prop where
  enqueued : ∀ streamId, bytesEnqueued streamId log = bytesRead streamId log
  closed : ∀ before streamId, before ++ [.closed streamId] <+: log →
    bytesEnqueued streamId before = bytesRead streamId before

/-- For some stream, less has been put in the socket than has been read. -/
def Short (log : List Entry) : Prop :=
  ∃ streamId, (bytesEnqueued streamId log).length < (bytesRead streamId log).length

/-- There is room for what is read. -/
def Fits (x : Download interface) (e : Event) : Prop :=
  match x.task, e with
  | .pump (streamId :: _) _, .read (.ok bytes) =>
    bytes ≠ [] →
      ∃ socket ∈ streamSocket streamId x.tunnel.stack.tcpSlots, HasRoom socket bytes
  | _, _ => True

instance (x : Download interface) (e : Event) : Decidable (x.Fits e) := by
  unfold Fits
  split <;> infer_instance

/-- What a step adds to the log. -/
inductive Adds (x : Download interface) (e : Event) : List Entry → Prop where
  | none (fits : x.Fits e) : Adds x e []
  | closed (streamId : String) (fits : x.Fits e) : Adds x e [.closed streamId]
  | all (streamId : String) (bytes : Bytes) (fits : x.Fits e) :
      Adds x e [.read streamId bytes, .enqueued streamId bytes]
  | short (streamId : String) (bytes part : Bytes) (fits : ¬ x.Fits e)
      (length : part.length < bytes.length) :
      Adds x e [.read streamId bytes, .enqueued streamId part]

/-- What a stream takes of what has been read for it. -/
def takenBy (x : Download interface) (streamId : String) (bytes : Bytes) : Bytes :=
  ((streamSocket streamId x.tunnel.stack.tcpSlots).map (taken · bytes)).getD []

theorem log_send (x : Download interface) (streamId : String) (bytes : Bytes) :
    (x.send streamId bytes).log
      = x.log ++ [.read streamId bytes, .enqueued streamId (x.takenBy streamId bytes)] := by
  unfold send takenBy
  split
  next hsend =>
    cases hsocket : streamSocket streamId x.tunnel.stack.tcpSlots with
    | none => rfl
    | some socket =>
      have hmay := sendTcp_eq_none hsend hsocket
      have hnone : taken socket bytes = [] := by
        rw [taken, sendSlice_eq, hmay]
        rfl
      rw [Option.map_some, Option.getD_some, hnone]
  next stack hsend =>
    obtain ⟨socket, hsocket, -, hsocket'⟩ := sendTcp_eq_some hsend
    rw [transmitBuffer, transmitBuffer, hsocket, hsocket']
    simp only [Option.map_some, Option.getD_some, List.drop_left]

/-- A stream takes all of the bytes or is short of some. -/
theorem takenBy_cases (x : Download interface) (streamId : String) {bytes : Bytes}
    (hne : bytes ≠ []) {rest closed : List String}
    (htask : x.task = .pump (streamId :: rest) closed) :
    x.Fits (.read (.ok bytes)) ∧ x.takenBy streamId bytes = bytes ∨
      ¬ x.Fits (.read (.ok bytes)) ∧ (x.takenBy streamId bytes).length < bytes.length := by
  unfold takenBy
  cases hsocket : streamSocket streamId x.tunnel.stack.tcpSlots with
  | none =>
    refine .inr ⟨by simp [Fits, htask, hne, hsocket], ?_⟩
    exact List.length_pos_of_ne_nil hne
  | some socket =>
    have hfits : x.Fits (.read (.ok bytes)) ↔ HasRoom socket bytes := by
      simp [Fits, htask, hne, hsocket]
    rw [hfits]
    by_cases hroom : HasRoom socket bytes
    · exact .inl ⟨hroom, (taken_eq_self_iff hne).mpr hroom⟩
    · exact .inr ⟨hroom, length_taken_lt hne hroom⟩

variable {x : Download interface} {e : Event}

theorem step_adds {y : Download interface} (h : x.step e = some y) :
    ∃ new, y.log = x.log ++ new ∧ Adds x e new := by
  unfold step at h
  split at h
  next => cases h
  next e _ htask =>
    obtain ⟨tunnel, -, rfl⟩ := Option.map_eq_some_iff.mp h
    exact ⟨[], by simp, .none (by simp [Fits, htask])⟩
  next order htask =>
    obtain ⟨-, h⟩ := Option.ite_none_right_eq_some.mp h
    cases h
    exact ⟨[], by simp, .none (by simp [Fits, htask])⟩
  next streamId rest closed bytes htask =>
    split at h
    next => cases h
    next =>
      split at h
      next hnil =>
        cases h
        rw [List.isEmpty_iff] at hnil
        exact ⟨[], by simp, .none (by simp [Fits, htask, hnil])⟩
      next hne =>
        cases h
        rw [List.isEmpty_iff] at hne
        refine ⟨_, log_send x streamId bytes, ?_⟩
        obtain ⟨hfits, hall⟩ | ⟨hfits, hshort⟩ := takenBy_cases x streamId hne htask
        · rw [hall]
          exact .all streamId bytes hfits
        · exact .short streamId bytes _ hfits hshort
  next streamId rest closed error htask =>
    refine ⟨[], ?_, .none (by simp [Fits, htask])⟩
    rw [List.append_nil]
    split at h
    next =>
      cases h
      rfl
    next =>
      split at h <;> cases h <;> rfl
  next streamId closed connects htask =>
    cases h
    exact ⟨_, rfl, .closed streamId (by simp [Fits, htask])⟩
  next => cases h

theorem bytesRead_append (streamId : String) (log new : List Entry) :
    bytesRead streamId (log ++ new) = bytesRead streamId log ++ bytesRead streamId new :=
  List.flatMap_append

theorem bytesEnqueued_append (streamId : String) (log new : List Entry) :
    bytesEnqueued streamId (log ++ new)
      = bytesEnqueued streamId log ++ bytesEnqueued streamId new :=
  List.flatMap_append

variable {log new : List Entry}

theorem Lossless.adds (h : Lossless log) (hnew : Adds x e new) (hfits : x.Fits e) :
    Lossless (log ++ new) := by
  constructor
  · intro streamId
    rw [bytesRead_append, bytesEnqueued_append, h.enqueued]
    cases hnew with
    | none | closed => rfl
    | all id bytes => simp [bytesRead, bytesEnqueued]
    | short id bytes part hnot => exact absurd hfits hnot
  · intro before streamId hclosed
    cases hnew with
    | none =>
      rw [List.append_nil] at hclosed
      exact h.closed before streamId hclosed
    | closed id =>
      obtain heq | hclosed := List.prefix_concat_iff.mp hclosed
      · rw [(List.append_inj' heq rfl).1]
        exact h.enqueued streamId
      · exact h.closed before streamId hclosed
    | all id bytes =>
      rw [show log ++ [Entry.read id bytes, .enqueued id bytes]
        = (log ++ [.read id bytes]) ++ [.enqueued id bytes] by simp] at hclosed
      obtain heq | hclosed := List.prefix_concat_iff.mp hclosed
      · cases List.singleton_inj.mp (List.append_inj' heq rfl).2
      · obtain heq | hclosed := List.prefix_concat_iff.mp hclosed
        · cases List.singleton_inj.mp (List.append_inj' heq rfl).2
        · exact h.closed before streamId hclosed
    | short id bytes part hnot => exact absurd hfits hnot

theorem Lossless.short (h : Lossless log) (hnew : Adds x e new) (hfits : ¬ x.Fits e) :
    Short (log ++ new) := by
  cases hnew with
  | none hfit => exact absurd hfit hfits
  | closed _ hfit => exact absurd hfit hfits
  | all _ _ hfit => exact absurd hfit hfits
  | short id bytes part _ hlength =>
    refine ⟨id, ?_⟩
    rw [bytesRead_append, bytesEnqueued_append, h.enqueued]
    simpa [bytesRead, bytesEnqueued] using hlength

/-- No step makes up for what was lost. -/
theorem Short.adds (h : Short log) (hnew : Adds x e new) : Short (log ++ new) := by
  obtain ⟨streamId, hlt⟩ := h
  have hle : (bytesEnqueued streamId new).length ≤ (bytesRead streamId new).length := by
    cases hnew with
    | none | closed => exact le_rfl
    | all id bytes => simp [bytesRead, bytesEnqueued]
    | short id bytes part _ hlength =>
      by_cases hid : id = streamId
      · simpa [bytesRead, bytesEnqueued, hid] using hlength.le
      · simp [bytesRead, bytesEnqueued, hid]
  refine ⟨streamId, ?_⟩
  rw [bytesRead_append, bytesEnqueued_append, List.length_append, List.length_append]
  omega

theorem Short.not_lossless (h : Short log) : ¬ Lossless log := by
  intro hlossless
  obtain ⟨streamId, hlt⟩ := h
  rw [hlossless.enqueued streamId] at hlt
  exact lt_irrefl _ hlt

/-- What the backends have sent reaches the sockets exactly if there is room for every
read when it is made. -/
theorem download_lossless_iff (interface : Interface) (tunnel : Tunnel interface)
    (es : List Event) (x : Download interface) (h : exec step (start tunnel) es = some x) :
    Lossless x.log ↔ Meets step Fits (start tunnel) es := by
  refine exec_good_iff (G := fun x => Lossless x.log) (B := fun x => Short x.log)
    (P := fun x => Lossless x.log) ?_ ?_ ?_ (fun _ hlossless => hlossless)
    (fun _ hshort => hshort.not_lossless) es (start tunnel) x ?_ h
  · intro x e y hlossless hfits hstep
    obtain ⟨new, hlog, hnew⟩ := step_adds hstep
    rw [hlog]
    exact hlossless.adds hnew hfits
  · intro x e y hlossless hfits hstep
    obtain ⟨new, hlog, hnew⟩ := step_adds hstep
    rw [hlog]
    exact hlossless.short hnew hfits
  · intro x e y hshort hstep
    obtain ⟨new, hlog, hnew⟩ := step_adds hstep
    rw [hlog]
    exact hshort.adds hnew
  · refine ⟨fun _ => rfl, fun before streamId hclosed => ?_⟩
    exact absurd (List.prefix_nil.mp hclosed) (by simp)

/-! ### One stream -/

/-- A tunnel with one stream, and what its socket has still to send. -/
def oneStream (tx : Bytes) : Tunnel plainInterface where
  stack :=
    { MediumStack.withAddrs plainInterface (network asciiLowercase []) [] with
      tcpSlots := [⟨⟨.established, some (⟨10, 88, 0, 10⟩, HTTPS_PORT), [], 0, tx⟩, "svc_web",
        "web", HTTPS_PORT, some "tcp-1"⟩] }
  backends := ⟨[], [("tcp-1", .directTarget "127.0.0.1:3000")], [("tcp-1", "svc_web")], []⟩

/-- The backend sends two bytes and ends. -/
def twoBytes : List Event :=
  [.pump ["tcp-1"], .read (.ok [104, 105]), .read (.ok []), .close false]

theorem download_lossless_iff_room :
    Lossless [.read "tcp-1" [104, 105], .enqueued "tcp-1" [104, 105], .closed "tcp-1"] :=
  (download_lossless_iff plainInterface (oneStream []) twoBytes _ rfl).mpr (by decide +kernel)

/-- The socket is full, so the bytes are lost.  The stream is closed all the same. -/
theorem full_socket_loses :
    ∃ x, exec step (start (oneStream (List.replicate TCP_BUFFER_SIZE 0))) twoBytes = some x ∧
      x.log = [.read "tcp-1" [104, 105], .enqueued "tcp-1" [], .closed "tcp-1"] ∧
      ¬ Lossless x.log := by
  let pumped : Download plainInterface :=
    ⟨oneStream (List.replicate TCP_BUFFER_SIZE 0), .pump ["tcp-1"] [], []⟩
  have htaken : pumped.takenBy "tcp-1" [104, 105] = [] := by
    simp [pumped, takenBy, streamSocket, oneStream, taken, TcpSocket.sendSlice, TcpSocket.maySend]
  have hsend := log_send pumped "tcp-1" [104, 105]
  rw [htaken] at hsend
  have hlog : (pumped.send "tcp-1" [104, 105]).log ++ [.closed "tcp-1"]
      = [.read "tcp-1" [104, 105], .enqueued "tcp-1" [], .closed "tcp-1"] := by
    rw [hsend]
    rfl
  refine ⟨_, rfl, hlog, fun h => ?_⟩
  have hall := (hlog ▸ h : Lossless _).enqueued "tcp-1"
  revert hall
  decide

end Download

end Android

end MediumOverlay
