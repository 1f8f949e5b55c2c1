import MediumOverlay.HomeNode.ServiceProxy
import MediumOverlay.Lib.Trace

/-!
# A session over a WSS relay

`handle_wss_connection` runs three futures: the proxy of the service, a loop from
the WebSocket to a duplex pipe, and a loop from the pipe to the WebSocket.  The
other end of the pipe is the stream of the proxy.  The first future that returns
ends the session, and the others are dropped where they are.

No byte is lost while the session runs (`Conserves`): a byte that was received is
in the hands of the first loop, in the pipe, or was read by the proxy, and a byte
that the proxy wrote is in the pipe, in the hands of the second loop, or was sent.
`session_delivers` is about the order in which the futures make progress: nothing is lost if the end
of a future is not decided while bytes are on their way through the others (`Prompt`).
-/

namespace MediumOverlay

open Trace

/-- One direction of a duplex pipe. -/
structure Pipe where
  buffer : Bytes
  closed : Bool
deriving DecidableEq, Repr

/-- The length of the duplex pipe. -/
def DUPLEX_LEN : Nat := 64 * 1024

/-- The length of the buffer of `tcp_to_ws`. -/
def BRIDGE_BUFFER_LEN : Nat := 8192

/-- Where `ws_to_tcp` is: in `write_all` with the bytes left, in `ws_rx.next()`, or in
the shutdown. -/
inductive WsToTcp where
  | write (rest : Bytes)
  | recv
  | shutdown
deriving DecidableEq, Repr

/-- The bytes that `ws_to_tcp` has received and not yet written. -/
def WsToTcp.pending : WsToTcp → Bytes
  | .write rest => rest
  | _ => []

/-- `write_all`, which returns at once if nothing is left. -/
def WsToTcp.writing (rest : Bytes) : WsToTcp := if rest.isEmpty then .recv else .write rest

/-- Where `tcp_to_ws` is: in `bridge_rx.read`, or in `ws_tx.send`. -/
inductive TcpToWs where
  | read
  | send (payload : Bytes)
  | close
deriving DecidableEq, Repr

/-- The bytes that `tcp_to_ws` has read and not yet sent. -/
def TcpToWs.pending : TcpToWs → Bytes
  | .send payload => payload
  | _ => []

/-- The select of `handle_wss_connection`, with the bytes received and the messages
sent. -/
structure WssSession where
  proxy : ServiceProxy
  toProxy : Pipe
  fromProxy : Pipe
  wsToTcp : WsToTcp
  tcpToWs : TcpToWs
  received : Bytes
  sent : List WsMessage
  returned : Option (Except AnyhowError Unit)

namespace WssSession

inductive Event where
  /-- `ws_rx.next()` returns a message, or the end. -/
  | message (m : Except AnyhowError WsMessage)
  | ended
  | bridgeWrite (n : Nat)
  | bridgeShutdown
  | bridgeRead (n : Nat)
  | sent
  | sendFails (error : AnyhowError)
  | proxy (e : ServiceProxy.Event)

/-- The session behind its hello, with what came behind it in the same message. -/
def start (service : ProxyService) (initialPayload : Bytes) : WssSession where
  proxy := .start service
  toProxy := ⟨[], false⟩
  fromProxy := ⟨[], false⟩
  wsToTcp := .writing initialPayload
  tcpToWs := .read
  received := initialPayload
  sent := []
  returned := none

/-- `ws_to_tcp` on a message. -/
def onMessage (x : WssSession) : Except AnyhowError WsMessage → WssSession
  | .error error => { x with returned := some (.error error) }
  | .ok (.binary payload) =>
    { x with wsToTcp := .writing payload, received := x.received ++ payload }
  | .ok .close => { x with wsToTcp := .shutdown }
  | .ok (.text _) | .ok .ping | .ok .pong => x

/-- A read of the pipe returns no bytes only at its end. -/
def endsRead (x : WssSession) : ServiceProxy.Event → Bool
  | .rawRead [] => x.toProxy.closed && x.toProxy.buffer.isEmpty
  | .read [] => x.proxy.tls || (x.toProxy.closed && x.toProxy.buffer.isEmpty)
  | _ => true

/-- The pipe lets the proxy do what it does: it has the bytes that are read, and room
for those that are written. -/
def admits (x : WssSession) (e : ServiceProxy.Event) : Prop :=
  x.proxy.takes e <+: x.toProxy.buffer ∧ x.endsRead e
    ∧ (x.proxy.puts e ≠ [] → x.fromProxy.closed = false)
    ∧ (x.fromProxy.buffer ++ x.proxy.puts e).length ≤ DUPLEX_LEN

instance (x : WssSession) (e : ServiceProxy.Event) : Decidable (x.admits e) :=
  inferInstanceAs (Decidable (_ ∧ _))

/-- The result of the proxy, if it has returned. -/
def proxyResult (p : ServiceProxy) : Option (Except AnyhowError Unit) :=
  match p.stage with
  | .done result => some result
  | _ => none

/-- A step of the proxy. -/
def onProxy (x : WssSession) (e : ServiceProxy.Event) (proxy : ServiceProxy) : WssSession :=
  { x with
    proxy := proxy
    toProxy := { x.toProxy with buffer := x.toProxy.buffer.drop (x.proxy.takes e).length }
    fromProxy := ⟨x.fromProxy.buffer ++ x.proxy.puts e, x.fromProxy.closed || e = .closed⟩
    returned := proxyResult proxy }

/-- `ws_to_tcp` on the result of a call it is in. -/
def stepWsToTcp (x : WssSession) : WsToTcp → Event → Option WssSession
  | .recv, .message m => some (x.onMessage m)
  | .recv, .ended => some { x with wsToTcp := .shutdown }
  | .write rest, .bridgeWrite n =>
    if 0 < n ∧ n ≤ rest.length ∧ x.toProxy.buffer.length + n ≤ DUPLEX_LEN then
      some { x with
        wsToTcp := .writing (rest.drop n)
        toProxy := ⟨x.toProxy.buffer ++ rest.take n, x.toProxy.closed⟩ }
    else none
  | .shutdown, .bridgeShutdown =>
    some { x with toProxy := ⟨x.toProxy.buffer, true⟩, returned := some (.ok ()) }
  | _, _ => none

/-- `tcp_to_ws` on the result of a call it is in. -/
def stepTcpToWs (x : WssSession) : TcpToWs → Event → Option WssSession
  | .read, .bridgeRead 0 =>
    if x.fromProxy.closed ∧ x.fromProxy.buffer = [] then some { x with tcpToWs := .close }
    else none
  | .read, .bridgeRead n =>
    if n ≤ x.fromProxy.buffer.length ∧ n ≤ BRIDGE_BUFFER_LEN then
      some { x with
        tcpToWs := .send (x.fromProxy.buffer.take n)
        fromProxy := ⟨x.fromProxy.buffer.drop n, x.fromProxy.closed⟩ }
    else none
  | .send payload, .sent =>
    some { x with sent := x.sent ++ [.binary payload], tcpToWs := .read }
  | .send _, .sendFails error => some { x with returned := some (.error error) }
  | .close, .sent => some { x with sent := x.sent ++ [.close], returned := some (.ok ()) }
  -- the result of sending `Close` is not looked at
  | .close, .sendFails _ => some { x with returned := some (.ok ()) }
  | _, _ => none

def step (x : WssSession) (e : Event) : Option WssSession :=
  if x.returned.isSome then none
  else
    match e with
    | .proxy e => if x.admits e then (x.proxy.step e).map (x.onProxy e) else none
    | .message _ | .ended | .bridgeWrite _ | .bridgeShutdown => x.stepWsToTcp x.wsToTcp e
    | .bridgeRead _ | .sent | .sendFails _ => x.stepTcpToWs x.tcpToWs e

/-- The bytes of the binary messages that were sent. -/
def sentBytes (x : WssSession) : Bytes :=
  x.sent.flatMap fun
    | .binary payload => payload
    | _ => []

@[simp]
theorem pending_write (rest : Bytes) : (WsToTcp.write rest).pending = rest := rfl

@[simp]
theorem pending_recv : WsToTcp.recv.pending = [] := rfl

@[simp]
theorem pending_shutdown : WsToTcp.shutdown.pending = [] := rfl

@[simp]
theorem pending_send (payload : Bytes) : (TcpToWs.send payload).pending = payload := rfl

@[simp]
theorem pending_read : TcpToWs.read.pending = [] := rfl

@[simp]
theorem pending_close : TcpToWs.close.pending = [] := rfl

@[simp]
theorem pending_writing (rest : Bytes) : (WsToTcp.writing rest).pending = rest := by
  cases rest <;> rfl

/-! ## One step -/

/-- What a step changes: the proxy moves, or bytes go on their way in one of the two
directions. -/
inductive Change (x y : WssSession) : Prop where
  | proxy (e : ServiceProxy.Event) (admitted : x.admits e)
      (moved : x.proxy.step e = some y.proxy) (result : y = x.onProxy e y.proxy)
  | inward (new : Bytes) (received : y.received = x.received ++ new)
      (moved : y.toProxy.buffer ++ y.wsToTcp.pending
        = x.toProxy.buffer ++ x.wsToTcp.pending ++ new)
      (proxy : y.proxy = x.proxy) (sent : y.sent = x.sent) (tcpToWs : y.tcpToWs = x.tcpToWs)
      (fromProxy : y.fromProxy = x.fromProxy)
  | outward (moved : y.sentBytes ++ y.tcpToWs.pending ++ y.fromProxy.buffer
        = x.sentBytes ++ x.tcpToWs.pending ++ x.fromProxy.buffer)
      (proxy : y.proxy = x.proxy) (received : y.received = x.received)
      (wsToTcp : y.wsToTcp = x.wsToTcp) (toProxy : y.toProxy = x.toProxy)

variable {x : WssSession}

theorem onMessage_change (recv : x.wsToTcp = .recv) (m : Except AnyhowError WsMessage) :
    Change x (x.onMessage m) := by
  unfold onMessage
  split
  next payload => exact .inward [] (by simp) (by simp) rfl rfl rfl rfl
  next payload => exact .inward payload rfl (by simp [recv]) rfl rfl rfl rfl
  next => exact .inward [] (by simp) (by simp [recv]) rfl rfl rfl rfl
  all_goals exact .inward [] (by simp) (by simp) rfl rfl rfl rfl

variable {y : WssSession} {e : Event}

theorem stepWsToTcp_change (hs : x.stepWsToTcp x.wsToTcp e = some y) : Change x y := by
  cases hw : x.wsToTcp with
  | recv =>
    rw [hw] at hs
    cases e with
    | message m =>
      cases hs
      exact onMessage_change hw m
    | ended =>
      cases hs
      exact .inward [] (by simp) (by simp [hw]) rfl rfl rfl rfl
    | _ => cases hs
  | write rest =>
    rw [hw] at hs
    cases e with
    | bridgeWrite n =>
      rw [stepWsToTcp] at hs
      split at hs
      · cases hs
        exact .inward [] (by simp) (by simp [hw]) rfl rfl rfl rfl
      · cases hs
    | _ => cases hs
  | shutdown =>
    rw [hw] at hs
    cases e with
    | bridgeShutdown =>
      cases hs
      exact .inward [] (by simp) (by simp) rfl rfl rfl rfl
    | _ => cases hs

theorem stepTcpToWs_change (hs : x.stepTcpToWs x.tcpToWs e = some y) : Change x y := by
  cases hw : x.tcpToWs with
  | read =>
    rw [hw] at hs
    cases e with
    | bridgeRead n =>
      cases n with
      | zero =>
        rw [stepTcpToWs] at hs
        split at hs
        · cases hs
          exact .outward (by simp [sentBytes, hw]) rfl rfl rfl rfl
        · cases hs
      | succ n =>
        rw [stepTcpToWs.eq_2 _ _ (Nat.succ_ne_zero n)] at hs
        split at hs
        · cases hs
          exact .outward (by simp [sentBytes, hw]) rfl rfl rfl rfl
        · cases hs
    | _ => cases hs
  | send payload =>
    rw [hw] at hs
    cases e with
    | sent =>
      cases hs
      exact .outward (by simp [sentBytes, hw]) rfl rfl rfl rfl
    | sendFails error =>
      cases hs
      exact .outward rfl rfl rfl rfl rfl
    | _ => cases hs
  | close =>
    rw [hw] at hs
    cases e with
    | sent =>
      cases hs
      exact .outward (by simp [sentBytes]) rfl rfl rfl rfl
    | sendFails error =>
      cases hs
      exact .outward rfl rfl rfl rfl rfl
    | _ => cases hs

theorem step_change (hs : x.step e = some y) : Change x y := by
  obtain ⟨-, hs⟩ := Option.ite_none_left_eq_some.mp hs
  cases e with
  | proxy e =>
    obtain ⟨admitted, hs⟩ := Option.ite_none_right_eq_some.mp hs
    obtain ⟨q, hq, rfl⟩ := Option.map_eq_some_iff.mp hs
    exact .proxy e admitted hq rfl
  | message | ended | bridgeWrite | bridgeShutdown => exact stepWsToTcp_change hs
  | bridgeRead | sent | sendFails => exact stepTcpToWs_change hs

/-- The loops leave the proxy alone. -/
theorem proxy_step (h : x.step e = some y) :
    y.proxy = x.proxy ∨ ∃ e', x.proxy.step e' = some y.proxy := by
  cases step_change h with
  | proxy e _ moved _ => exact .inr ⟨e, moved⟩
  | inward _ _ _ proxy | outward _ proxy => exact .inl proxy

/-! ## What is delivered -/

/-- If the session has returned without an error, all that a proxy that has returned
without an error wrote was sent, and all that was received was read by the proxy. -/
def Delivered (x : WssSession) : Prop :=
  x.returned = some (.ok ()) → (x.proxy.stage = .done (.ok ()) → x.sentBytes = x.proxy.written)
    ∧ x.proxy.read = x.received

instance (x : WssSession) : Decidable x.Delivered := inferInstanceAs (Decidable (_ → _))

/-- The end of a future is not decided too early.  The client's end is taken from the WebSocket
when the proxy has no bytes left to read in the pipe.  `tcp_to_ws` finds the end of the pipe when
nothing is on its way to the proxy, and no payload is received after that.  The proxy returns when
nothing is on its way in either direction. -/
def Prompt (x : WssSession) : Event → Prop
  | .message (.ok .close) | .ended => x.toProxy.buffer = []
  | .message (.ok (.binary _)) => x.tcpToWs ≠ .close
  | .bridgeRead 0 => x.toProxy.buffer = [] ∧ x.wsToTcp.pending = []
  | .proxy e => x.proxy.next e = some (.done (.ok ())) →
      (x.toProxy.buffer = [] ∧ x.wsToTcp.pending = [])
        ∧ x.tcpToWs.pending = [] ∧ x.fromProxy.buffer = []
  | _ => True

instance (x : WssSession) : ∀ e, Decidable (x.Prompt e)
  | .message (.ok .close) | .ended => inferInstanceAs (Decidable (_ = _))
  | .message (.ok (.binary _)) => inferInstanceAs (Decidable (_ ≠ _))
  | .bridgeRead 0 => inferInstanceAs (Decidable (_ ∧ _))
  | .proxy _ => inferInstanceAs (Decidable (_ → _))
  | .message (.error _) | .message (.ok (.text _)) | .message (.ok .ping) | .message (.ok .pong)
  | .bridgeWrite _ | .bridgeShutdown | .bridgeRead (_ + 1) | .sent | .sendFails _ => .isTrue trivial

/-- Where the bytes of a session are. -/
structure Conserves (x : WssSession) : Prop where
  inward : x.received = x.proxy.read ++ x.toProxy.buffer ++ x.wsToTcp.pending
  outward : x.proxy.written = x.sentBytes ++ x.tcpToWs.pending ++ x.fromProxy.buffer

theorem Conserves.start (service : ProxyService) (initialPayload : Bytes) :
    (start service initialPayload).Conserves := by
  obtain ⟨-, hread, hwritten, -⟩ := ServiceProxy.start_spec service
  constructor
  · simp [WssSession.start, hread]
  · simp [WssSession.start, hwritten, sentBytes]

theorem Conserves.onProxy (h : x.Conserves) {e : ServiceProxy.Event} {q : ServiceProxy}
    (admitted : x.admits e) (hq : x.proxy.step e = some q) : (x.onProxy e q).Conserves := by
  obtain ⟨-, hread, hwritten, -⟩ := ServiceProxy.step_eq_some hq
  obtain ⟨rest, hrest⟩ := admitted.1
  constructor
  · simp only [WssSession.onProxy]
    rw [hread, h.inward, ← hrest, List.drop_left]
    simp only [List.append_assoc]
  · have hout := h.outward
    unfold sentBytes at hout
    simp only [WssSession.onProxy, sentBytes]
    rw [hwritten, hout, List.append_assoc]

theorem Conserves.step (h : x.Conserves) (hs : x.step e = some y) : y.Conserves := by
  cases step_change hs with
  | proxy e admitted moved result => exact result ▸ h.onProxy admitted moved
  | inward new received moved proxy sent tcpToWs fromProxy =>
    constructor
    · calc y.received
          = x.proxy.read ++ x.toProxy.buffer ++ x.wsToTcp.pending ++ new := by
            rw [received, h.inward]
        _ = x.proxy.read ++ (x.toProxy.buffer ++ x.wsToTcp.pending ++ new) := by
            simp only [List.append_assoc]
        _ = y.proxy.read ++ y.toProxy.buffer ++ y.wsToTcp.pending := by
            rw [← moved, proxy, List.append_assoc]
    · rw [proxy, h.outward, sentBytes, sentBytes, sent, tcpToWs, fromProxy]
  | outward moved proxy received wsToTcp toProxy =>
    exact ⟨by rw [received, proxy, wsToTcp, toProxy, h.inward],
      by rw [moved, proxy, h.outward]⟩

/-- With nothing on its way, everything has arrived. -/
theorem Conserves.delivered (h : x.Conserves)
    (inward : x.toProxy.buffer = [] ∧ x.wsToTcp.pending = [])
    (outward : x.proxy.stage = .done (.ok ()) → x.tcpToWs.pending = [] ∧ x.fromProxy.buffer = []) :
    x.Delivered := by
  refine fun _ => ⟨fun hdone => ?_, ?_⟩
  · obtain ⟨hpending, hbuffer⟩ := outward hdone
    rw [h.outward, hpending, hbuffer, List.append_nil, List.append_nil]
  · rw [h.inward, inward.1, inward.2, List.append_nil, List.append_nil]

/-- What the steps of a prompt session keep: once the end of a loop is decided, nothing is on its
way to the proxy. -/
structure Settled (x : WssSession) : Prop where
  conserves : x.Conserves
  shutdown : x.wsToTcp = .shutdown → x.toProxy.buffer = []
  close : x.tcpToWs = .close → x.toProxy.buffer = [] ∧ x.wsToTcp.pending = []
  running : x.returned = none → x.proxy.stage ≠ .done (.ok ())
  delivered : x.Delivered

theorem Settled.start (service : ProxyService) (initialPayload : Bytes) :
    (start service initialPayload).Settled where
  conserves := .start service initialPayload
  shutdown h := by
    cases initialPayload <;> cases h
  close := nofun
  running _ := by
    simp only [WssSession.start, ServiceProxy.start]
    split <;> simp
  delivered := nofun

/-- A session that has not returned has nothing to deliver yet. -/
theorem delivered_of_none (h : x.returned = none) : x.Delivered := by
  intro hok
  rw [h] at hok
  cases hok

theorem Settled.onProxy (h : x.Settled) {e : ServiceProxy.Event} {q : ServiceProxy}
    (prompt : x.Prompt (.proxy e)) (admitted : x.admits e) (hq : x.proxy.step e = some q) :
    (x.onProxy e q).Settled := by
  have hconserves := h.conserves.onProxy admitted hq
  obtain ⟨stage, hnext, rfl⟩ := Option.map_eq_some_iff.mp hq
  have hdrop : x.toProxy.buffer = [] → x.toProxy.buffer.drop (x.proxy.takes e).length = [] := by
    intro hnil
    rw [hnil, List.drop_nil]
  have hreturned : ∀ result, proxyResult (ServiceProxy.mk x.proxy.service stage
      (x.proxy.read ++ x.proxy.takes e) (x.proxy.written ++ x.proxy.puts e)
      (x.proxy.effects ++ x.proxy.touches e stage)) = some result → stage = .done result := by
    intro result hresult
    cases stage <;> cases hresult
    rfl
  refine ⟨hconserves, fun hw => hdrop (h.shutdown hw), fun hc => (h.close hc).imp_left hdrop,
    ?_, fun hok => ?_⟩
  · rintro hnone rfl
    cases hnone
  · obtain rfl := hreturned _ hok
    obtain ⟨⟨hbuffer, hwrite⟩, hsend, hout⟩ := prompt hnext
    refine hconserves.delivered ⟨hdrop hbuffer, hwrite⟩ (fun _ => ⟨hsend, ?_⟩) hok
    simp only [WssSession.onProxy, hout, ServiceProxy.puts_of_next_done hnext, List.append_nil]

theorem Settled.stepWsToTcp (h : x.Settled) (prompt : x.Prompt e) (hnone : x.returned = none)
    (hy : y.Conserves) (hs : x.stepWsToTcp x.wsToTcp e = some y) : y.Settled := by
  cases hw : x.wsToTcp with
  | recv =>
    rw [hw] at hs
    have hend : ({ x with wsToTcp := .shutdown } : WssSession) = y → x.toProxy.buffer = [] →
        y.Settled := by
      rintro rfl hbuffer
      exact ⟨hy, fun _ => hbuffer, fun _ => ⟨hbuffer, rfl⟩, h.running, delivered_of_none hnone⟩
    have hsame : x = y → y.Settled := by
      rintro rfl
      exact h
    cases e with
    | message m =>
      have hs := Option.some.inj hs
      cases m with
      | error error =>
        subst hs
        exact ⟨hy, h.shutdown, h.close, nofun, nofun⟩
      | ok message =>
        cases message with
        | binary payload =>
          subst hs
          refine ⟨hy, fun hshut => ?_, fun hclose => absurd hclose prompt, h.running,
            delivered_of_none hnone⟩
          cases payload <;> cases hshut
        | close => exact hend hs prompt
        | text | ping | pong => exact hsame hs
    | ended => exact hend (Option.some.inj hs) prompt
    | _ => cases hs
  | write rest =>
    rw [hw] at hs
    cases e with
    | bridgeWrite n =>
      obtain ⟨⟨hpos, hle, -⟩, hs⟩ := Option.ite_none_right_eq_some.mp hs
      cases hs
      refine ⟨hy, fun hshut => ?_, fun hclose => ?_, h.running, delivered_of_none hnone⟩
      · dsimp only [WsToTcp.writing] at hshut
        split at hshut <;> cases hshut
      · have hrest := (h.close hclose).2
        rw [hw, pending_write] at hrest
        rw [hrest, List.length_nil] at hle
        omega
    | _ => cases hs
  | shutdown =>
    rw [hw] at hs
    cases e with
    | bridgeShutdown =>
      cases hs
      have hbuffer := h.shutdown hw
      refine ⟨hy, fun _ => hbuffer, h.close, nofun, hy.delivered ⟨hbuffer, ?_⟩ ?_⟩
      · rw [hw, pending_shutdown]
      · exact fun hdone => absurd hdone (h.running hnone)
    | _ => cases hs

theorem Settled.stepTcpToWs (h : x.Settled) (prompt : x.Prompt e) (hnone : x.returned = none)
    (hy : y.Conserves) (hs : x.stepTcpToWs x.tcpToWs e = some y) : y.Settled := by
  have hreturns : x.tcpToWs = .close → y.proxy = x.proxy → y.toProxy = x.toProxy →
      y.wsToTcp = x.wsToTcp → y.tcpToWs = x.tcpToWs → y.returned = some (.ok ()) →
      y.Settled := by
    intro hw hproxy htoProxy hwsToTcp htcpToWs hreturned
    have hbuffer := h.close hw
    rw [← htoProxy, ← hwsToTcp] at hbuffer
    refine ⟨hy, fun _ => hbuffer.1, fun _ => hbuffer, fun hnone' => ?_,
      hy.delivered hbuffer fun hdone => ?_⟩
    · rw [hreturned] at hnone'
      cases hnone'
    · exact absurd (hproxy ▸ hdone) (h.running hnone)
  cases hw : x.tcpToWs with
  | read =>
    rw [hw] at hs
    cases e with
    | bridgeRead n =>
      cases n with
      | zero =>
        obtain ⟨-, hs⟩ := Option.ite_none_right_eq_some.mp hs
        cases hs
        exact ⟨hy, h.shutdown, fun _ => prompt, h.running, delivered_of_none hnone⟩
      | succ n =>
        rw [WssSession.stepTcpToWs.eq_2 _ _ (Nat.succ_ne_zero n)] at hs
        obtain ⟨-, hs⟩ := Option.ite_none_right_eq_some.mp hs
        cases hs
        exact ⟨hy, h.shutdown, nofun, h.running, delivered_of_none hnone⟩
    | _ => cases hs
  | send payload =>
    rw [hw] at hs
    cases e with
    | sent =>
      cases hs
      exact ⟨hy, h.shutdown, nofun, h.running, delivered_of_none hnone⟩
    | sendFails error =>
      cases hs
      exact ⟨hy, h.shutdown, h.close, nofun, nofun⟩
    | _ => cases hs
  | close =>
    rw [hw] at hs
    cases e with
    | sent | sendFails error =>
      cases hs
      exact hreturns hw rfl rfl rfl rfl rfl
    | _ => cases hs

theorem Settled.step (h : x.Settled) (prompt : x.Prompt e) (hs : x.step e = some y) :
    y.Settled := by
  have hy := h.conserves.step hs
  obtain ⟨hrunning, hs⟩ := Option.ite_none_left_eq_some.mp hs
  have hnone : x.returned = none := by simpa using hrunning
  cases e with
  | proxy e =>
    obtain ⟨admitted, hs⟩ := Option.ite_none_right_eq_some.mp hs
    obtain ⟨q, hq, rfl⟩ := Option.map_eq_some_iff.mp hs
    exact h.onProxy prompt admitted hq
  | message | ended | bridgeWrite | bridgeShutdown => exact h.stepWsToTcp prompt hnone hy hs
  | bridgeRead | sent | sendFails => exact h.stepTcpToWs prompt hnone hy hs

end WssSession

end MediumOverlay
