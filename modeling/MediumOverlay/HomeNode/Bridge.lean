import MediumOverlay.Transport.Clones
import MediumOverlay.Transport.Sender

/-!
# The bridge of the home node

`bridge_udp_session_to_tcp_proxy` joins a session to a connection of the local TCP
proxy with two copy loops.  One copies from the session to the connection, and
the bridge runs it itself.  The other copies back, on a thread that the bridge
joins at the end.  So the bridge returns when both loops have ended, and only then
are both handles of the connection closed.

The proxy sends bytes and at some point shuts its sending half down, and it may
close the connection altogether.  Until then it reads, so the bridge's writes to
it succeed.  The bridge's own datagrams leave the socket.  Everything else is left
to the environment, and in particular the network loses, duplicates and reorders.

`Close` ends a `read` of a session, and no Rust end of a session ever sends it
(`Endpoint.sent_kind_step`).  So a client that reads never gets to the end of the
stream, and the loop from the session to the connection ends only when a write to
a closed connection fails (`Alive.step`).
-/

namespace MediumOverlay

open Trace

/-- A loop of `copy_blocking`: in `read`, in `write_all` with the bytes left, or
returned. -/
inductive Copy where
  | read
  | write (rest : Bytes)
  | done (result : Except IoError Unit)
deriving DecidableEq

/-- The length of the buffer of `copy_blocking`. -/
def COPY_BUFFER_LEN : Nat := 8192

/-- `copy_blocking` on the result of `read`. -/
def Copy.afterRead : Except IoError Bytes → Copy
  | .ok [] => .done (.ok ())
  | .ok bytes => .write bytes
  | .error e => if e.isTimeout || e.kind = .interrupted then .read else .done (.error e)

/-- `write_all` on the result of `write`. -/
def Copy.afterWrite (rest : Bytes) : Except IoError Nat → Copy
  | .ok 0 => .done (.error ⟨.writeZero, "failed to write whole buffer"⟩)
  | .ok n => if rest.drop n = [] then .read else .write (rest.drop n)
  | .error e => if e.kind = .interrupted then .write rest else .done (.error e)

/-- The proxy's end of the connection: the bytes it sent, how many of them the
bridge has read, whether it has shut its sending half down or closed it all, the
bytes it received, and whether it saw the end of the stream behind them. -/
structure Proxy where
  sent : Bytes
  taken : Nat
  shut : Bool
  closed : Bool
  received : Bytes
  sawEof : Bool

structure Bridge where
  client : Endpoint
  /-- The client has dropped its stream. -/
  ended : Bool
  node : Clones
  toTcp : Copy
  toUdp : Copy
  tcp : Proxy

namespace Bridge

inductive Event where
  | client (h : Handle) (e : MediumOverlay.Event)
  | endClient
  /-- The listener pushes a packet of the client. -/
  | push (p : Packet)
  /-- A clone of the node's stream takes a packet from the inbox. -/
  | recv (h : Handle)
  | lock (h : Handle)
  | sent (h : Handle)
  /-- `udp_reader.read`. -/
  | readUdp
  /-- `udp_writer.write`. -/
  | writeUdp
  /-- `tcp_reader.read` returns this many bytes. -/
  | readTcp (n : Nat)
  | readTcpFails (e : IoError)
  /-- `tcp_writer.write` takes this many bytes. -/
  | writeTcp (n : Nat)
  | writeTcpFails (e : IoError)
  | tcpSend (bytes : Bytes)
  | tcpShut
  | tcpClose
  | tcpEof

def init : Bridge := ⟨.init, false, .init, .read, .read, ⟨[], 0, false, false, [], false⟩⟩

/-- The result of a call of a clone goes to the loop that made the call. -/
def finished (x : Bridge) : Handle → Option Done → Bridge
  | .reader, some (.read _ q) => { x with toTcp := .afterRead q }
  | .writer, some (.write _ q) =>
    match x.toUdp with
    | .write rest => { x with toUdp := .afterWrite rest q }
    | _ => x
  | _, _ => x

/-- A step of a clone of the node's stream. -/
def runNode (σ : Cipher) (x : Bridge) (h : Handle) (ev : Clones.Event) : Option Bridge :=
  (x.node.step σ .nodeToClient ev).map fun n =>
    { x with node := n }.finished h (x.node.stream.result n.stream)

/-- The network hands the client only what the node has sent. -/
def delivers (x : Bridge) : MediumOverlay.Event → Bool
  | .recv (.ok p) => p ∈ x.node.stream.sent
  | _ => true

/-- Both loops have ended: `bridge_udp_session_to_tcp_proxy` returns and drops both
handles of the connection. -/
def returned (x : Bridge) : Bool :=
  match x.toTcp, x.toUdp with
  | .done _, .done _ => true
  | _, _ => false

def step (σ : Cipher) (x : Bridge) : Event → Option Bridge
  | .client h e =>
    if !x.ended && x.delivers e then
      (x.client.step σ .clientToNode (h, e)).map fun c => { x with client := c }
    else none
  | .endClient => some { x with ended := true }
  | .push p =>
    if p ∈ x.client.sent then
      (x.node.step σ .nodeToClient (.push p)).map fun n => { x with node := n }
    else none
  | .recv h => x.runNode σ h (.recv h)
  | .lock h => x.runNode σ h (.call h .lock)
  | .sent h => x.runNode σ h (.call h (.send (.ok ())))
  | .readUdp =>
    if x.toTcp = .read then x.runNode σ .reader (.call .reader (.read COPY_BUFFER_LEN)) else none
  | .writeUdp =>
    match x.toUdp with
    | .write rest => x.runNode σ .writer (.call .writer (.write rest))
    | _ => none
  | .readTcp n =>
    let waiting := x.tcp.sent.drop x.tcp.taken
    if x.toUdp = .read ∧ n ≤ min COPY_BUFFER_LEN waiting.length
        ∧ (n = 0 → waiting = [] ∧ x.tcp.shut = true) then
      some { x with
        toUdp := .afterRead (.ok (waiting.take n))
        tcp := { x.tcp with taken := x.tcp.taken + n } }
    else none
  | .readTcpFails e =>
    if x.toUdp = .read ∧ x.tcp.closed = true then some { x with toUdp := .afterRead (.error e) }
    else none
  | .writeTcp n =>
    match x.toTcp with
    | .write rest =>
      if 0 < n ∧ n ≤ rest.length then
        some { x with
          toTcp := .afterWrite rest (.ok n)
          tcp := { x.tcp with received := x.tcp.received ++ rest.take n } }
      else none
    | _ => none
  | .writeTcpFails e =>
    match x.toTcp with
    | .write rest =>
      if x.tcp.closed then some { x with toTcp := .afterWrite rest (.error e) } else none
    | _ => none
  | .tcpSend bytes =>
    if x.tcp.shut then none else some { x with tcp := { x.tcp with sent := x.tcp.sent ++ bytes } }
  | .tcpShut => some { x with tcp := { x.tcp with shut := true } }
  | .tcpClose => some { x with tcp := { x.tcp with shut := true, closed := true } }
  -- the proxy's read returns 0 once no handle of the bridge is left
  | .tcpEof =>
    if x.returned && !x.tcp.closed then some { x with tcp := { x.tcp with sawEof := true } }
    else none

/-- The client's last `read` returned `Ok(0)`, and those before it returned
exactly the proxy's bytes. -/
def Obtained (x : Bridge) : Prop :=
  ∃ log len, 0 < len ∧ x.client.log = log ++ [.read len (.ok [])] ∧
    returnedBytes log = x.tcp.sent

/-- Some continuation gets there. -/
def CanReach (σ : Cipher) (x : Bridge) (goal : Bridge → Prop) : Prop :=
  ∃ es y, exec (Bridge.step σ) x es = some y ∧ goal y

/-- The end of the stream can still get through: from a proxy that is done to a
client that reads, from a client that is done to the proxy, and from either to
the return of the bridge. -/
structure Propagates (σ : Cipher) (x : Bridge) : Prop where
  toClient : x.tcp.shut = true → x.ended = false → x.CanReach σ Obtained
  toProxy : x.ended = true → x.CanReach σ fun y => y.tcp.sawEof = true
  returns : x.tcp.shut = true ∨ x.ended = true → x.CanReach σ fun y => y.returned = true

end Bridge

/-! ## What the results of a `read` come from -/

/-- The buffer length of the `read` a handle is in. -/
def Call.len? : Call → Option Nat
  | .recv (.read len) => some len
  | .handle (.read len) _ => some len
  | .ack (.read len) _ => some len
  | .drain len => some len
  | _ => none

namespace Call.Rule

variable {σ : Cipher} {d : Direction} {s t : SessionState} {c c' : Call} {e : Event}
  {r : Option Done} {len : Nat}

/-- A `read` keeps its buffer. -/
theorem len_eq (h : Call.Rule σ d s c e c' t r)
    (hlen : c'.len? = some len ∨ ∃ q, r = some (.read len q)) :
    c.len? = some len ∨ e = .read len := by
  cases h with
  | fill len' at_read _ =>
    simp only [Call.len?, Option.some.injEq, Done.read.injEq, reduceCtorEq, false_or] at hlen
    obtain ⟨_, rfl, _⟩ := hlen
    rcases at_read with ⟨rfl, rfl⟩ | ⟨rfl, rfl⟩
    · exact Or.inr rfl
    · exact Or.inl rfl
  | wait len' at_read _ =>
    simp only [Call.len?, Option.some.injEq, reduceCtorEq, exists_false, or_false] at hlen
    subst hlen
    rcases at_read with ⟨rfl, rfl⟩ | ⟨rfl, rfl⟩
    · exact Or.inr rfl
    · exact Or.inl rfl
  | data op p _ =>
    cases op with
    | read _ => simpa [Call.len?] using hlen
    | write _ => simp [Call.len?] at hlen
  | readClose len' p _ => simpa [Call.len?] using hlen
  | recvFail op e =>
    cases op with
    | read _ => simpa [Call.len?, Op.fail] using hlen
    | write _ => simp [Call.len?, Op.fail] at hlen
  | reject op p _ =>
    cases op with
    | read _ => simpa [Call.len?, Op.fail] using hlen
    | write _ => simp [Call.len?, Op.fail] at hlen
  | record op p _ _ _ _ =>
    cases op with
    | read _ => simpa [Call.len?] using hlen
    | write _ => simp [Call.len?] at hlen
  | ackSent op seq =>
    cases op with
    | read _ => simpa [Call.len?, Op.resume] using hlen
    | write _ => simp [Call.len?, Op.resume] at hlen
  | ackFail op seq e =>
    cases op with
    | read _ => simpa [Call.len?, Op.fail] using hlen
    | write _ => simp [Call.len?, Op.fail] at hlen
  | _ => simp [Call.len?] at hlen

/-- A `read` fails because nothing was received, or the packet does not open, or
the acknowledgement was not sent. -/
theorem read_error {error : IoError}
    (h : Call.Rule σ d s c e c' t (some (.read len (.error error)))) :
    e = .recv (.error error) ∨
      (∃ op p, c = .handle op p ∧ σ.decrypt (nonceBytes d.peer p.seq) p.payload = none) ∨
      ∃ e', e = .send (.error e') := by
  generalize hr : some (Done.read len (.error error)) = r at h
  cases h with
  | recvFail op error' =>
    cases op with
    | read _ =>
      cases hr
      exact Or.inl rfl
    | write _ => cases hr
  | reject op p forged => exact Or.inr (Or.inl ⟨op, p, rfl, forged⟩)
  | ackFail op seq e' => exact Or.inr (Or.inr ⟨e', rfl⟩)
  | _ => cases hr

end Call.Rule

/-! ## The bridge goes on -/

namespace Bridge

variable {σ : Cipher} {x y : Bridge} {h : Handle} {e : MediumOverlay.Event}

/-- What holds of every reachable state: the packets of both ends are authentic
and none is `Close`, and the loop from the session to the proxy runs until the
proxy has closed the connection. -/
structure Alive (σ : Cipher) (x : Bridge) : Prop where
  sealing : x.client.Sealing σ .clientToNode
  clientSent : ∀ p ∈ x.client.sent, p.kind = .data ∨ p.kind = .ack
  nodeSent : ∀ p ∈ x.node.stream.sent, p.kind = .data ∨ p.kind = .ack
  inbox : ∀ p ∈ x.node.inbox, p ∈ x.client.sent
  hand : ∀ h op p, x.node.stream.call h = .handle op p → p ∈ x.client.sent ∧ p.kind = .data
  /-- The reader reads into a buffer. -/
  buffer : ∀ len, x.node.stream.reader.len? = some len → 0 < len
  copying : ∀ q, x.toTcp = .done q → x.tcp.closed = true
  noTcpEof : x.tcp.sawEof = false
  /-- No `read` of the client ended the stream. -/
  noEof : ∀ len, 0 < len → .read len (.ok []) ∉ x.client.log

theorem Alive.init (σ : Cipher) : Alive σ Bridge.init := by
  refine ⟨.init, ?_, ?_, ?_, ?_,
    ?_, ?_, rfl, ?_⟩
  · intro p hp
    cases hp
  · intro p hp
    cases hp
  · intro p hp
    cases hp
  · intro h op p hc
    cases h <;> cases hc
  · intro len hl
    cases hl
  · intro q hq
    cases hq
  · intro len _ hl
    cases hl

/-- A step of the client, which is never handed `Close`. -/
theorem Alive.client (correct : σ.Correct) (hx : Alive σ x) (hnet : x.delivers e = true)
    {c : Endpoint} (hs : x.client.step σ .clientToNode (h, e) = some c) :
    Alive σ { x with client := c } := by
  have hseal := hx.sealing.step correct hs
  have hkinds := Endpoint.sent_kind_step hx.clientSent hs
  obtain ⟨n, rfl, hr⟩ := Endpoint.step_rule hs
  refine ⟨hseal, hkinds, hx.nodeSent, fun p hp => List.mem_append_left _ (hx.inbox p hp),
    ?_, hx.buffer, hx.copying, hx.noTcpEof, ?_⟩
  · intro h' op p hc
    obtain ⟨hp, hk⟩ := hx.hand h' op p hc
    exact ⟨List.mem_append_left _ hp, hk⟩
  · intro len hlen hl
    rcases List.mem_append.mp hl with hl | hl
    · exact hx.noEof len hlen hl
    · rw [Option.mem_toList.mp hl] at hr
      obtain ⟨_, _, p, he, hk⟩ := hr.read_nil hlen
      subst he
      have hp : p ∈ x.node.stream.sent := by simpa [delivers] using hnet
      rcases hx.nodeSent p hp with hd | ha
      · rw [hk] at hd
        cases hd
      · rw [hk] at ha
        cases ha

/-- The step of the stream in a step of a clone receives packets of the client or
times out, and sends successfully. -/
structure Benign (x : Bridge) (e : MediumOverlay.Event) : Prop where
  recv : ∀ p, e = .recv (.ok p) → p ∈ x.client.sent
  error : ∀ error, e = .recv (.error error) → error = .timedOut
  send : ∀ error, e ≠ .send (.error error)
  read : ∀ len, e = .read len → 0 < len

/-- What `copy_blocking` gets from a `read` of the session lets it go on. -/
theorem Alive.result (hx : Alive σ x) (benign : x.Benign e) {n : Next} {len : Nat}
    {q : Except IoError Bytes}
    (hr : Call.Rule σ .nodeToClient x.node.stream.state (x.node.stream.call .reader) e n.call
      n.state (some (.read len q))) : ∀ q', Copy.afterRead q ≠ .done q' := by
  have hlen : 0 < len := by
    rcases hr.len_eq (Or.inr ⟨q, rfl⟩) with h | h
    · exact hx.buffer len h
    · exact benign.read len h
  intro q' hq
  cases q with
  | ok bytes =>
    cases bytes with
    | cons b bs => cases hq
    | nil =>
      -- only `Close` ends a `read` without bytes, and the client sends none
      obtain ⟨_, _, p, he, hk⟩ := hr.read_nil hlen
      rcases hx.clientSent p (benign.recv p he) with hd | ha
      · rw [hk] at hd
        cases hd
      · rw [hk] at ha
        cases ha
  | error error =>
    rcases hr.read_error with he | ⟨op, p, hc, hforged⟩ | ⟨e', he⟩
    · rw [benign.error error he] at hq
      cases hq
    · -- the packet is the client's, so it opens
      obtain ⟨hp, hk⟩ := hx.hand .reader op p hc
      obtain ⟨b, hb⟩ := hx.sealing.authentic p hp hk
      rw [show Direction.nodeToClient.peer = .clientToNode from rfl, hb] at hforged
      cases hforged
    · exact absurd he (benign.send e')

theorem finished_other (x : Bridge) (h : Handle) (r : Option Done) :
    (x.finished h r).client = x.client ∧ (x.finished h r).node = x.node ∧
      (x.finished h r).tcp = x.tcp ∧ ((x.finished h r).toTcp = x.toTcp ∨
        ∃ len q, h = .reader ∧ r = some (.read len q) ∧ (x.finished h r).toTcp = .afterRead q) := by
  unfold finished
  split
  · exact ⟨rfl, rfl, rfl, Or.inr ⟨_, _, rfl, rfl, rfl⟩⟩
  · split
    · exact ⟨rfl, rfl, rfl, Or.inl rfl⟩
    · exact ⟨rfl, rfl, rfl, Or.inl rfl⟩
  · exact ⟨rfl, rfl, rfl, Or.inl rfl⟩

/-- A step of a clone. -/
theorem Alive.node (hx : Alive σ x) (benign : x.Benign e) {z : Endpoint} {inbox : List Packet}
    (sub : ∀ p ∈ inbox, p ∈ x.node.inbox)
    (hs : x.node.stream.step σ .nodeToClient (h, e) = some z) :
    Alive σ ({ x with node := ⟨z, inbox⟩ }.finished h (x.node.stream.result z)) := by
  have hkinds := Endpoint.sent_kind_step hx.nodeSent hs
  obtain ⟨n, rfl, hr⟩ := Endpoint.step_rule hs
  rw [Endpoint.result_eq (r := n.done) rfl]
  obtain ⟨hclient, hnode, htcp, hcopy⟩ :=
    finished_other { x with node := ⟨x.node.stream.after h e n, inbox⟩ } h n.done
  refine ⟨?_, ?_, ?_, ?_, ?_, ?_, ?_, ?_, ?_⟩
  · rw [hclient]
    exact hx.sealing
  · rw [hclient]
    exact hx.clientSent
  · rw [hnode]
    exact hkinds
  · rw [hnode, hclient]
    exact fun p hp => hx.inbox p (sub p hp)
  · rw [hnode, hclient]
    intro h' op p hc
    by_cases hne : h' = h
    · subst hne
      rw [Endpoint.call_after_self] at hc
      rw [hc] at hr
      obtain ⟨he, hk⟩ := hr.handling
      exact ⟨benign.recv p he, hk⟩
    · rw [Endpoint.call_after_ne _ e n hne] at hc
      exact hx.hand h' op p hc
  · rw [hnode]
    intro len hlen
    cases h with
    | reader =>
      rcases hr.len_eq (Or.inl hlen) with hold | he
      · exact hx.buffer len hold
      · exact benign.read len he
    | writer => exact hx.buffer len hlen
  · intro q hq
    rcases hcopy with hsame | ⟨len, q', rfl, hdone, hafter⟩
    · rw [hsame] at hq
      rw [htcp]
      exact hx.copying q hq
    · rw [hdone] at hr
      rw [hafter] at hq
      exact absurd hq (hx.result benign hr q)
  · rw [htcp]
    exact hx.noTcpEof
  · rw [hclient]
    exact hx.noEof

theorem Alive.runNode (hx : Alive σ x) {ev : Clones.Event} (hh : ev.handle = some h)
    (send : ∀ error, ev ≠ .call h (.send (.error error)))
    (read : ∀ len, ev = .call h (.read len) → 0 < len)
    (hs : x.runNode σ h ev = some y) : Alive σ y := by
  obtain ⟨n, hn, rfl⟩ := Option.map_eq_some_iff.mp hs
  cases Clones.step_moves hn with
  | push p => cases hh
  | took h' op p rest z found hz =>
    cases hh
    obtain ⟨hp, hrest⟩ := recvMatching_mem found
    refine hx.node ⟨?_, by simp, by simp, by simp⟩ hrest hz
    intro p' he
    cases he
    exact hx.inbox p hp
  | timedOut h' z hz =>
    cases hh
    refine hx.node ⟨by simp, ?_, by simp, by simp⟩ (fun _ hp => hp) hz
    intro error he
    cases he
    rfl
  | call h' e z not_recv hz =>
    cases hh
    refine hx.node ⟨fun p he => absurd he (not_recv _), fun error he => absurd he (not_recv _),
      fun error he => send error (by rw [he]), fun len he => read len (by rw [he])⟩
      (fun _ hp => hp) hz

theorem afterWrite_not_done {rest : Bytes} {n : Nat} (hn : 0 < n) (q : Except IoError Unit) :
    Copy.afterWrite rest (.ok n) ≠ .done q := by
  obtain ⟨k, rfl⟩ := Nat.exists_eq_add_of_lt hn
  simp only [Copy.afterWrite]
  split <;> simp

/-- A bridge that has returned had its connection closed by the proxy. -/
theorem Alive.closed_of_returned (hx : Alive σ x) (hret : x.returned = true) :
    x.tcp.closed = true := by
  unfold returned at hret
  split at hret
  next hdone _ => exact hx.copying _ hdone
  next => cases hret

/-- A step of the proxy, of the thread, or the end of the client. -/
theorem Alive.beside (hx : Alive σ x) (ended : Bool) (toUdp : Copy) {tcp : Proxy}
    (closed : x.tcp.closed = true → tcp.closed = true) (sawEof : tcp.sawEof = false) :
    Alive σ { x with ended := ended, toUdp := toUdp, tcp := tcp } :=
  ⟨hx.sealing, hx.clientSent, hx.nodeSent, hx.inbox, hx.hand, hx.buffer,
    fun q hq => closed (hx.copying q hq), sawEof, hx.noEof⟩

/-- A step of the loop to the proxy. -/
theorem Alive.copies (hx : Alive σ x) {toTcp : Copy} {tcp : Proxy}
    (done : ∀ q, toTcp = .done q → tcp.closed = true) (sawEof : tcp.sawEof = false) :
    Alive σ { x with toTcp := toTcp, tcp := tcp } :=
  ⟨hx.sealing, hx.clientSent, hx.nodeSent, hx.inbox, hx.hand, hx.buffer, done, sawEof, hx.noEof⟩

/-- Every step keeps the bridge alive. -/
theorem Alive.step (correct : σ.Correct) (hx : Alive σ x) {ev : Bridge.Event}
    (hs : x.step σ ev = some y) : Alive σ y := by
  cases ev with
  | client h e =>
    obtain ⟨hok, hc⟩ := Option.ite_none_right_eq_some.mp hs
    obtain ⟨c, hstep, rfl⟩ := Option.map_eq_some_iff.mp hc
    exact hx.client correct (Bool.and_eq_true_iff.mp hok).2 hstep
  | endClient =>
    cases hs
    exact hx.beside true x.toUdp id hx.noTcpEof
  | push p =>
    obtain ⟨hp, hc⟩ := Option.ite_none_right_eq_some.mp hs
    cases hc
    refine ⟨hx.sealing, hx.clientSent, hx.nodeSent, ?_, hx.hand, hx.buffer,
      hx.copying, hx.noTcpEof, hx.noEof⟩
    intro q hq
    rcases List.mem_append.mp hq with hq | hq
    · exact hx.inbox q hq
    · rw [List.mem_singleton.mp hq]
      exact hp
  | recv h => exact hx.runNode rfl (by simp) (by simp) hs
  | lock h => exact hx.runNode rfl (by simp) (by simp) hs
  | sent h => exact hx.runNode rfl (by simp) (by simp) hs
  | readUdp =>
    obtain ⟨_, hrun⟩ := Option.ite_none_right_eq_some.mp hs
    refine hx.runNode rfl (by simp) (?_) hrun
    intro len he
    cases he
    decide
  | writeUdp =>
    simp only [Bridge.step] at hs
    split at hs
    next => exact hx.runNode rfl (by simp) (by simp) hs
    next => cases hs
  | readTcp n =>
    obtain ⟨_, hy⟩ := Option.ite_none_right_eq_some.mp hs
    cases hy
    exact hx.beside x.ended _ id hx.noTcpEof
  | readTcpFails error =>
    obtain ⟨_, hy⟩ := Option.ite_none_right_eq_some.mp hs
    cases hy
    exact hx.beside x.ended _ id hx.noTcpEof
  | writeTcp n =>
    simp only [Bridge.step] at hs
    split at hs
    next rest hwrite =>
      obtain ⟨⟨hn, _⟩, hy⟩ := Option.ite_none_right_eq_some.mp hs
      cases hy
      exact hx.copies (fun q hq => absurd hq (afterWrite_not_done hn q)) hx.noTcpEof
    next => cases hs
  | writeTcpFails error =>
    simp only [Bridge.step] at hs
    split at hs
    next rest hwrite =>
      obtain ⟨hclosed, hy⟩ := Option.ite_none_right_eq_some.mp hs
      cases hy
      exact hx.copies (fun _ _ => hclosed) hx.noTcpEof
    next => cases hs
  | tcpSend bytes =>
    obtain ⟨_, hy⟩ := Option.ite_none_left_eq_some.mp hs
    cases hy
    exact hx.beside x.ended x.toUdp id hx.noTcpEof
  | tcpShut =>
    cases hs
    exact hx.beside x.ended x.toUdp id hx.noTcpEof
  | tcpClose =>
    cases hs
    exact hx.beside x.ended x.toUdp (fun _ => rfl) hx.noTcpEof
  | tcpEof =>
    obtain ⟨hok, _⟩ := Option.ite_none_right_eq_some.mp hs
    obtain ⟨hret, hopen⟩ := Bool.and_eq_true_iff.mp hok
    rw [hx.closed_of_returned hret] at hopen
    cases hopen

theorem Alive.run (correct : σ.Correct) (hx : Alive σ x) {es : List Bridge.Event}
    (run : exec (Bridge.step σ) x es = some y) : Alive σ y :=
  exec_invariant_all (fun _ _ _ hI hs => hI.step correct hs) es _ _ hx run

/-- The client never gets to the end of the stream. -/
theorem Alive.not_obtained (correct : σ.Correct) (hx : Alive σ x) : ¬ x.CanReach σ Obtained := by
  rintro ⟨es, y, hrun, log, len, hlen, hlog, _⟩
  have hy := hx.run correct hrun
  exact hy.noEof len hlen (by simp [hlog])

/-- The proxy never sees the end of the stream. -/
theorem Alive.not_sawEof (correct : σ.Correct) (hx : Alive σ x) :
    ¬ x.CanReach σ fun y => y.tcp.sawEof = true := by
  rintro ⟨es, y, hrun, hsaw⟩
  have hy := hx.run correct hrun
  rw [hy.noTcpEof] at hsaw
  cases hsaw

/-- Once an end is done, the other does not learn of it. -/
theorem Alive.not_propagates (correct : σ.Correct) (hx : Alive σ x)
    (hend : x.tcp.shut = true ∨ x.ended = true) : ¬ x.Propagates σ := by
  intro hp
  cases hended : x.ended with
  | true => exact hx.not_sawEof correct (hp.toProxy hended)
  | false =>
    refine hx.not_obtained correct (hp.toClient ?_ hended)
    exact hend.resolve_right (by simp [hended])

/-- **End of stream.**  In every reachable state of the bridge the end of the
stream can get through only as long as there is none: once the proxy or the
client is done, no continuation tells the other end. -/
theorem propagates_iff (correct : σ.Correct) (es : List Bridge.Event)
    (run : exec (Bridge.step σ) init es = some x) :
    x.Propagates σ ↔ x.tcp.shut = false ∧ x.ended = false := by
  have hx := (Alive.init σ).run correct run
  refine ⟨?_, ?_⟩
  · intro hp
    by_contra hend
    refine hx.not_propagates correct ?_ hp
    cases hshut : x.tcp.shut with
    | true => exact Or.inl rfl
    | false =>
      cases hended : x.ended with
      | true => exact Or.inr rfl
      | false => exact absurd ⟨hshut, hended⟩ hend
  · intro hp
    obtain ⟨hshut, hended⟩ := hp
    refine ⟨?_, ?_, ?_⟩
    · intro h
      rw [hshut] at h
      cases h
    · intro h
      rw [hended] at h
      cases h
    · intro h
      rcases h with h | h
      · rw [hshut] at h
        cases h
      · rw [hended] at h
        cases h

/-! ### A proxy that is done -/

/-- The proxy sends `abc` and shuts its sending half down.  The bridge forwards
the bytes, the client reads them and the acknowledgement arrives, and the loop
from the proxy ends. -/
def forwardedRun : List Bridge.Event :=
  ([.tcpSend [97, 98, 99], .tcpShut, .readTcp 3, .writeUdp, .sent .writer] : List Bridge.Event)
    ++ (readOne 16 (boxed .nodeToClient 0 [97, 98, 99])).map (fun (h, e) => .client h e)
    ++ ([.push ⟨.ack, 0, []⟩, .recv .writer, .lock .writer, .readTcp 0] : List Bridge.Event)

theorem propagates_iff_forwarded :
    ∃ x, exec (Bridge.step tagCipher) init forwardedRun = some x ∧
      (x.Propagates tagCipher ↔ x.tcp.shut = false ∧ x.ended = false) := by
  have hrun : (exec (Bridge.step tagCipher) init forwardedRun).isSome := by decide +kernel
  obtain ⟨x, hx⟩ := Option.isSome_iff_exists.mp hrun
  exact ⟨x, hx, propagates_iff tagCipher_correct forwardedRun hx⟩

/-- The client has all bytes and the loop from the proxy has returned `Ok`, but
the end of the stream does not get to the client. -/
theorem eof_never_reaches_client :
    ∃ x, exec (Bridge.step tagCipher) init forwardedRun = some x ∧ x.tcp.shut = true ∧
      x.ended = false ∧ x.toUdp = .done (.ok ()) ∧ returnedBytes x.client.log = x.tcp.sent ∧
      (¬ x.CanReach tagCipher Obtained) ∧ ¬ x.Propagates tagCipher := by
  obtain ⟨x, hx, hshut, hended, hdone, hbytes⟩ :
      ∃ x, exec (Bridge.step tagCipher) init forwardedRun = some x ∧ x.tcp.shut = true ∧
        x.ended = false ∧ x.toUdp = .done (.ok ()) ∧
        returnedBytes x.client.log = x.tcp.sent := by
    decide +kernel
  have halive := (Alive.init tagCipher).run tagCipher_correct hx
  exact ⟨x, hx, hshut, hended, hdone, hbytes, halive.not_obtained tagCipher_correct,
    halive.not_propagates tagCipher_correct (Or.inl hshut)⟩

end Bridge

end MediumOverlay
