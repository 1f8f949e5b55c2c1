import MediumOverlay.HomeNode.WssSession
import MediumOverlay.Transport.Lines

/-!
# The ways into a node

A client reaches a node by a connection to its TCP listener, by a socket that the
node holds at a TCP relay or at a WSS relay, or by a UDP session, which the node
bridges to its own TCP listener.  On each of them the node reads a hello, and the
WebSocket has a reader of its own for it.  Then the node checks the hello and runs
the proxy of the service.

The log of a session has the hello with the time of the check, and what happens to
targets.  `Opened` says that there is nothing in it but that hello, one that passed
the check, and behind it what the proxy of its service does.
-/

namespace MediumOverlay

open Trace

/-- `serde_json` on hellos.  A JSON text has no newline in it. -/
structure HelloCodec where
  toVec : SessionHello → Bytes
  fromSlice : Bytes → Except String SessionHello
  newline_free : ∀ hello, 10 ∉ toVec hello

/-- A node that is ready: its configuration, and the services it has prepared. -/
structure NodeSetup where
  tokens : TokenCodec
  hellos : HelloCodec
  serverTls : ServiceConfig → Except AnyhowError ServerConfig
  cfg : NodeConfig
  sharedSecret : String
  services : ProxyServices
  prepared : proxyServicesFromConfig serverTls cfg = .ok services

/-- Where a session comes from. -/
inductive Entry where
  | direct
  | relay
  | wss
  /-- The bridge of a UDP session with this hello. -/
  | udp (hello : SessionHello)
deriving DecidableEq, Repr

/-! ## Hellos -/

/-- `read_wss_session_hello` with the payload so far: the hello, and the bytes behind
it. -/
def readWssSessionHello (fromSlice : Bytes → Except String SessionHello) :
    Bytes → List (Except AnyhowError WsMessage) → Except AnyhowError (SessionHello × Bytes)
  | _, [] => .error (.message "missing session hello")
  | _, .error error :: _ => .error error
  | payload, .ok (.binary frame) :: messages =>
    let payload := payload ++ frame
    match payload.dropWhile (· ≠ 10) with
    | _ :: remaining =>
      let line := payload.takeWhile (· ≠ 10)
      if line.isEmpty then .error (.message "missing session hello")
      else
        match fromSlice line with
        | .error error => .error (.json error)
        | .ok hello => .ok (hello, remaining)
    | [] =>
      if MAX_HELLO_LEN < payload.length then .error (.message "session hello too large")
      else readWssSessionHello fromSlice payload messages
  | _, .ok .close :: _ => .error (.message "websocket closed before session hello")
  | payload, .ok (.text _) :: messages | payload, .ok .ping :: messages
  | payload, .ok .pong :: messages => readWssSessionHello fromSlice payload messages

/-- The bytes of the binary messages. -/
def binaryBytes : List (Except AnyhowError WsMessage) → Bytes
  | .ok (.binary frame) :: messages => frame ++ binaryBytes messages
  | _ :: messages => binaryBytes messages
  | [] => []

/-- The first line of a stream is a hello. -/
def Carries (fromSlice : Bytes → Except String SessionHello) (bytes : Bytes)
    (hello : SessionHello) : Prop :=
  ∃ line rest, bytes = line ++ 10 :: rest ∧ 10 ∉ line ∧ fromSlice line = .ok hello

variable {line : Bytes}

theorem takeWhile_line (h : 10 ∉ line) (rest : Bytes) :
    (line ++ 10 :: rest).takeWhile (· ≠ 10) = line := by
  have hline : ∀ b ∈ line, decide (b ≠ 10) = true := by
    intro b hb
    simp only [decide_eq_true_eq]
    rintro rfl
    exact h hb
  rw [List.takeWhile_append_of_pos hline, List.takeWhile_cons_of_neg (by simp), List.append_nil]

variable {rest : Bytes}

theorem readLine_ok {ended : IoError} {bytes line' : Bytes} (hline : 10 ∉ line)
    (h : readLine ended line bytes = .ok (line', rest)) :
    line ++ bytes = line' ++ 10 :: rest ∧ 10 ∉ line' := by
  induction bytes generalizing line with
  | nil => cases h
  | cons byte bytes ih =>
    rw [readLine] at h
    split at h
    next hbyte =>
      cases h
      exact ⟨by rw [hbyte], hline⟩
    next hbyte =>
      split at h
      · cases h
      · have hnext : 10 ∉ line ++ [byte] := by
          simpa [hline] using fun heq : 10 = byte => hbyte heq.symm
        simpa using ih hnext h

variable {fromSlice : Bytes → Except String SessionHello} {hello : SessionHello}

theorem carries_of_readJsonLine {inbound : Inbound}
    (h : readJsonLine fromSlice inbound = .ok (hello, rest)) :
    Carries fromSlice inbound.bytes hello := by
  unfold readJsonLine at h
  cases hread : readLine inbound.ended [] inbound.bytes with
  | error error =>
    rw [hread] at h
    cases h
  | ok parts =>
    obtain ⟨line, rest'⟩ := parts
    obtain ⟨hbytes, hline⟩ := readLine_ok (by simp) hread
    rw [hread] at h
    dsimp only at h
    split at h
    · cases h
    · cases hslice : fromSlice line with
      | error error =>
        rw [hslice] at h
        cases h
      | ok value =>
        rw [hslice] at h
        cases h
        exact ⟨line, _, hbytes, hline, hslice⟩

variable {payload : Bytes}

theorem not_mem_first_line : 10 ∉ payload.takeWhile (· ≠ 10) :=
  fun hmem => by simpa using List.mem_takeWhile_imp hmem

variable {remaining : Bytes}

theorem first_line {newline : UInt8} (h : payload.dropWhile (· ≠ 10) = newline :: remaining)
    (more : Bytes) : payload ++ more = payload.takeWhile (· ≠ 10) ++ 10 :: (remaining ++ more) := by
  have hhead := List.head?_dropWhile_not (· ≠ 10) payload
  rw [h] at hhead
  obtain rfl : newline = 10 := by simpa using hhead
  calc payload ++ more
      = payload.takeWhile (· ≠ 10) ++ payload.dropWhile (· ≠ 10) ++ more := by
        rw [List.takeWhile_append_dropWhile]
    _ = payload.takeWhile (· ≠ 10) ++ 10 :: (remaining ++ more) := by
        rw [h, List.append_assoc, List.cons_append]

theorem carries_of_readWssSessionHello {messages : List (Except AnyhowError WsMessage)}
    (h : readWssSessionHello fromSlice payload messages = .ok (hello, remaining)) :
    Carries fromSlice (payload ++ binaryBytes messages) hello := by
  induction messages generalizing payload with
  | nil => cases h
  | cons message messages ih =>
    cases message with
    | error error => cases h
    | ok message =>
      cases message with
      | close => cases h
      | text text => exact ih h
      | ping => exact ih h
      | pong => exact ih h
      | binary frame =>
        rw [readWssSessionHello] at h
        have hbytes : payload ++ binaryBytes (.ok (.binary frame) :: messages)
            = payload ++ frame ++ binaryBytes messages := by
          rw [binaryBytes, List.append_assoc]
        rw [hbytes]
        dsimp only at h
        split at h
        next newline rest hdrop =>
          split at h
          · cases h
          · cases hslice : fromSlice ((payload ++ frame).takeWhile (· ≠ 10)) with
            | error error =>
              rw [hslice] at h
              cases h
            | ok value =>
              rw [hslice] at h
              cases h
              exact ⟨_, _, first_line hdrop _, not_mem_first_line, hslice⟩
        next hdrop =>
          split at h
          · cases h
          · exact ih h

/-! ## Sessions -/

/-- What a session does: it has a hello checked, and it does something to a target. -/
inductive SessionEffect where
  | hello (hello : SessionHello) (now : Int)
  | target (effect : TargetEffect)
deriving DecidableEq, Repr

/-- Where the handler of a session is. -/
inductive Phase where
  | hello
  | tcp (proxy : ServiceProxy) (unread : Bytes)
  | wss (session : WssSession)
  | failed (error : AnyhowError)

/-- A session, with the bytes that have arrived, and its log. -/
structure NodeSession where
  now : Int
  arrived : Bytes
  phase : Phase
  log : List SessionEffect

namespace NodeSession

inductive Event where
  | tick (elapsed : Nat)
  /-- All that arrives on a TCP stream.  The handler reads the hello from it. -/
  | inbound (inbound : Inbound)
  /-- The messages on a WebSocket, up to the end of the hello. -/
  | messages (messages : List (Except AnyhowError WsMessage))
  | leaseExpired
  | proxy (e : ServiceProxy.Event)
  | bridge (e : WssSession.Event)

def init (now : Int) : NodeSession := ⟨now, [], .hello, []⟩

/-- What the bridge of a UDP session writes first: `write_session_hello_sync`. -/
def bridgeLine (hellos : HelloCodec) (hello : SessionHello) : Bytes := hellos.toVec hello ++ [10]

/-- A stream can carry these bytes.  On that of the bridge its line comes first. -/
def admits (hellos : HelloCodec) : Entry → Bytes → Prop
  | .direct, _ | .relay, _ => True
  | .wss, _ => False
  | .udp hello, bytes =>
    bytes <+: bridgeLine hellos hello ∨ bridgeLine hellos hello <+: bytes

instance (hellos : HelloCodec) (entry : Entry) (bytes : Bytes) :
    Decidable (admits hellos entry bytes) :=
  match entry with
  | .direct | .relay => .isTrue trivial
  | .wss => .isFalse id
  | .udp _ => inferInstanceAs (Decidable (_ <+: _ ∨ _ <+: _))

/-- The error of a lease that expires, where there is one. -/
def leaseError : Entry → Option AnyhowError
  | .relay => some (.message "relay node socket idle lease expired after 60s")
  | .wss => some (.message "wss relay node socket idle lease expired after 60s")
  | .direct | .udp _ => none

/-- The handler behind its hello: the check, and the start of the proxy. -/
def onHello (node : NodeSetup) (x : NodeSession) (arrived : Bytes)
    (result : Except AnyhowError (SessionHello × Bytes)) (proxying : ProxyService → Bytes → Phase) :
    NodeSession :=
  match result with
  | .error error => { x with arrived := arrived, phase := .failed error }
  | .ok (hello, rest) =>
    match authorizeSession node.tokens node.services node.cfg.nodeId node.sharedSecret hello
        x.now with
    | .error error =>
      { x with
        arrived := arrived
        phase := .failed error
        log := x.log ++ [.hello hello x.now] }
    | .ok service =>
      { x with
        arrived := arrived
        phase := proxying service rest
        log := x.log ++ .hello hello x.now
          :: (ServiceProxy.start service).effects.map .target }

/-- What a proxy has done to the target since an earlier state. -/
def since (p q : ServiceProxy) : List SessionEffect :=
  (q.effects.drop p.effects.length).map .target

/-- A read of the TCP stream returns no bytes only at its end. -/
def readable (p : ServiceProxy) (unread : Bytes) (e : ServiceProxy.Event) : Bool :=
  (p.takes e).isPrefixOf unread &&
    match e with
    | .rawRead [] => unread.isEmpty
    | .read [] => p.tls || unread.isEmpty
    | _ => true

/-- `handle_connection`, `handle_relay_connection` and `handle_wss_connection`. -/
def step (node : NodeSetup) (entry : Entry) (x : NodeSession) : Event → Option NodeSession
  | .tick elapsed => some { x with now := x.now + elapsed }
  | .inbound inbound =>
    match x.phase with
    | .hello =>
      if admits node.hellos entry inbound.bytes then
        some (x.onHello node inbound.bytes (readJsonLine node.hellos.fromSlice inbound)
          fun service rest => .tcp (.start service) rest)
      else none
    | _ => none
  | .messages messages =>
    match x.phase with
    | .hello =>
      if entry = .wss then
        some (x.onHello node (binaryBytes messages)
          (readWssSessionHello node.hellos.fromSlice [] messages)
          fun service rest => .wss (.start service rest))
      else none
    | _ => none
  | .leaseExpired =>
    match x.phase with
    | .hello => (leaseError entry).map fun error => { x with phase := .failed error }
    | _ => none
  | .proxy e =>
    match x.phase with
    | .tcp p unread =>
      if readable p unread e then
        (p.step e).map fun q =>
          { x with
            phase := .tcp q (unread.drop (p.takes e).length)
            log := x.log ++ since p q }
      else none
    | _ => none
  | .bridge e =>
    match x.phase with
    | .wss session =>
      (session.step e).map fun session' =>
        { x with phase := .wss session', log := x.log ++ since session.proxy session'.proxy }
    | _ => none

/-! ## Every target was asked for -/

/-- The hello of a session has passed the check for a service with this target. -/
structure Cleared (node : NodeSetup) (entry : Entry) (arrived : Bytes) (hello : SessionHello)
    (now : Int) (target : String) : Prop where
  received : Carries node.hellos.fromSlice arrived hello
  token : ∃ claims, verifySessionToken node.tokens node.sharedSecret hello.token now = .ok claims
    ∧ claims.serviceId = hello.serviceId ∧ claims.nodeId = node.cfg.nodeId
  service : ∃ svc ∈ node.cfg.services, svc.enabled = true ∧ svc.id = hello.serviceId
    ∧ svc.target = target
  bridged : ∀ udp, entry = .udp udp → node.hellos.fromSlice (node.hellos.toVec udp) = .ok hello

/-- The log of a session with a proxy. -/
def Opened (node : NodeSetup) (entry : Entry) (x : NodeSession) (service : ProxyService) : Prop :=
  ∃ hello now, ∃ effects : List TargetEffect, x.log = .hello hello now :: effects.map .target
    ∧ (∀ f ∈ effects, f.target = service.target)
    ∧ Cleared node entry x.arrived hello now service.target

/-- The state of a session after any run. -/
def Sound (node : NodeSetup) (entry : Entry) (x : NodeSession) : Prop :=
  match x.phase with
  | .hello => x.log = []
  | .tcp p _ => Opened node entry x p.service
  | .wss s => Opened node entry x s.proxy.service
  | .failed _ => ∀ f, .target f ∉ x.log

variable {hello : SessionHello}

/-- The hello on the stream of a bridge is that of its session. -/
theorem fromSlice_of_bridge {hellos : HelloCodec} {udp : SessionHello} {bytes : Bytes}
    (h : admits hellos (.udp udp) bytes) (hc : Carries hellos.fromSlice bytes hello) :
    hellos.fromSlice (hellos.toVec udp) = .ok hello := by
  obtain ⟨line, rest, rfl, hline, hok⟩ := hc
  have hudp := hellos.newline_free udp
  suffices hsame : line = hellos.toVec udp by rw [← hsame, hok]
  rcases h with ⟨more, hmore⟩ | ⟨more, hmore⟩
  · rw [bridgeLine, List.append_assoc, List.cons_append] at hmore
    rw [← takeWhile_line hline (rest ++ more), hmore, takeWhile_line hudp]
  · rw [bridgeLine, List.append_assoc, List.singleton_append] at hmore
    rw [← takeWhile_line hline rest, ← hmore, takeWhile_line hudp]

variable {node : NodeSetup} {entry : Entry} {x : NodeSession} {arrived : Bytes}
  {result : Except AnyhowError (SessionHello × Bytes)}

/-- The check of a hello leaves a session that has failed without touching a target, or
one whose service the hello is cleared for. -/
theorem onHello_cases (proxying : ProxyService → Bytes → Phase) (hlog : x.log = [])
    (received : ∀ hello rest, result = .ok (hello, rest) →
      Carries node.hellos.fromSlice arrived hello
        ∧ ∀ udp, entry = .udp udp → node.hellos.fromSlice (node.hellos.toVec udp) = .ok hello) :
    (∃ error, (x.onHello node arrived result proxying).phase = .failed error
        ∧ ∀ f, .target f ∉ (x.onHello node arrived result proxying).log)
      ∨ ∃ service rest, (x.onHello node arrived result proxying).phase = proxying service rest
        ∧ Opened node entry (x.onHello node arrived result proxying) service := by
  cases result with
  | error error => exact .inl ⟨error, rfl, by simp [onHello, hlog]⟩
  | ok parts =>
    obtain ⟨hello, rest⟩ := parts
    obtain ⟨hcarries, hbridged⟩ := received hello rest rfl
    cases hauth : authorizeSession node.tokens node.services node.cfg.nodeId node.sharedSecret
        hello x.now with
    | error error =>
      simp only [onHello, hauth, hlog]
      exact .inl ⟨error, rfl, by simp⟩
    | ok service =>
      obtain ⟨htoken, hlookup⟩ := authorizeSession_eq_ok_iff.mp hauth
      obtain ⟨svc, hsvc, henabled, hid, hentry⟩ := exists_config node.prepared hlookup
      simp only [onHello, hauth, hlog]
      refine .inr ⟨service, rest, rfl, hello, x.now, _, rfl,
        (ServiceProxy.start_spec service).2.2.2, hcarries,
        htoken, ⟨svc, hsvc, henabled, hid, ?_⟩, hbridged⟩
      exact (proxyService_ok hentry).2.symm

/-- A step of the proxy goes on with the same service. -/
theorem Opened.proceed {p q : ServiceProxy} {e : ServiceProxy.Event}
    (h : Opened node entry x p.service) (hq : p.step e = some q) (phase : Phase) :
    Opened node entry { x with phase := phase, log := x.log ++ since p q } q.service := by
  obtain ⟨hello, now, effects, hlog, htargets, hcleared⟩ := h
  obtain ⟨hservice, -, -, new, hnew, htarget⟩ := ServiceProxy.step_eq_some hq
  rw [hservice]
  refine ⟨hello, now, effects ++ new, ?_, ?_, hcleared⟩
  · simp [hlog, since, hnew]
  · intro f hf
    rcases List.mem_append.mp hf with hf | hf
    · exact htargets f hf
    · exact htarget f hf

theorem Sound.of_onHello {proxying : ProxyService → Bytes → Phase} (hlog : x.log = [])
    (received : ∀ hello rest, result = .ok (hello, rest) →
      Carries node.hellos.fromSlice arrived hello
        ∧ ∀ udp, entry = .udp udp → node.hellos.fromSlice (node.hellos.toVec udp) = .ok hello)
    (hproxying : ∀ y service rest, y.phase = proxying service rest →
      Opened node entry y service → Sound node entry y) :
    Sound node entry (x.onHello node arrived result proxying) := by
  rcases onHello_cases proxying hlog received with
    ⟨error, hphase, hnone⟩ | ⟨service, rest, hphase, hopened⟩
  · rw [Sound, hphase]
    exact hnone
  · exact hproxying _ service rest hphase hopened

theorem Sound.step {y : NodeSession} {e : Event} (h : Sound node entry x)
    (hs : x.step node entry e = some y) : Sound node entry y := by
  cases e with
  | tick elapsed =>
    cases hs
    exact h
  | inbound inbound =>
    cases hphase : x.phase with
    | hello =>
      simp only [Sound, hphase] at h
      simp only [NodeSession.step, hphase] at hs
      split at hs
      next hadmits =>
        cases hs
        refine Sound.of_onHello h ?_ ?_
        · intro hello rest hok
          have hcarries := carries_of_readJsonLine hok
          refine ⟨hcarries, ?_⟩
          rintro udp rfl
          exact fromSlice_of_bridge hadmits hcarries
        · intro y service rest hphase hopened
          rw [Sound, hphase]
          dsimp only
          rw [(ServiceProxy.start_spec service).1]
          exact hopened
      next => cases hs
    | _ => simp [NodeSession.step, hphase] at hs
  | messages messages =>
    cases hphase : x.phase with
    | hello =>
      simp only [Sound, hphase] at h
      simp only [NodeSession.step, hphase] at hs
      split at hs
      next hwss =>
        cases hs
        refine Sound.of_onHello h ?_ ?_
        · intro hello rest hok
          refine ⟨carries_of_readWssSessionHello hok, ?_⟩
          rintro udp rfl
          cases hwss
        · intro y service rest hphase hopened
          rw [Sound, hphase]
          dsimp only [WssSession.start]
          rw [(ServiceProxy.start_spec service).1]
          exact hopened
      next => cases hs
    | _ => simp [NodeSession.step, hphase] at hs
  | leaseExpired =>
    cases hphase : x.phase with
    | hello =>
      simp only [Sound, hphase] at h
      simp only [NodeSession.step, hphase] at hs
      obtain ⟨error, -, rfl⟩ := Option.map_eq_some_iff.mp hs
      simp [Sound, h]
    | _ => simp [NodeSession.step, hphase] at hs
  | proxy e =>
    cases hphase : x.phase with
    | tcp p unread =>
      simp only [Sound, hphase] at h
      simp only [NodeSession.step, hphase] at hs
      split at hs
      next =>
        obtain ⟨q, hq, rfl⟩ := Option.map_eq_some_iff.mp hs
        exact h.proceed hq _
      next => cases hs
    | _ => simp [NodeSession.step, hphase] at hs
  | bridge e =>
    cases hphase : x.phase with
    | wss session =>
      simp only [Sound, hphase] at h
      simp only [NodeSession.step, hphase] at hs
      obtain ⟨session', hsession, rfl⟩ := Option.map_eq_some_iff.mp hs
      rcases WssSession.proxy_step hsession with hsame | ⟨e', hq⟩
      · simp only [Sound, since, hsame, List.drop_length, List.map_nil, List.append_nil]
        exact h
      · exact h.proceed hq _
    | _ => simp [NodeSession.step, hphase] at hs

/-- Whatever arrives on whichever way, the node connects to a target or sends it a byte
only behind a hello that it has received, whose token is good at that time for this
node and for the service, and the target is that of the service in the node's
configuration, where it is enabled. -/
theorem targets_authorized {node : NodeSetup} {entry : Entry} {start : Int} {es : List Event}
    {x : NodeSession} (run : exec (step node entry) (init start) es = some x) :
    ∀ before f after, x.log = before ++ .target f :: after →
      ∃ hello now, .hello hello now ∈ before ∧ Cleared node entry x.arrived hello now f.target := by
  have h : Sound node entry x :=
    exec_invariant_all (fun _ _ _ h hs => Sound.step h hs) es (init start) x rfl run
  -- the log of a session with a target in it starts with its hello
  have hopened : ∀ f, .target f ∈ x.log → ∃ service, Opened node entry x service := by
    intro f hf
    unfold Sound at h
    split at h
    · rw [h] at hf
      cases hf
    · exact ⟨_, h⟩
    · exact ⟨_, h⟩
    · exact absurd hf (h f)
  intro before f after hlog
  obtain ⟨service, hello, now, effects, heffects, htargets, hcleared⟩ :=
    hopened f (by simp [hlog])
  rw [heffects] at hlog
  cases before with
  | nil => cases hlog
  | cons first before =>
    rw [List.cons_append, List.cons.injEq] at hlog
    obtain ⟨rfl, hrest⟩ := hlog
    have hf : f ∈ effects := by
      have hmem : SessionEffect.target f ∈ effects.map SessionEffect.target := by simp [hrest]
      obtain ⟨f', hf', heq⟩ := List.mem_map.mp hmem
      cases heq
      exact hf'
    refine ⟨hello, now, List.mem_cons_self, ?_⟩
    rw [htargets f hf]
    exact hcleared

/-- A hello that is read and passes the check starts the proxy. -/
theorem step_inbound {inbound : Inbound} {rest : Bytes} {service : ProxyService}
    (hphase : x.phase = .hello) (hadmits : admits node.hellos entry inbound.bytes)
    (hread : readJsonLine node.hellos.fromSlice inbound = .ok (hello, rest))
    (hauth : authorizeSession node.tokens node.services node.cfg.nodeId node.sharedSecret hello
      x.now = .ok service) :
    x.step node entry (.inbound inbound) = some
      { x with
        arrived := inbound.bytes
        phase := .tcp (.start service) rest
        log := x.log ++ .hello hello x.now
          :: (ServiceProxy.start service).effects.map .target } := by
  simp only [NodeSession.step, hphase, hadmits, if_true, onHello, hread, hauth]

/-! ### A session with the sample token -/

def sampleHello : SessionHello := ⟨sampleToken, "svc_web", none⟩

def sampleHelloLine : Bytes :=
  ("\x7b\"token\":\"" ++ sampleToken ++ "\",\"service_id\":\"svc_web\"\x7d").toUTF8.data.toList

def sampleHellos : HelloCodec where
  toVec hello := if hello = sampleHello then sampleHelloLine else []
  fromSlice bytes :=
    if bytes = sampleHelloLine then .ok sampleHello else .error "expected value at line 1 column 1"
  newline_free := by
    intro hello
    split
    · decide +kernel
    · simp

def sampleService : ProxyService := ⟨"svc_web", "https", "127.0.0.1:8080", none, .none⟩

/-- A node that has prepared the services of the sample configuration. -/
def sampleNode : NodeSetup where
  tokens := sampleTokenCodec
  hellos := sampleHellos
  serverTls := sampleServerTls
  cfg := sampleConfig
  sharedSecret := sampleSecret
  services := (∅ : ProxyServices).insert "svc_web" sampleService
  prepared := by rfl

def sampleInbound : Inbound := ⟨sampleHelloLine ++ [10, 97, 98, 99], .earlyEof⟩

/-- The three bytes behind the hello reach the target. -/
def sampleSession : List Event :=
  [.inbound sampleInbound, .proxy .connected, .proxy (.read [97, 98, 99]),
    .proxy (.targetWrite 3)]

theorem readJsonLine_sample :
    readJsonLine sampleHellos.fromSlice sampleInbound = .ok (sampleHello, [97, 98, 99]) := by
  have hok : sampleHellos.fromSlice sampleHelloLine = .ok sampleHello := by
    simp only [sampleHellos, if_true]
  have hline : 10 ∉ sampleHelloLine := by decide +kernel
  have hne : sampleHelloLine.isEmpty = false := by decide +kernel
  have hlen : sampleHelloLine.length ≤ MAX_HELLO_LEN := by decide +kernel
  have hparse : parseLine sampleHellos.fromSlice sampleHelloLine = .ok sampleHello := by
    simp only [parseLine, hne, hok, Bool.false_eq_true, if_false]
  have hread := readJsonLine_line sampleHellos.fromSlice hline hlen [97, 98, 99] .earlyEof
  rw [hparse] at hread
  exact hread

theorem targets_authorized_sample :
    ∃ x, exec (step sampleNode .direct) (init sampleIssued) sampleSession = some x
      ∧ x.log = [.hello sampleHello sampleIssued, .target (.connect "127.0.0.1:8080"),
        .target (.write "127.0.0.1:8080" [97, 98, 99])]
      ∧ Cleared sampleNode .direct x.arrived sampleHello sampleIssued "127.0.0.1:8080" := by
  have hauth : authorizeSession sampleTokenCodec sampleNode.services "node-1" sampleSecret
      sampleHello sampleIssued = .ok sampleService :=
    authorizeSession_eq_ok_iff.mpr
      ⟨⟨sampleClaims, verifySessionToken_sample (by decide), rfl, rfl⟩, rfl⟩
  have hfirst : (init sampleIssued).step sampleNode .direct (.inbound sampleInbound) = some
      ⟨sampleIssued, sampleInbound.bytes, .tcp (.start sampleService) [97, 98, 99],
        [.hello sampleHello sampleIssued, .target (.connect "127.0.0.1:8080")]⟩ :=
    step_inbound rfl trivial readJsonLine_sample hauth
  obtain ⟨x, hrest, hlog⟩ :
      ∃ x, exec (step sampleNode .direct) ⟨sampleIssued, sampleInbound.bytes,
          .tcp (.start sampleService) [97, 98, 99],
          [.hello sampleHello sampleIssued, .target (.connect "127.0.0.1:8080")]⟩
          (sampleSession.drop 1) = some x ∧
        x.log = [.hello sampleHello sampleIssued, .target (.connect "127.0.0.1:8080"),
          .target (.write "127.0.0.1:8080" [97, 98, 99])] := by
    decide +kernel
  have run := exec_cons_eq_some.mpr ⟨_, hfirst, hrest⟩
  obtain ⟨hello, now, hmem, hcleared⟩ := targets_authorized run
    [.hello sampleHello sampleIssued] (.connect "127.0.0.1:8080") _ hlog
  cases List.mem_singleton.mp hmem
  exact ⟨x, run, hlog, hcleared⟩

end NodeSession

end MediumOverlay
