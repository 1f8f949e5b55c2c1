import MediumOverlay.Transport.Listener

/-!
# The UDP service of the home node

`run_udp_session_listener` makes a listener and accepts sessions until the node's
flag is cleared.  Each turn of its loop takes one message from the channel that
the reader of the listener fills.  A session gets a bridge on a thread of its own.
An error ends the service, unless it is a timeout.

The reader reports every `Hello` whose payload does not parse as an error on the
same channel.  So one datagram from anywhere ends the service.  `survives_iff`
says that nothing else does: as long as no such `Hello` comes the service runs on
and every new handshake becomes a session.
-/

namespace MediumOverlay

open Trace

/-- `is_timeout`. -/
def AnyhowError.isTimeout : AnyhowError → Bool
  | .io error => error.isTimeout
  | .json _ | .message _ => false

/-- `run_udp_session_listener` and its listener. -/
structure Service where
  /-- The flag of the node. -/
  running : Bool
  listener : Listener
  /-- How many messages of the channel have been received. -/
  taken : Nat
  /-- The sessions that were given a bridge. -/
  accepted : List AcceptedUdpSession
  result : Option (Except AnyhowError Unit)

namespace Service

inductive Event where
  /-- A turn of the listener's reader. -/
  | reader (e : Listener.Event)
  /-- A turn of the accept loop. -/
  | accept
  /-- The flag is cleared. -/
  | stop

def init : Service := ⟨true, .init, 0, [], none⟩

/-- `UdpSessionListener::accept`: the next message of the channel.  Without one
the wait times out, or the reader has returned and the channel is closed. -/
def receive (x : Service) : Except AnyhowError AcceptedUdpSession × Nat :=
  match x.listener.incoming[x.taken]? with
  | some message => (message, x.taken + 1)
  | none =>
    if x.listener.returned then (.error (.message "UDP session listener stopped"), x.taken)
    else (.error (.io .timedOut), x.taken)

/-- The service returns and drops the listener. -/
def finish (x : Service) (result : Except AnyhowError Unit) : Service :=
  { x with result := some result, listener := { x.listener with running := false } }

/-- The test of the loop, before the next `accept`. -/
def loopTest (x : Service) : Service := if x.running then x else x.finish (.ok ())

/-- The body of the loop. -/
def accept (x : Service) : Service :=
  let (message, taken) := x.receive
  let x := { x with taken := taken }
  match message with
  | .ok session => { x with accepted := x.accepted ++ [session] }.loopTest
  | .error error => if error.isTimeout then x.loopTest else x.finish (.error error)

def step (codec : Codec) (x : Service) : Event → Option Service
  | .reader .drop => none
  | .reader e => (x.listener.step codec e).map fun l => { x with listener := l }
  | .accept => if x.result.isSome then none else some x.accept
  | .stop => some { x with running := false }

/-! ## Datagrams -/

structure Datagram where
  time : Nat
  source : SocketAddr
  bytes : Bytes

/-- The datagram arrives, and the socket calls made for it succeed. -/
def Datagram.arrives (d : Datagram) : Event := .reader (.received d.time d.source d.bytes .ok)

def Event.datagram? : Event → Option Datagram
  | .reader (.received now addr bytes _) => some ⟨now, addr, bytes⟩
  | _ => none

/-- The flag stays set and the socket calls succeed.  Waiting for a datagram may
time out. -/
def Event.Undisturbed : Event → Prop
  | .reader (.received _ _ _ io) => io = .ok
  | .reader (.failed error) => error.isTimeout = true
  | .reader .drop | .accept => True
  | .stop => False

/-- A packet of kind `Hello` whose payload does not parse. -/
def Malformed (codec : Codec) (datagram : Bytes) : Prop :=
  ∃ message, Listener.helloOf codec datagram = some (.error message)

/-- The `Hello`s among the datagrams that parse and are not duplicates, with their
sources, after the handshakes `recent`. -/
def newHandshakes (codec : Codec) :
    List (SessionHandshakeKey × Nat) → List Datagram → List (SocketAddr × SessionHello)
  | _, [] => []
  | recent, d :: ds =>
    match Listener.helloOf codec d.bytes with
    | some (.ok hello) =>
      let (duplicate, recent) := isDuplicateHandshake recent (hello.key d.source) d.time
      (if duplicate then [] else [(d.source, hello)]) ++ newHandshakes codec recent ds
    | _ => newHandshakes codec recent ds

/-- At every point of every undisturbed run over the datagrams, or over the first
of them, the service has not returned, and after some more turns of its loop every
new handshake so far has become a session. -/
def Survives (codec : Codec) (ds : List Datagram) : Prop :=
  ∀ es x, (∀ e ∈ es, e.Undisturbed) → es.filterMap Event.datagram? <+: ds →
    exec (step codec) init es = some x →
    x.result = none ∧ ∃ n y, exec (step codec) x (.replicate n .accept) = some y ∧
      y.accepted.map (fun s => (s.peerAddr, s.hello))
        = newHandshakes codec [] (es.filterMap Event.datagram?)

variable {codec : Codec} {x y : Service} {e : Event} {es : List Event} {d : Datagram}
  {ds : List Datagram}

/-! ## Without a malformed `Hello` -/

/-- The service runs, and the channel has carried sessions only: those accepted
and then those in `queue`. -/
structure Healthy (x : Service) (queue : List AcceptedUdpSession) : Prop where
  running : x.running = true
  result : x.result = none
  listening : x.listener.running = true
  reading : x.listener.returned = false
  incoming : x.listener.incoming = (x.accepted ++ queue).map .ok
  taken : x.taken = x.accepted.length

theorem Healthy.init : Healthy .init [] := ⟨rfl, rfl, rfl, rfl, rfl, rfl⟩

variable {queue : List AcceptedUdpSession}

/-- A turn of the loop with a session in the channel. -/
theorem Healthy.accept_cons {s : AcceptedUdpSession} (hx : Healthy x (s :: queue)) :
    Healthy x.accept queue ∧ x.accept.accepted = x.accepted ++ [s] ∧
      x.accept.listener = x.listener := by
  have hnext : x.listener.incoming[x.taken]? = some (.ok s) := by
    rw [hx.incoming, hx.taken]
    simp
  have heq : x.accept = { x with taken := x.taken + 1, accepted := x.accepted ++ [s] } := by
    simp [accept, receive, hnext, loopTest, hx.running]
  rw [heq]
  refine ⟨⟨hx.running, hx.result, hx.listening, hx.reading, ?_, ?_⟩, rfl, rfl⟩
  · simp [hx.incoming]
  · simp [hx.taken]

/-- A turn of the loop with nothing in the channel. -/
theorem Healthy.accept_nil (hx : Healthy x []) : x.accept = x := by
  have hnext : x.listener.incoming[x.taken]? = none := by
    rw [hx.incoming, hx.taken]
    simp
  have htime : x.accept = x.loopTest := by
    simp [accept, receive, hnext, hx.reading, AnyhowError.isTimeout, IoError.isTimeout,
      IoError.timedOut]
  rw [htime]
  simp [loopTest, hx.running]

/-- As many turns as there are sessions in the channel accept them all. -/
theorem Healthy.drain (codec : Codec) (hx : Healthy x queue) :
    ∃ y, exec (step codec) x (.replicate queue.length .accept) = some y ∧
      y.accepted = x.accepted ++ queue := by
  induction queue generalizing x with
  | nil => exact ⟨x, rfl, by simp⟩
  | cons s queue ih =>
    obtain ⟨hy, hacc, _⟩ := hx.accept_cons
    obtain ⟨z, hz, hall⟩ := ih hy
    refine ⟨z, ?_, by rw [hall, hacc]; simp⟩
    rw [List.length_cons, List.replicate_succ, exec_cons_eq_some]
    exact ⟨x.accept, by simp [step, hx.result], hz⟩

/-- The sessions that were opened, accepted or not, and the new handshakes that are
still to come in `ds`. -/
def owed (codec : Codec) (x : Service) (queue : List AcceptedUdpSession) (ds : List Datagram) :
    List (SocketAddr × SessionHello) :=
  (x.accepted ++ queue).map (fun s => (s.peerAddr, s.hello))
    ++ newHandshakes codec x.listener.recentHandshakes ds

/-- What the reader makes of a datagram that is no malformed `Hello`. -/
theorem Healthy.arrives (hx : Healthy x queue) (wellFormed : ¬ Malformed codec d.bytes)
    (ds : List Datagram) (h : step codec x d.arrives = some y) :
    ∃ queue', Healthy y queue' ∧ owed codec y queue' ds = owed codec x queue (d :: ds) := by
  obtain ⟨l, hl, heq⟩ := Option.map_eq_some_iff.mp h
  cases heq
  simp only [Listener.step, hx.reading, Bool.false_eq_true, if_false, Option.some.injEq] at hl
  subst hl
  have hlistening : (x.listener.handle codec d.time d.source d.bytes .ok).loopTest.running = true :=
    Listener.handle_running.trans hx.listening
  have hreading : (x.listener.handle codec d.time d.source d.bytes .ok).loopTest.returned = false :=
    by simp [Listener.loopTest, Listener.handle_running, hx.listening]
  cases hh : Listener.helloOf codec d.bytes with
  | none =>
    obtain ⟨hrecent, hin⟩ := Listener.handle_notHello x.listener d.time d.source .ok hh
    refine ⟨queue, ⟨hx.running, hx.result, hlistening, hreading, ?_, hx.taken⟩, ?_⟩
    · simpa [hin] using hx.incoming
    · simp [owed, newHandshakes, hh, Listener.loopTest, hrecent]
  | some result =>
    cases result with
    | error message => exact absurd ⟨message, hh⟩ wellFormed
    | ok hello =>
      obtain ⟨hrecent, hin⟩ := Listener.handle_wellFormed d.time d.source hh hx.listening
      cases hdup : (isDuplicateHandshake x.listener.recentHandshakes (hello.key d.source)
        d.time).1 with
      | true =>
        refine ⟨queue, ⟨hx.running, hx.result, hlistening, hreading, ?_, hx.taken⟩, ?_⟩
        · simpa [hin, hdup] using hx.incoming
        · simp [owed, newHandshakes, hh, Listener.loopTest, hrecent, hdup]
      | false =>
        refine ⟨queue ++ [⟨d.source, hello, x.listener.sessions.boxes.length⟩],
          ⟨hx.running, hx.result, hlistening, hreading, ?_, hx.taken⟩, ?_⟩
        · simp [hin, hdup, hx.incoming]
        · simp [owed, newHandshakes, hh, Listener.loopTest, hrecent, hdup]

/-- One step of an undisturbed run. -/
theorem Healthy.step (hx : Healthy x queue) (undisturbed : e.Undisturbed)
    (wellFormed : ∀ d ∈ e.datagram?, ¬ Malformed codec d.bytes) (ds : List Datagram)
    (h : Service.step codec x e = some y) :
    ∃ queue', Healthy y queue' ∧
      owed codec y queue' ds = owed codec x queue (e.datagram?.toList ++ ds) := by
  cases e with
  | reader e =>
    cases e with
    | received now addr bytes io =>
      cases undisturbed
      exact hx.arrives (d := ⟨now, addr, bytes⟩) (wellFormed _ rfl) ds h
    | failed error =>
      have htime : error.isTimeout = true := undisturbed
      simp only [Service.step, Listener.step, hx.reading, htime, Bool.false_eq_true, if_false,
        if_true, Option.map_some, Option.some.injEq] at h
      subst h
      refine ⟨queue, ⟨hx.running, hx.result, hx.listening, ?_, hx.incoming, hx.taken⟩, rfl⟩
      simp [Listener.loopTest, hx.listening]
    | drop => cases h
  | accept =>
    simp only [Service.step, hx.result, Option.isSome_none, Bool.false_eq_true, if_false,
      Option.some.injEq] at h
    subst h
    cases queue with
    | nil =>
      rw [hx.accept_nil]
      exact ⟨[], hx, rfl⟩
    | cons s queue =>
      obtain ⟨hy, hacc, hlis⟩ := hx.accept_cons
      exact ⟨queue, hy, by simp [owed, hacc, hlis, Event.datagram?]⟩
  | stop => cases undisturbed

/-- A whole undisturbed run: what was owed over its datagrams has been opened. -/
theorem Healthy.run (hx : Healthy x queue) (undisturbed : ∀ e ∈ es, e.Undisturbed)
    (wellFormed : ∀ d ∈ es.filterMap Event.datagram?, ¬ Malformed codec d.bytes)
    (run : exec (Service.step codec) x es = some y) :
    ∃ queue', Healthy y queue' ∧
      owed codec y queue' [] = owed codec x queue (es.filterMap Event.datagram?) := by
  induction es generalizing x queue with
  | nil =>
    cases run
    exact ⟨queue, hx, rfl⟩
  | cons e es ih =>
    obtain ⟨z, hz, hy⟩ := exec_cons_eq_some.mp run
    have hsplit : (e :: es).filterMap Event.datagram?
        = e.datagram?.toList ++ es.filterMap Event.datagram? := by
      cases hd : e.datagram? <;> simp [hd]
    rw [hsplit] at wellFormed ⊢
    obtain ⟨queue₁, hhz, howed₁⟩ := hx.step (undisturbed e List.mem_cons_self)
      (fun d hd => wellFormed d (by simp [Option.mem_toList.mpr hd]))
      (es.filterMap Event.datagram?) hz
    obtain ⟨queue', hhy, howed⟩ := ih hhz
      (fun e' he => undisturbed e' (List.mem_cons_of_mem _ he))
      (fun d hd => wellFormed d (List.mem_append_right _ hd)) hy
    exact ⟨queue', hhy, howed.trans howed₁⟩

theorem survives_of_wellFormed (h : ∀ d ∈ ds, ¬ Malformed codec d.bytes) : Survives codec ds := by
  intro es x hes hds hx
  obtain ⟨queue, hhx, howed⟩ := Healthy.init.run hes (fun d hd => h d (hds.mem hd)) hx
  obtain ⟨y, hy, hacc⟩ := hhx.drain codec
  refine ⟨hhx.result, queue.length, y, hy, ?_⟩
  rw [hacc]
  simpa [owed, newHandshakes, Service.init, Listener.init] using howed

/-! ## With one -/

/-- A datagram is handled as long as the reader has not returned. -/
theorem step_arrives (codec : Codec) (reading : x.listener.returned = false) (d : Datagram) :
    step codec x d.arrives = some
      { x with listener := (x.listener.handle codec d.time d.source d.bytes .ok).loopTest } := by
  simp [step, Datagram.arrives, Listener.step, reading]

theorem exec_arrives (codec : Codec) (ds : List Datagram) (listening : x.listener.running = true)
    (reading : x.listener.returned = false) :
    ∃ l, exec (step codec) x (ds.map Datagram.arrives) = some { x with listener := l } ∧
      l.running = true ∧ l.returned = false := by
  induction ds generalizing x with
  | nil => exact ⟨x.listener, rfl, listening, reading⟩
  | cons d ds ih =>
    have hrun : (x.listener.handle codec d.time d.source d.bytes .ok).running = true :=
      Listener.handle_running.trans listening
    obtain ⟨l, hl, hrest⟩ := ih
      (x := { x with listener := (x.listener.handle codec d.time d.source d.bytes .ok).loopTest })
      hrun (by simp [Listener.loopTest, hrun])
    exact ⟨l, exec_cons_eq_some.mpr ⟨_, step_arrives codec reading d, hl⟩, hrest⟩

/-- An error in the channel that is no timeout ends the service, this one or one
before it. -/
theorem exists_returned (codec : Codec) {error : AnyhowError} (fatal : error.isTimeout = false)
    (k : Nat) (result : x.result = none) (running : x.running = true)
    (queued : x.listener.incoming[x.taken + k]? = some (.error error)) :
    ∃ n y, exec (step codec) x (.replicate n .accept) = some y ∧ y.result.isSome = true := by
  induction k generalizing x with
  | zero =>
    rw [Nat.add_zero] at queued
    have hstep : step codec x .accept = some x.accept := by simp [step, result]
    refine ⟨1, x.accept, exec_cons_eq_some.mpr ⟨_, hstep, rfl⟩, ?_⟩
    simp [accept, receive, queued, fatal, finish]
  | succ k ih =>
    have hstep : step codec x .accept = some x.accept := by simp [step, result]
    have hlt : x.taken < x.listener.incoming.length := by
      have := (List.getElem?_eq_some_iff.mp queued).1
      omega
    have hnext := List.getElem?_eq_getElem hlt
    -- the message in front is received, and the service either goes on or returns
    have hgo : x.accept.result = none → x.accept.running = true →
        x.accept.listener = x.listener → x.accept.taken = x.taken + 1 → ∃ n y,
        exec (step codec) x (.replicate n .accept) = some y ∧ y.result.isSome = true := by
      intro hres hrun hlis htak
      obtain ⟨n, y, hy, h⟩ := ih hres hrun
        (by rw [hlis, htak, Nat.succ_add_eq_add_succ]; exact queued)
      exact ⟨n + 1, y, exec_cons_eq_some.mpr ⟨_, hstep, hy⟩, h⟩
    cases hm : x.listener.incoming[x.taken] with
    | ok session =>
      rw [hm] at hnext
      apply hgo <;> simp [accept, receive, hnext, loopTest, running, result]
    | error other =>
      rw [hm] at hnext
      cases ho : other.isTimeout with
      | true => apply hgo <;> simp [accept, receive, hnext, ho, loopTest, running, result]
      | false =>
        refine ⟨1, x.accept, exec_cons_eq_some.mpr ⟨_, hstep, rfl⟩, ?_⟩
        simp [accept, receive, hnext, ho, finish]

theorem filterMap_arrives (ds : List Datagram) (n : Nat) :
    (ds.map Datagram.arrives ++ .replicate n .accept).filterMap Event.datagram? = ds := by
  have hds : Event.datagram? ∘ Datagram.arrives = some := rfl
  simp [List.filterMap_append, List.filterMap_map, hds, Event.datagram?]

theorem not_survives_of_malformed (mem : d ∈ ds) (malformed : Malformed codec d.bytes) :
    ¬ Survives codec ds := by
  intro hsurv
  obtain ⟨message, hmessage⟩ := malformed
  obtain ⟨before, after, rfl⟩ := List.append_of_mem mem
  -- the datagrams up to this one arrive, and nothing is accepted in between
  obtain ⟨l, hl, listening, reading⟩ :=
    exec_arrives codec before (x := init) rfl rfl
  have hstep := step_arrives codec (x := { init with listener := l }) reading d
  rw [Listener.handle_malformed hmessage listening] at hstep
  have fatal : (AnyhowError.json message).isTimeout = false := rfl
  obtain ⟨n, y, hy, hret⟩ := exists_returned codec fatal
    l.incoming.length (x := { init with listener := (Listener.loopTest
      { l with incoming := l.incoming ++ [.error (.json message)] }) }) rfl rfl
    (by simp [init])
  have hrun : exec (step codec) init
      ((before ++ [d]).map Datagram.arrives ++ .replicate n .accept) = some y := by
    rw [List.map_append, exec_append_eq_some]
    refine ⟨_, exec_append_eq_some.mpr ⟨_, hl, exec_cons_eq_some.mpr ⟨_, hstep, rfl⟩⟩, hy⟩
  have hnone := (hsurv _ y ?_ ?_ hrun).1
  · rw [hnone] at hret
    cases hret
  · intro e he
    rcases List.mem_append.mp he with he | he
    · obtain ⟨d', _, rfl⟩ := List.mem_map.mp he
      rfl
    · rw [List.eq_of_mem_replicate he]
      trivial
  · rw [filterMap_arrives]
    exact ⟨after, by simp⟩

/-- **Survival.**  For the service to survive a sequence of datagrams it is necessary
and sufficient that none of them is a malformed `Hello`. -/
theorem survives_iff : Survives codec ds ↔ ∀ d ∈ ds, ¬ Malformed codec d.bytes :=
  ⟨fun hsurv _ mem malformed => not_survives_of_malformed mem malformed hsurv,
    survives_of_wellFormed⟩

/-! ### A `Hello` without a payload -/

/-- A header of kind `Hello` and nothing behind it. -/
def emptyHello : Datagram :=
  ⟨0, Listener.sampleClient, MAGIC ++ [1, 0, 0, 0, 0, 0, 0, 0, 0, 0, 0]⟩

/-- No parser of JSON accepts it. -/
theorem malformed_emptyHello (codec : Codec) : Malformed codec emptyHello.bytes := by
  obtain ⟨message, hnil⟩ := codec.parseHello_nil
  have hpacket : packetOf emptyHello.bytes = some ⟨.hello, 0, []⟩ := by decide +kernel
  exact ⟨message, by rw [Listener.helloOf_eq hpacket rfl, hnil]⟩

theorem emptyHello_stops :
    (∃ x, exec (step Listener.sampleCodec) init [emptyHello.arrives, .accept] = some x ∧
      x.running = true ∧
      x.result = some (.error (.json "EOF while parsing a value at line 1 column 0"))) ∧
    ¬ Survives Listener.sampleCodec [emptyHello] := by
  exact ⟨by decide +kernel,
    not_survives_of_malformed List.mem_cons_self (malformed_emptyHello _)⟩

end Service

end MediumOverlay
