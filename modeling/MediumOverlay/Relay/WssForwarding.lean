import MediumOverlay.Lib.Trace
import MediumOverlay.Transport.Packet

/-!
# Forwarding between two WebSockets

`forward_wss_bidirectional` joins the socket of a client to that of a node.  It has a loop
for each direction and runs both at once.  A loop takes a message from one socket and sends
it to the other before it takes the next.  The first loop that ends takes the other one with
it, wherever that is.

Neither loop sends on the other's socket, so a direction can be looked at alone.  What it has
sent is a start of the data it has taken (`Lane.Sound`), and it has sent all of that data when
it comes to a close.
-/

namespace MediumOverlay

open Trace

namespace Relay

/-- `axum::extract::ws::Message`. -/
inductive Message where
  | text (payload : String)
  | binary (payload : Bytes)
  | ping (payload : Bytes)
  | pong (payload : Bytes)
  | close (frame : Option (UInt16 × String))
deriving DecidableEq, Repr

def Message.isBinary : Message → Bool
  | .binary _ => true
  | _ => false

/-- Where a loop is. -/
inductive ForwardLoop where
  /-- In `next`. -/
  | recv
  /-- In `send`, before the message has gone out and behind that. -/
  | send (message : Message)
  | flush (message : Message)
  | done (result : Except AnyhowError Unit)
deriving DecidableEq

/-- A loop, with the messages it has taken and those that have gone out. -/
structure Lane where
  loop : ForwardLoop
  received : List Message
  sent : List Message
deriving DecidableEq

namespace Lane

inductive Event where
  /-- `next` returns, with nothing at the end of the stream. -/
  | next (item : Option (Except AnyhowError Message))
  | goesOut
  | sendReturns
  | sendFails (error : AnyhowError)
deriving DecidableEq

def start : Lane := ⟨.recv, [], []⟩

/-- The loop behind `next`. -/
def take : Message → ForwardLoop
  | .binary payload => .send (.binary payload)
  | .close frame => .send (.close frame)
  | _ => .recv

/-- The loop behind `send`.  A close ends it. -/
def sendOk : Message → ForwardLoop
  | .close _ => .done (.ok ())
  | _ => .recv

/-- The loop behind a `send` that fails.  The result for a close is not looked at. -/
def sendError (error : AnyhowError) : Message → ForwardLoop
  | .close _ => .done (.ok ())
  | _ => .done (.error error)

def step (x : Lane) (e : Event) : Option Lane :=
  match x.loop, e with
  | .recv, .next (some (.ok message)) =>
    some { x with loop := take message, received := x.received ++ [message] }
  | .recv, .next (some (.error error)) => some { x with loop := .done (.error error) }
  | .recv, .next none => some { x with loop := .done (.ok ()) }
  | .send message, .goesOut =>
    some { x with loop := .flush message, sent := x.sent ++ [message] }
  | .send message, .sendFails error => some { x with loop := sendError error message }
  | .flush message, .sendFails error => some { x with loop := sendError error message }
  | .flush message, .sendReturns => some { x with loop := sendOk message }
  | _, _ => none

def isDone (x : Lane) : Bool :=
  match x.loop with
  | .done _ => true
  | _ => false

/-- The data that the loop has taken. -/
def binaries (x : Lane) : List Message := x.received.filter Message.isBinary

end Lane

/-! ## Both directions -/

inductive Side where
  | client
  | node
deriving DecidableEq

/-- `forward_wss_bidirectional`, with a lane for each side that it takes messages from. -/
structure Forwarding where
  clientToNode : Lane
  nodeToClient : Lane
deriving DecidableEq

namespace Forwarding

def start : Forwarding := ⟨.start, .start⟩

/-- The lane of the messages from a side. -/
def lane (x : Forwarding) : Side → Lane
  | .client => x.clientToNode
  | .node => x.nodeToClient

/-- A step of either loop.  There is none when one of them has ended. -/
def step (x : Forwarding) (e : Side × Lane.Event) : Option Forwarding :=
  if x.clientToNode.isDone || x.nodeToClient.isDone then none
  else
    match e.1 with
    | .client => (x.clientToNode.step e.2).map fun lane => { x with clientToNode := lane }
    | .node => (x.nodeToClient.step e.2).map fun lane => { x with nodeToClient := lane }

/-- The result of the loop that `select` has seen end. -/
def result (x : Forwarding) : Option (Except AnyhowError Unit) :=
  match x.clientToNode.loop, x.nodeToClient.loop with
  | .done result, _ => some result
  | _, .done result => some result
  | _, _ => none

end Forwarding

/-! ## One direction -/

namespace Lane

/-- No message is a close. -/
def Open (messages : List Message) : Prop := ∀ frame, Message.close frame ∉ messages

/-- The lanes of a run.  Only the last message that was taken can be missing, and there is
none behind a close. -/
inductive Sound : Lane → Prop where
  | recv (data : List Message) (hopen : Open data) :
      Sound ⟨.recv, data, data.filter Message.isBinary⟩
  | send (data : List Message) (message : Message) (hopen : Open data)
      (htake : take message = .send message) :
      Sound ⟨.send message, data ++ [message], data.filter Message.isBinary⟩
  | flush (data : List Message) (message : Message) (hopen : Open data)
      (htake : take message = .send message) :
      Sound ⟨.flush message, data ++ [message], data.filter Message.isBinary ++ [message]⟩
  | ended (data : List Message) (result : Except AnyhowError Unit) (hopen : Open data) :
      Sound ⟨.done result, data, data.filter Message.isBinary⟩
  /-- The last message has not gone out. -/
  | lost (data : List Message) (message : Message) (result : Except AnyhowError Unit)
      (hopen : Open data) :
      Sound ⟨.done result, data ++ [message], data.filter Message.isBinary⟩
  | closed (data : List Message) (frame : Option (UInt16 × String))
      (result : Except AnyhowError Unit) (hopen : Open data) :
      Sound ⟨.done result, data ++ [.close frame],
        data.filter Message.isBinary ++ [.close frame]⟩

variable {data : List Message} {message : Message}

theorem Open.concat (h : Open data) (hmessage : ∀ frame, message ≠ .close frame) :
    Open (data ++ [message]) := by
  intro frame hmem
  obtain hmem | hmem := List.mem_append.mp hmem
  · exact h frame hmem
  · exact hmessage frame (List.mem_singleton.mp hmem).symm

theorem sound_take (hopen : Open data) (message : Message) :
    Sound ⟨take message, data ++ [message], data.filter Message.isBinary⟩ := by
  have hskip : (∀ frame, message ≠ .close frame) → message.isBinary = false →
      Sound ⟨.recv, data ++ [message], data.filter Message.isBinary⟩ := by
    intro hmessage hbinary
    have hrecv := Sound.recv (data ++ [message]) (hopen.concat hmessage)
    rwa [List.filter_append, List.filter_cons_of_neg (by simp [hbinary]), List.filter_nil,
      List.append_nil] at hrecv
  cases message with
  | binary payload => exact .send data _ hopen rfl
  | close frame => exact .send data _ hopen rfl
  | text payload => exact hskip (by simp) rfl
  | ping payload => exact hskip (by simp) rfl
  | pong payload => exact hskip (by simp) rfl

theorem filter_concat_binary (data : List Message) (payload : Bytes) :
    (data ++ [Message.binary payload]).filter Message.isBinary
      = data.filter Message.isBinary ++ [.binary payload] := List.filter_append ..

/-- A message that goes out is data or a close. -/
theorem sound_flushed (hopen : Open data) (htake : take message = .send message)
    {loop : ForwardLoop}
    (hbinary : ∀ payload, message = .binary payload → loop = .recv ∨ ∃ result, loop = .done result)
    (hclose : ∀ frame, message = .close frame → ∃ result, loop = .done result) :
    Sound ⟨loop, data ++ [message], data.filter Message.isBinary ++ [message]⟩ := by
  cases message with
  | binary payload =>
    have hopen : Open (data ++ [.binary payload]) := hopen.concat (by simp)
    rw [← filter_concat_binary]
    obtain rfl | ⟨result, rfl⟩ := hbinary payload rfl
    · exact .recv _ hopen
    · exact .ended _ result hopen
  | close frame =>
    obtain ⟨result, rfl⟩ := hclose frame rfl
    exact .closed data frame result hopen
  | text payload => cases htake
  | ping payload => cases htake
  | pong payload => cases htake

theorem sendError_eq (error : AnyhowError) (message : Message) :
    ∃ result, sendError error message = .done result := by
  cases message with
  | close frame => exact ⟨_, rfl⟩
  | _ => exact ⟨_, rfl⟩

variable {x : Lane}

theorem Sound.step {y : Lane} {e : Event} (hx : Sound x) (h : x.step e = some y) : Sound y := by
  cases hx with
  | recv data hopen =>
    cases e with
    | next item =>
      match item with
      | none =>
        cases h
        exact .ended data _ hopen
      | some (.error error) =>
        cases h
        exact .ended data _ hopen
      | some (.ok message) =>
        cases h
        exact sound_take hopen message
    | _ => cases h
  | send data message hopen htake =>
    cases e with
    | goesOut =>
      cases h
      exact .flush data message hopen htake
    | sendFails error =>
      cases h
      obtain ⟨result, hresult⟩ := sendError_eq error message
      dsimp only
      rw [hresult]
      exact .lost data message result hopen
    | _ => cases h
  | flush data message hopen htake =>
    cases e with
    | sendReturns =>
      cases h
      refine sound_flushed hopen htake ?_ ?_
      · rintro payload rfl
        exact .inl rfl
      · rintro frame rfl
        exact ⟨_, rfl⟩
    | sendFails error =>
      cases h
      have hresult := sendError_eq error message
      exact sound_flushed hopen htake (fun _ _ => .inr hresult) fun _ _ => hresult
    | _ => cases h
  | ended data result hopen => cases h
  | lost data message result hopen => cases h
  | closed data frame result hopen => cases h

/-- What one side has got of the messages of the other. -/
structure Forwards (x : Lane) : Prop where
  /-- Data of the other side, from the first on, and then at most a close. -/
  inOrder : ∃ data, data <+: x.binaries ∧
    (x.sent = data ∨ ∃ frame, x.sent = data ++ [.close frame])
  /-- With a close, all data in front of it. -/
  beforeClose : ∀ frame, .close frame ∈ x.received → ∃ before,
    x.received = before ++ [.close frame] ∧
      (x.sent = before.filter Message.isBinary ∨
        x.sent = before.filter Message.isBinary ++ [.close frame])
  closeLast : ∀ before frame after, x.sent = before ++ .close frame :: after → after = []

theorem open_filter (data : List Message) : Open (data.filter Message.isBinary) :=
  fun _ hmem => by simpa [Message.isBinary] using List.of_mem_filter hmem

/-- A close that is taken is the last message. -/
theorem eq_of_close_mem (hopen : Open data) {frame : Option (UInt16 × String)}
    (h : .close frame ∈ data ++ [message]) : message = .close frame :=
  (List.mem_singleton.mp ((List.mem_append.mp h).resolve_left (hopen frame))).symm

theorem Sound.inOrder (h : Sound x) :
    ∃ data, data <+: x.binaries ∧ (x.sent = data ∨ ∃ frame, x.sent = data ++ [.close frame]) := by
  have hstart : ∀ (data : List Message) (message : Message),
      data.filter Message.isBinary <+: (data ++ [message]).filter Message.isBinary :=
    fun data message => (List.prefix_append data [message]).filter _
  cases h with
  | recv data hopen => exact ⟨_, List.prefix_refl _, .inl rfl⟩
  | send data message hopen htake => exact ⟨_, hstart data message, .inl rfl⟩
  | flush data message hopen htake =>
    cases message with
    | binary payload =>
      refine ⟨_, ?_, .inl rfl⟩
      rw [binaries, filter_concat_binary]
    | close frame => exact ⟨_, hstart data _, .inr ⟨frame, rfl⟩⟩
    | text payload => cases htake
    | ping payload => cases htake
    | pong payload => cases htake
  | ended data result hopen => exact ⟨_, List.prefix_refl _, .inl rfl⟩
  | lost data message result hopen => exact ⟨_, hstart data message, .inl rfl⟩
  | closed data frame result hopen => exact ⟨_, hstart data _, .inr ⟨frame, rfl⟩⟩

theorem Sound.beforeClose (h : Sound x) {frame : Option (UInt16 × String)}
    (hclose : .close frame ∈ x.received) :
    ∃ before, x.received = before ++ [.close frame] ∧
      (x.sent = before.filter Message.isBinary ∨
        x.sent = before.filter Message.isBinary ++ [.close frame]) := by
  cases h with
  | recv data hopen => exact absurd hclose (hopen frame)
  | send data message hopen htake =>
    rw [eq_of_close_mem hopen hclose]
    exact ⟨data, rfl, .inl rfl⟩
  | flush data message hopen htake =>
    rw [eq_of_close_mem hopen hclose]
    exact ⟨data, rfl, .inr rfl⟩
  | ended data result hopen => exact absurd hclose (hopen frame)
  | lost data message result hopen =>
    rw [eq_of_close_mem hopen hclose]
    exact ⟨data, rfl, .inl rfl⟩
  | closed data last result hopen =>
    rw [eq_of_close_mem hopen hclose]
    exact ⟨data, rfl, .inr rfl⟩

theorem Sound.forwards (h : Sound x) : Forwards x := by
  refine ⟨h.inOrder, fun frame => h.beforeClose, ?_⟩
  intro before frame after hsent
  obtain ⟨data, hdata, hend⟩ := h.inOrder
  have hopen : Open data := fun frame hmem => open_filter x.received frame (hdata.subset hmem)
  obtain hend | ⟨last, hend⟩ := hend
  · rw [hend] at hsent
    exact absurd (hsent ▸ by simp) (hopen frame)
  · -- the only close is the last message
    rw [hend] at hsent
    obtain ⟨mid, rfl, hmid⟩ | ⟨mid, rfl, hmid⟩ := List.append_eq_append_iff.mp hsent
    · match mid with
      | [] => exact (List.cons.inj hmid).2.symm
      | m :: mid =>
        have hlength := congrArg List.length hmid
        simp at hlength
    · match mid with
      | [] => exact (List.cons.inj hmid).2
      | m :: mid =>
        obtain ⟨rfl, -⟩ := List.cons.inj hmid
        exact absurd (by simp) (hopen frame)

end Lane

/-! ## Runs -/

namespace Forwarding

variable {x : Forwarding}

theorem step_lane {y : Forwarding} {e : Side × Lane.Event} (h : x.step e = some y) (side : Side) :
    y.lane side = x.lane side ∨ (x.lane side).step e.2 = some (y.lane side) := by
  obtain ⟨origin, event⟩ := e
  rw [step] at h
  split at h
  next => cases h
  next =>
    cases origin with
    | client =>
      obtain ⟨lane, hlane, rfl⟩ := Option.map_eq_some_iff.mp h
      cases side with
      | client => exact .inr hlane
      | node => exact .inl rfl
    | node =>
      obtain ⟨lane, hlane, rfl⟩ := Option.map_eq_some_iff.mp h
      cases side with
      | client => exact .inl rfl
      | node => exact .inr hlane

theorem sound_run {es : List (Side × Lane.Event)} (h : exec step start es = some x) :
    ∀ side, (x.lane side).Sound := by
  refine exec_invariant_all (I := fun x => ∀ side, (x.lane side).Sound) ?_ es start x ?_ h
  · intro x e y hx hstep side
    obtain hsame | hlane := step_lane hstep side
    · rw [hsame]
      exact hx side
    · exact (hx side).step hlane
  · intro side
    cases side <;> exact .recv [] (by simp [Lane.Open])

theorem step_of_result {result : Except AnyhowError Unit} (h : x.result = some result)
    (e : Side × Lane.Event) : x.step e = none := by
  have hdone : x.clientToNode.isDone || x.nodeToClient.isDone := by
    unfold Forwarding.result at h
    split at h
    next hloop => simp [Lane.isDone, hloop]
    next hloop _ => simp [Lane.isDone, hloop]
    next => cases h
  rw [step, if_pos hdone]

/-- Each side gets the data of the other in order, all of it in front of a close, and nothing
behind that.  When a loop has ended, neither side gets anything more. -/
theorem wss_forwarding {es : List (Side × Lane.Event)} {x : Forwarding}
    (run : exec step start es = some x) :
    (∀ side, (x.lane side).Forwards) ∧
      ∀ result, x.result = some result → ∀ e, x.step e = none :=
  ⟨fun side => (sound_run run side).forwards, fun _ hresult e => step_of_result hresult e⟩

/-- The client sends two messages and a close while the node answers. -/
def sampleRun : List (Side × Lane.Event) :=
  [(.client, .next (some (.ok (.binary [1])))), (.node, .next (some (.ok (.binary [9])))),
    (.client, .goesOut), (.client, .sendReturns), (.client, .next (some (.ok (.ping [])))),
    (.client, .next (some (.ok (.binary [2])))), (.client, .goesOut), (.client, .sendReturns),
    (.client, .next (some (.ok (.close none)))), (.client, .goesOut), (.client, .sendReturns)]

def sampleEnd : Forwarding :=
  ⟨⟨.done (.ok ()), [.binary [1], .ping [], .binary [2], .close none],
      [.binary [1], .binary [2], .close none]⟩,
    ⟨.send (.binary [9]), [.binary [9]], []⟩⟩

/-- The answer that was on its way is not sent. -/
theorem wss_forwarding_sample :
    exec step start sampleRun = some sampleEnd ∧ sampleEnd.result = some (.ok ())
      ∧ (∀ side, (sampleEnd.lane side).Forwards)
      ∧ sampleEnd.step (.node, .goesOut) = none := by
  have hrun : exec step start sampleRun = some sampleEnd := rfl
  obtain ⟨hforwards, hover⟩ := wss_forwarding hrun
  exact ⟨hrun, rfl, hforwards, hover (.ok ()) rfl (.node, .goesOut)⟩

end Forwarding

end Relay

end MediumOverlay
