import MediumOverlay.Lib.Trace
import MediumOverlay.Transport.Call

/-!
# A WebSocket as a byte stream

`WssByteStream` gives the bytes of Binary and Text messages to a reader with buffers of
its own sizes.  A message that is larger than the buffer leaves its rest in
`pending_read`, and the next reads take it from there before they look at the socket
again.  On the way to the next message pings are answered, and pongs and raw frames
skipped.

A run keeps a log with one entry for each read: what it has returned, what the socket had
before it and has no more, and what it has left pending.  `Accounted` is what every read
keeps.
-/

namespace MediumOverlay.MediumSession

open Trace

/-- `tungstenite::Message`. -/
inductive Message where
  | binary (bytes : Bytes)
  | text (text : String)
  | close
  | ping (payload : Bytes)
  | pong (payload : Bytes)
  | frame (payload : Bytes)
deriving DecidableEq, Repr

/-- `tungstenite::Error`: an error of the connection below, or the text of another
one. -/
inductive WsError where
  | io (error : IoError)
  | protocol (message : String)
deriving DecidableEq, Repr

/-- `Display`. -/
def WsError.display : WsError → String
  | io error => "IO error: " ++ error.message
  | protocol message => message

/-- What one turn of a read loop meets: the result of `socket.read`, and for a ping the
result of sending the answer. -/
structure SocketTurn where
  read : Except WsError Message
  send : Except WsError Unit := .ok ()
deriving DecidableEq

/-- The bytes that a message adds to the stream. -/
def Message.payload : Message → Bytes
  | binary bytes => bytes
  | text contents => contents.toUTF8.data.toList
  | close | ping _ | pong _ | frame _ => []

/-- The answers that the messages call for. -/
def Message.answer : Message → List Message
  | ping payload => [pong payload]
  | binary _ | text _ | close | pong _ | frame _ => []

/-- How a read of the socket ends. -/
structure Taken where
  result : Except IoError Bytes
  /-- What goes to `pending_read`. -/
  kept : Bytes
  sent : List Message
  /-- What the socket is going to return after it. -/
  rest : List SocketTurn

/-- An answer is sent in front of those that follow. -/
def Taken.after (sent : List Message) (taken : Taken) : Taken :=
  { taken with sent := sent ++ taken.sent }

/-- A payload goes to the buffer, and what does not fit is kept. -/
def Taken.ofPayload (size : Nat) (bytes : Bytes) (rest : List SocketTurn) : Taken :=
  ⟨.ok (bytes.take size), bytes.drop size, [], rest⟩

/-- The loop of `WssByteStream::read` with a buffer of `size` bytes.  `none` if the
socket has nothing to return yet. -/
def receiveLoop (size : Nat) : List SocketTurn → Option Taken
  | [] => none
  | ⟨.error error, _⟩ :: rest => some ⟨.error (.other error.display), [], [], rest⟩
  | ⟨.ok (.binary bytes), _⟩ :: rest => some (.ofPayload size bytes rest)
  | ⟨.ok (.text text), _⟩ :: rest => some (.ofPayload size text.toUTF8.data.toList rest)
  | ⟨.ok .close, _⟩ :: rest => some ⟨.ok [], [], [], rest⟩
  | ⟨.ok (.ping _), .error error⟩ :: rest => some ⟨.error (.other error.display), [], [], rest⟩
  | ⟨.ok (.ping payload), .ok ()⟩ :: rest => (receiveLoop size rest).map (.after [.pong payload])
  | ⟨.ok (.pong _), _⟩ :: rest | ⟨.ok (.frame _), _⟩ :: rest => receiveLoop size rest

/-- A read: what it has returned, what it has taken from the socket, and `pending_read` when
it returns. -/
structure WssRead where
  result : Except IoError Bytes
  turns : List SocketTurn
  pendingRead : Bytes

/-- The bytes a read has returned. -/
def WssRead.bytes (read : WssRead) : Bytes := read.result.toOption.getD []

/-- A `WssByteStream` with what its socket is going to return, what was sent over it,
and the reads so far. -/
structure WssByteStream where
  pendingRead : Bytes
  socket : List SocketTurn
  sent : List Message
  reads : List WssRead

namespace WssByteStream

def init (socket : List SocketTurn) : WssByteStream := ⟨[], socket, [], []⟩

/-- `WssByteStream::read` with a buffer of `size` bytes. -/
def read (x : WssByteStream) (size : Nat) : Option WssByteStream :=
  if x.pendingRead ≠ [] then
    let rest := x.pendingRead.drop size
    some { x with
      pendingRead := rest
      reads := x.reads ++ [⟨.ok (x.pendingRead.take size), [], rest⟩] }
  else
    (receiveLoop size x.socket).map fun taken =>
      let pending := x.pendingRead ++ taken.kept
      { pendingRead := pending
        socket := taken.rest
        sent := x.sent ++ taken.sent
        reads := x.reads
          ++ [⟨taken.result, x.socket.take (x.socket.length - taken.rest.length), pending⟩] }

/-- The messages that the socket has returned. -/
def messages (turns : List SocketTurn) : List Message := turns.filterMap (·.read.toOption)

/-- The messages that have been received. -/
def received (x : WssByteStream) : List Message := messages (x.reads.flatMap WssRead.turns)

/-! ## One read of the socket -/

/-- A Binary or Text message is not empty. -/
def NonEmpty (turn : SocketTurn) : Prop :=
  ∀ message, turn.read = .ok message →
    message ≠ .binary [] ∧ message ≠ .text ""

instance (turn : SocketTurn) : Decidable (NonEmpty turn) :=
  match h : turn.read with
  | .error error => .isTrue fun message hmessage => by simp [h] at hmessage
  | .ok message => decidable_of_iff (message ≠ .binary [] ∧ message ≠ .text "") (by
      unfold NonEmpty
      simp [h])

/-- What the loop does with messages that are not empty, when its answers leave. -/
structure Sound (turns : List SocketTurn) (taken : Taken) : Prop where
  /-- What is returned and what is kept is the payload. -/
  payload : taken.result.toOption.getD [] ++ taken.kept = (messages turns).flatMap Message.payload
  /-- Every ping is answered. -/
  answers : taken.sent = (messages turns).flatMap Message.answer
  /-- The end of the stream is a `Close`. -/
  eof : taken.result = .ok [] ↔ .close ∈ messages turns
  close : .close ∈ messages turns → taken.kept = []

theorem messages_cons (message : Message) (send : Except WsError Unit) (turns : List SocketTurn) :
    messages (⟨.ok message, send⟩ :: turns) = message :: messages turns := rfl

/-- A payload that is not empty is no end of the stream. -/
theorem sound_ofPayload {size : Nat} (message : Message) (send : Except WsError Unit)
    (rest : List SocketTurn) (hsize : 0 < size) (hpayload : message.payload ≠ [])
    (hanswer : message.answer = []) :
    Sound [⟨.ok message, send⟩] (.ofPayload size message.payload rest) := by
  have hclose : Message.close ≠ message := by
    rintro rfl
    exact hpayload rfl
  have hone : messages [⟨.ok message, send⟩] = [message] := rfl
  constructor
  · simp [Taken.ofPayload, Except.toOption, hone]
  · simp [Taken.ofPayload, hanswer, hone]
  · simp [Taken.ofPayload, hpayload, hsize.ne', hclose, hone]
  · simp [hclose, hone]

/-- A message without a payload is taken on the way. -/
theorem Sound.after {turns : List SocketTurn} {taken : Taken} (h : Sound turns taken)
    (message : Message) (send : Except WsError Unit) (hpayload : message.payload = [])
    (hclose : message ≠ .close) :
    Sound (⟨.ok message, send⟩ :: turns) (taken.after message.answer) where
  payload := by simpa [Taken.after, hpayload, messages_cons] using h.payload
  answers := by simp [Taken.after, h.answers, messages_cons]
  eof := by simpa [Taken.after, hclose.symm, messages_cons] using h.eof
  close := by simpa [Taken.after, hclose.symm, messages_cons] using h.close

theorem toUTF8_ne_nil {text : String} (h : text ≠ "") : text.toUTF8.data.toList ≠ [] := by
  intro hnil
  have hsize : text.toUTF8.size = 0 := by simpa using congrArg List.length hnil
  exact h (String.utf8ByteSize_eq_zero_iff.mp hsize)

theorem receiveLoop_sound {size : Nat} (hsize : 0 < size) (socket : List SocketTurn)
    (taken : Taken) (nonEmpty : ∀ turn ∈ socket, NonEmpty turn)
    (sends : ∀ turn ∈ socket, turn.send = .ok ()) (h : receiveLoop size socket = some taken) :
    ∃ turns, socket = turns ++ taken.rest ∧ Sound turns taken := by
  induction socket generalizing taken with
  | nil => cases h
  | cons turn socket ih =>
    have hempty := nonEmpty turn List.mem_cons_self
    have hsend := sends turn List.mem_cons_self
    have hrest := fun taken => ih taken
      (fun turn hturn => nonEmpty turn (List.mem_cons_of_mem _ hturn))
      (fun turn hturn => sends turn (List.mem_cons_of_mem _ hturn))
    have hskip : ∀ message : Message, turn = ⟨.ok message, .ok ()⟩ → message.payload = [] →
        message ≠ .close → (receiveLoop size socket).map (.after message.answer) = some taken →
        ∃ turns, turn :: socket = turns ++ taken.rest ∧ Sound turns taken := by
      rintro message rfl hpayload hclose hloop
      obtain ⟨later, hlater, rfl⟩ := Option.map_eq_some_iff.mp hloop
      obtain ⟨turns, hturns, hsound⟩ := hrest later hlater
      exact ⟨_ :: turns, congrArg _ hturns, hsound.after message _ hpayload hclose⟩
    rcases turn with ⟨error | message, send⟩
    · cases h
      exact ⟨[_], rfl, by simp [Except.toOption, messages], rfl,
        by simp [messages, Except.toOption], fun _ => rfl⟩
    · cases hsend
      cases message with
      | binary bytes =>
        cases h
        refine ⟨[_], rfl, sound_ofPayload (.binary bytes) _ socket hsize ?_ rfl⟩
        rintro rfl
        exact (hempty _ rfl).1 rfl
      | text text =>
        cases h
        refine ⟨[_], rfl, sound_ofPayload (.text text) _ socket hsize (toUTF8_ne_nil ?_) rfl⟩
        rintro rfl
        exact (hempty _ rfl).2 rfl
      | close =>
        cases h
        exact ⟨[_], rfl, rfl, rfl, by simp [messages, Except.toOption], fun _ => rfl⟩
      | ping payload => exact hskip _ rfl rfl nofun h
      | pong payload | frame payload =>
        refine hskip _ rfl rfl nofun ?_
        rw [← h, receiveLoop]
        exact Option.map_id'

/-! ## Runs -/

/-- What every read keeps.  `socket` is what the socket had in the beginning. -/
structure Accounted (socket : List SocketTurn) (x : WssByteStream) : Prop where
  taken : x.reads.flatMap WssRead.turns ++ x.socket = socket
  stream : x.reads.flatMap WssRead.bytes ++ x.pendingRead = x.received.flatMap Message.payload
  answers : x.sent = x.received.flatMap Message.answer
  eof : ∀ read ∈ x.reads,
    read.result = .ok [] ↔ .close ∈ messages read.turns ∧ read.pendingRead = []

variable {x y : WssByteStream} {size : Nat} {socket : List SocketTurn}

theorem messages_concat (reads : List WssRead) (read : WssRead) :
    messages ((reads ++ [read]).flatMap WssRead.turns)
      = messages (reads.flatMap WssRead.turns) ++ messages read.turns := by
  simp [messages]

theorem Accounted.read (h : Accounted socket x) (nonEmpty : ∀ turn ∈ socket, NonEmpty turn)
    (sends : ∀ turn ∈ socket, turn.send = .ok ()) (hsize : 0 < size) (hs : x.read size = some y) :
    Accounted socket y := by
  unfold WssByteStream.read at hs
  split at hs
  next hpending =>
    cases hs
    refine ⟨?_, ?_, ?_, ?_⟩
    · simpa using h.taken
    · simpa [received, WssRead.bytes, Except.toOption] using h.stream
    · simpa [received] using h.answers
    · intro read hread
      rcases List.mem_append.mp hread with hread | hread
      · exact h.eof read hread
      · rw [List.mem_singleton.mp hread]
        simp [hpending, hsize.ne', messages]
  next hpending =>
    obtain ⟨taken, htaken, rfl⟩ := Option.map_eq_some_iff.mp hs
    have hmem : ∀ turn ∈ x.socket, turn ∈ socket := by
      intro turn hturn
      rw [← h.taken]
      exact List.mem_append_right _ hturn
    obtain ⟨turns, hsocket, hsound⟩ := receiveLoop_sound hsize x.socket taken
      (fun turn hturn => nonEmpty turn (hmem turn hturn))
      (fun turn hturn => sends turn (hmem turn hturn)) htaken
    have hturns : x.socket.take (x.socket.length - taken.rest.length) = turns := by
      rw [hsocket, List.length_append, Nat.add_sub_cancel, List.take_left]
    have hnil : x.pendingRead = [] := not_not.mp hpending
    rw [hturns]
    refine ⟨?_, ?_, ?_, ?_⟩
    · rw [List.flatMap_append, List.append_assoc, List.flatMap_singleton, ← hsocket, h.taken]
    · have hstream := h.stream
      rw [hnil, List.append_nil] at hstream
      rw [received, messages_concat, List.flatMap_append, List.flatMap_append, hstream,
        List.append_assoc, List.flatMap_singleton, hnil, List.nil_append, WssRead.bytes,
        hsound.payload]
      rfl
    · rw [received, messages_concat, List.flatMap_append, h.answers, hsound.answers, received]
    · intro read hread
      rcases List.mem_append.mp hread with hread | hread
      · exact h.eof read hread
      · rw [List.mem_singleton.mp hread]
        simp only [hnil, List.nil_append, hsound.eof]
        exact ⟨fun hclose => ⟨hclose, hsound.close hclose⟩, And.left⟩

/-- **The byte stream.**  With messages that are not empty, buffers that are not empty and
sends that succeed: what has been returned and what is pending make up the payloads
of what the socket has returned, a read returns nothing exactly if it has received a `Close`
and nothing is pending, and the pings received have been answered one by one. -/
theorem wss_byte_stream (socket : List SocketTurn) (sizes : List Nat) (x : WssByteStream)
    (nonEmpty : ∀ turn ∈ socket, NonEmpty turn) (sends : ∀ turn ∈ socket, turn.send = .ok ())
    (positive : ∀ size ∈ sizes, 0 < size) (run : exec read (init socket) sizes = some x) :
    x.reads.flatMap WssRead.turns ++ x.socket = socket ∧
      x.reads.flatMap WssRead.bytes ++ x.pendingRead = x.received.flatMap Message.payload ∧
      (∀ read ∈ x.reads,
        read.result = .ok [] ↔ .close ∈ messages read.turns ∧ read.pendingRead = []) ∧
      x.sent = x.received.flatMap Message.answer := by
  have hinit : Accounted socket (init socket) := ⟨rfl, rfl, rfl, by simp [init]⟩
  have h : Accounted socket x := exec_invariant
    (fun _ _ _ h hsize hs => h.read nonEmpty sends hsize hs) sizes _ x hinit
    (meets_of_forall sizes _ positive) run
  exact ⟨h.taken, h.stream, h.eof, h.answers⟩

/-- A ping in front of a text, a Binary message, a pong and a `Close`. -/
def sampleSocket : List SocketTurn :=
  [⟨.ok (.ping [7]), .ok ()⟩, ⟨.ok (.text "ab"), .ok ()⟩, ⟨.ok (.binary [1, 2, 3]), .ok ()⟩,
    ⟨.ok (.pong []), .ok ()⟩, ⟨.ok .close, .ok ()⟩]

theorem wss_byte_stream_sample : ∃ x, exec read (init sampleSocket) [1, 4, 2, 4, 4] = some x ∧
    x.reads.map WssRead.bytes = [[97], [98], [1, 2], [3], []] ∧
    x.reads.flatMap WssRead.turns ++ x.socket = sampleSocket ∧
    x.reads.flatMap WssRead.bytes ++ x.pendingRead = x.received.flatMap Message.payload ∧
    x.sent = [.pong [7]] := by
  obtain ⟨x, run, hbytes, hanswers⟩ :
      ∃ x, exec read (init sampleSocket) [1, 4, 2, 4, 4] = some x ∧
        x.reads.map WssRead.bytes = [[97], [98], [1, 2], [3], []] ∧
        x.received.flatMap Message.answer = [.pong [7]] := by
    decide +kernel
  obtain ⟨htaken, hstream, -, hsent⟩ := wss_byte_stream sampleSocket [1, 4, 2, 4, 4] x
    (by decide +kernel) (by decide +kernel) (by decide) run
  exact ⟨x, run, hbytes, htaken, hstream, hsent.trans hanswers⟩

end WssByteStream

end MediumOverlay.MediumSession
