import MediumOverlay.HomeNode.Entry

/-!
# The hello of a WebSocket

On a WebSocket the reader of a hello takes whole messages.  It looks for the end of the line
and at the limit once for each of them, and what is behind the line in the last message is
the start of the payload.  `wss_hello_as_on_stream` says that it reads the bytes of the
binary messages as `read_json_line` reads a stream of them.
-/

namespace MediumOverlay

open Reading

section Step

variable (fromSlice : Bytes → Except String SessionHello)

/-- A message in the loop of `read_wss_session_hello`, with the payload so far. -/
def wssHelloStep (payload : Bytes) :
    Except AnyhowError WsMessage → Task Bytes (Except AnyhowError (SessionHello × Bytes))
  | .error error => .returned (.error error)
  | .ok (.binary frame) =>
    let payload := payload ++ frame
    match payload.dropWhile (· ≠ 10) with
    | _ :: remaining =>
      .returned ((parseLine fromSlice (payload.takeWhile (· ≠ 10))).map fun hello =>
        (hello, remaining))
    | [] =>
      if MAX_HELLO_LEN < payload.length then
        .returned (.error (.message "session hello too large"))
      else .running payload
  | .ok .close => .returned (.error (.message "websocket closed before session hello"))
  | .ok (.text _) | .ok .ping | .ok .pong => .running payload

/-- `read_wss_session_hello` on messages, with those that it has not taken. -/
def takeWssSessionHello (messages : List (Except AnyhowError WsMessage)) :
    Reader (Except AnyhowError WsMessage) Bytes (Except AnyhowError (SessionHello × Bytes)) :=
  run (wssHelloStep fromSlice) [] (.running []) messages

theorem readWssSessionHello_eq (consumed : List (Except AnyhowError WsMessage)) (payload : Bytes)
    (messages : List (Except AnyhowError WsMessage)) :
    readWssSessionHello fromSlice payload messages
      = close (.error (.message "missing session hello"))
        (run (wssHelloStep fromSlice) consumed (.running payload) messages) := by
  induction messages generalizing consumed payload with
  | nil => rfl
  | cons message messages ih =>
    rw [run_running]
    cases message with
    | error error => rw [wssHelloStep, run_returned]; rfl
    | ok message =>
      cases message with
      | close => rw [wssHelloStep, run_returned]; rfl
      | text text => exact ih _ _
      | ping => exact ih _ _
      | pong => exact ih _ _
      | binary frame =>
        rw [readWssSessionHello, wssHelloStep]
        dsimp only
        cases (payload ++ frame).dropWhile (· ≠ 10) with
        | cons newline remaining =>
          simp only [run_returned, parseLine, close]
          split
          next => rfl
          next => cases fromSlice ((payload ++ frame).takeWhile (· ≠ 10)) <;> rfl
        | nil =>
          dsimp only
          split
          next => rw [run_returned]; rfl
          next => exact ih _ _

/-- A payload without a newline is a part of the line. -/
theorem payload_length_le {payload more line rest : Bytes} (hpayload : 10 ∉ payload)
    (h : payload ++ more = line ++ 10 :: rest) : payload.length ≤ line.length := by
  by_contra hlong
  have hline : line ++ [10] <+: payload ++ more := by
    rw [h]
    exact ⟨rest, by simp⟩
  have hle : (line ++ [10]).length ≤ payload.length := by
    rw [List.length_append, List.length_singleton]
    omega
  have hstart := List.prefix_of_prefix_length_le hline (List.prefix_append payload more) hle
  exact hpayload (hstart.subset (by simp))

/-- The loop reads the line, however the bytes are split into messages. -/
theorem run_wssHelloStep {line rest : Bytes} (hline : 10 ∉ line)
    (hlen : line.length ≤ MAX_HELLO_LEN) {messages : List WsMessage} (hopen : .close ∉ messages)
    {payload : Bytes} (hpayload : 10 ∉ payload)
    (hbytes : payload ++ binaryBytes (messages.map .ok) = line ++ 10 :: rest)
    (consumed : List (Except AnyhowError WsMessage)) :
    ∃ taken remaining unread,
      run (wssHelloStep fromSlice) consumed (.running payload) (messages.map .ok)
        = ⟨.returned ((parseLine fromSlice line).map fun hello => (hello, remaining)), taken,
          unread⟩
      ∧ remaining ++ binaryBytes unread = rest := by
  induction messages generalizing payload consumed with
  | nil =>
    rw [List.map_nil, binaryBytes, List.append_nil] at hbytes
    exact absurd (hbytes ▸ hpayload) (by simp)
  | cons message messages ih =>
    obtain ⟨hmessage, hrest⟩ := List.ne_and_not_mem_of_not_mem_cons hopen
    rw [List.map_cons, run_running]
    cases message with
    | close => exact absurd rfl hmessage
    | text text => exact ih hrest hpayload hbytes _
    | ping => exact ih hrest hpayload hbytes _
    | pong => exact ih hrest hpayload hbytes _
    | binary frame =>
      rw [List.map_cons, binaryBytes, ← List.append_assoc] at hbytes
      rw [wssHelloStep]
      cases hdrop : (payload ++ frame).dropWhile (· ≠ 10) with
      | cons newline remaining =>
        have hsplit := first_line hdrop (binaryBytes (messages.map .ok))
        have hfirst : (payload ++ frame).takeWhile (· ≠ 10) = line := by
          rw [hbytes] at hsplit
          rw [← takeWhile_line hline rest, hsplit, takeWhile_line not_mem_first_line]
        rw [hbytes, hfirst, List.append_cancel_left_eq, List.cons.injEq] at hsplit
        rw [hfirst, run_returned]
        exact ⟨_, remaining, _, rfl, hsplit.2.symm⟩
      | nil =>
        -- the payload is a part of the line, and so within the limit
        have hnone : 10 ∉ payload ++ frame := by
          intro hmem
          simpa using List.dropWhile_eq_nil_iff.mp hdrop 10 hmem
        have hshort : ¬ MAX_HELLO_LEN < (payload ++ frame).length :=
          Nat.not_lt.mpr ((payload_length_le hnone hbytes).trans hlen)
        dsimp only
        rw [if_neg hshort]
        exact ih hrest hnone hbytes _

/-- **Hellos on a WebSocket.**  Of binary messages with a line that is short enough in their
bytes, the reader makes what `read_json_line` makes of the bytes.  What it returns behind the
hello, with the messages it has not taken, is what is behind the line. -/
theorem wss_hello_as_on_stream {line rest : Bytes} (hline : 10 ∉ line)
    (hlen : line.length ≤ 16384) {messages : List WsMessage} (hopen : .close ∉ messages)
    (hbytes : binaryBytes (messages.map .ok) = line ++ 10 :: rest) (ended : IoError) :
    ∃ result, (takeWssSessionHello fromSlice (messages.map .ok)).task = .returned result
      ∧ readWssSessionHello fromSlice [] (messages.map .ok) = result
      ∧ result.map Prod.fst
        = (readJsonLine fromSlice ⟨line ++ 10 :: rest, ended⟩).map Prod.fst
      ∧ ∀ hello remaining, result = .ok (hello, remaining) →
        remaining ++ binaryBytes (takeWssSessionHello fromSlice (messages.map .ok)).unread
          = rest := by
  obtain ⟨taken, remaining, unread, hrun, hrest⟩ := run_wssHelloStep fromSlice hline hlen hopen
    List.not_mem_nil hbytes []
  refine ⟨_, congrArg Reader.task hrun, ?_, ?_, ?_⟩
  · rw [readWssSessionHello_eq fromSlice [], hrun, close]
  · rw [readJsonLine_line fromSlice hline hlen]
    cases parseLine fromSlice line <;> rfl
  · intro hello remaining' hresult
    cases hparse : parseLine fromSlice line with
    | error error =>
      rw [hparse] at hresult
      cases hresult
    | ok value =>
      rw [hparse] at hresult
      cases hresult
      rw [takeWssSessionHello, hrun, hrest]

end Step

/-- A hello in two messages, the second one with the start of the payload in it. -/
def sampleMessages : List WsMessage :=
  [.ping, .binary (forwardedBytes.take 20), .text "a", .binary (forwardedBytes.drop 20), .pong,
    .binary [4, 5]]

theorem wss_hello_as_on_stream_sample :
    ∃ result,
      (takeWssSessionHello (fromText sampleSessionHello) (sampleMessages.map .ok)).task
        = .returned result
      ∧ readWssSessionHello (fromText sampleSessionHello) [] (sampleMessages.map .ok) = result
      ∧ result.map Prod.fst
        = (readJsonLine (fromText sampleSessionHello)
          ⟨toVec sampleSessionHello ++ 10 :: [1, 2, 3, 4, 5], .earlyEof⟩).map Prod.fst
      ∧ ∀ hello remaining, result = .ok (hello, remaining) →
        remaining ++ binaryBytes
          (takeWssSessionHello (fromText sampleSessionHello) (sampleMessages.map .ok)).unread
            = [1, 2, 3, 4, 5] :=
  wss_hello_as_on_stream (fromText sampleSessionHello) (newline_notMem_toVec sampleSessionHello)
    (by decide +kernel) (by decide +kernel) (by decide +kernel) .earlyEof

end MediumOverlay
