import MediumOverlay.Lib.Json
import MediumOverlay.Lib.Reading
import MediumOverlay.Transport.Hello

/-!
# Hellos as lines

A hello is written as a line of JSON.  Its reader takes the line byte by byte, and what is
behind the line is left to the next reader of the stream: another hello, or the payload.
`lineStep` is the loop of `read_json_line` as a reader of a stream that arrives in pieces.
-/

namespace MediumOverlay

open Reading

/-! ## Writing -/

/-- A value that is written as a JSON object. -/
class Serialize (α : Type) where
  members : α → List (String × String)

instance : Serialize RelayHello where
  members
    | .node nodeId sharedSecret =>
      [("role", "node"), ("node_id", nodeId), ("shared_secret", sharedSecret)]
    | .client nodeId => [("role", "client"), ("node_id", nodeId)]

instance : Serialize SessionHello where
  members hello :=
    [("token", hello.token), ("service_id", hello.serviceId)]
      ++ hello.transport.toList.map ("transport", ·)

section Write

variable {α : Type} [Serialize α]

/-- `serde_json::to_vec`. -/
def toVec (value : α) : Bytes := Utf8.encode (Json.object (Serialize.members value))

/-- The bytes that `write_json_line` writes. -/
def writeJsonLine (value : α) : Bytes := toVec value ++ [10]

theorem newline_notMem_toVec (value : α) : 10 ∉ toVec value := by
  intro hmem
  exact Json.newline_notMem_object _ (Utf8.mem_of_mem_encode (by decide) hmem)

theorem isEmpty_toVec (value : α) : (toVec value).isEmpty = false := by
  rw [List.isEmpty_eq_false_iff]
  intro hnil
  exact List.cons_ne_nil _ _ (Utf8.eq_nil_of_encode hnil)

end Write

/-! ## Reading -/

section Read

variable {α : Type} (fromSlice : Bytes → Except String α)

/-- What `read_json_line` makes of a line. -/
def parseLine (line : Bytes) : Except AnyhowError α :=
  if line.isEmpty then .error (.message "missing session hello")
  else
    match fromSlice line with
    | .error error => .error (.json error)
    | .ok value => .ok value

/-- A byte in the loop of `read_json_line`, with the line so far. -/
def lineStep (line : Bytes) (byte : UInt8) : Task Bytes (Except AnyhowError α) :=
  if byte = 10 then .returned (parseLine fromSlice line)
  else if MAX_HELLO_LEN < (line ++ [byte]).length then
    .returned (.error (.message "session hello too large"))
  else .running (line ++ [byte])

/-- `read_json_line` on a stream that arrives in pieces. -/
def readPieces (pieces : List Bytes) : Reader UInt8 Bytes (Except AnyhowError α) :=
  pieces.foldl (receive (lineStep fromSlice)) ⟨.running [], [], []⟩

theorem readPieces_eq (pieces : List Bytes) :
    readPieces fromSlice pieces = run (lineStep fromSlice) [] (.running []) pieces.flatten :=
  foldl_receive [] (.running []) [] pieces

/-- The loop takes a line that is short enough, and no more. -/
theorem run_line {line : Bytes} (hline : 10 ∉ line) (consumed before rest : Bytes)
    (hlen : before.length + line.length ≤ MAX_HELLO_LEN) :
    run (lineStep fromSlice) consumed (.running before) (line ++ 10 :: rest)
      = ⟨.returned (parseLine fromSlice (before ++ line)), consumed ++ line ++ [10], rest⟩ := by
  induction line generalizing before consumed with
  | nil => rw [List.nil_append, run_running, lineStep, if_pos rfl, run_returned, List.append_nil,
      List.append_nil]
  | cons byte line ih =>
    obtain ⟨hbyte, hline⟩ := List.ne_and_not_mem_of_not_mem_cons hline
    rw [List.length_cons] at hlen
    have hshort : ¬ MAX_HELLO_LEN < (before ++ [byte]).length := by
      rw [List.length_append, List.length_singleton]
      omega
    rw [List.cons_append, run_running, lineStep, if_neg hbyte.symm, if_neg hshort, ih hline]
    · simp only [List.append_assoc, List.singleton_append]
    · rw [List.length_append, List.length_singleton]
      omega

/-- The line so far is all that was taken, and within the limit. -/
def WithinLimit (consumed : Bytes) : Task Bytes (Except AnyhowError α) → Prop
  | .running line => line.length = consumed.length ∧ consumed.length ≤ MAX_HELLO_LEN
  | .returned _ => consumed.length ≤ MAX_HELLO_LEN + 1

theorem withinLimit_lineStep {consumed line : Bytes} (byte : UInt8)
    (h : WithinLimit (α := α) consumed (.running line)) :
    WithinLimit (consumed ++ [byte]) (lineStep fromSlice line byte) := by
  obtain ⟨hlength, hle⟩ := h
  have htaken : (consumed ++ [byte]).length = consumed.length + 1 := List.length_append
  unfold lineStep
  split
  next => exact htaken.trans_le (Nat.succ_le_succ hle)
  next =>
    split
    next => exact htaken.trans_le (Nat.succ_le_succ hle)
    next hshort =>
      rw [List.length_append, List.length_singleton] at hshort
      refine ⟨?_, by omega⟩
      rw [htaken, List.length_append, List.length_singleton, hlength]

theorem WithinLimit.length_le {consumed : Bytes} {task : Task Bytes (Except AnyhowError α)}
    (h : WithinLimit consumed task) : consumed.length ≤ MAX_HELLO_LEN + 1 := by
  cases task with
  | running line => exact h.2.trans (Nat.le_succ _)
  | returned result => exact h

theorem withinLimit_run (bytes : Bytes) :
    WithinLimit (run (lineStep fromSlice) [] (.running []) bytes).consumed
      (run (lineStep fromSlice) [] (.running []) bytes).task := by
  have hinit : WithinLimit (α := α) [] (.running []) := ⟨rfl, Nat.zero_le _⟩
  exact run_invariant (fun _ _ byte h => withinLimit_lineStep fromSlice byte h) hinit bytes

/-- The reader returns within the limit. -/
theorem exists_returned {bytes : Bytes} (hlong : MAX_HELLO_LEN < bytes.length) :
    ∃ result, (run (lineStep fromSlice) [] (.running []) bytes).task
      = .returned result := by
  have hlimit := withinLimit_run fromSlice bytes
  cases htask : (run (lineStep fromSlice) [] (.running []) bytes).task with
  | returned result => exact ⟨result, rfl⟩
  | running line =>
    -- a reader that waits has taken all the bytes
    have hall : (run (lineStep fromSlice) [] (.running []) bytes).consumed
        ++ (run (lineStep fromSlice) [] (.running []) bytes).unread = bytes :=
      consumed_append_unread [] (.running []) bytes
    rw [unread_of_running htask, List.append_nil] at hall
    rw [htask, hall] at hlimit
    exact absurd hlimit.2 (Nat.not_le.mpr hlong)

/-- The loop on all the bytes of a stream and on a stream that goes on. -/
theorem readLine_bind_parseLine (ended : IoError) (consumed line bytes : Bytes) :
    ((readLine ended line bytes).bind fun read =>
        (parseLine fromSlice read.1).map fun value => (value, read.2))
      = (close (.error (.io ended))
          (run (lineStep fromSlice) consumed (.running line) bytes)).map fun value =>
        (value, (run (lineStep fromSlice) consumed (.running line) bytes).unread) := by
  induction bytes generalizing consumed line with
  | nil => rfl
  | cons byte bytes ih =>
    rw [readLine, run_running, lineStep]
    split
    next => rw [run_returned]; rfl
    next =>
      split
      next => rw [run_returned]; rfl
      next => exact ih _ _

theorem readJsonLine_eq (inbound : Inbound) :
    readJsonLine fromSlice inbound
      = (close (.error (.io inbound.ended))
          (run (lineStep fromSlice) [] (.running []) inbound.bytes)).map fun value =>
        (value, (run (lineStep fromSlice) [] (.running []) inbound.bytes).unread) := by
  rw [← readLine_bind_parseLine, readJsonLine]
  cases readLine inbound.ended [] inbound.bytes with
  | error error => rfl
  | ok read =>
    simp only [Except.bind, parseLine]
    split
    next => rfl
    next => cases fromSlice read.1 <;> rfl

/-- A line that is short enough is read, and what is behind it is left. -/
theorem readJsonLine_line {line : Bytes} (hline : 10 ∉ line)
    (hlen : line.length ≤ MAX_HELLO_LEN) (rest : Bytes) (ended : IoError) :
    readJsonLine fromSlice ⟨line ++ 10 :: rest, ended⟩
      = (parseLine fromSlice line).map fun value => (value, rest) := by
  have hread := run_line fromSlice hline [] [] rest (by simpa using hlen)
  rw [readJsonLine_eq, hread]
  rfl

/-- **Hellos on a stream.**  A value that is written as a line is read back from a stream that
starts with it, in whatever pieces it arrives, and the reader leaves what is behind the line.
On any stream it takes at most 16385 bytes until it returns. -/
theorem json_line_framing [Serialize α] :
    (∀ (value : α) (rest : Bytes) (pieces : List Bytes),
        fromSlice (toVec value) = .ok value → (toVec value).length ≤ 16384 →
        pieces.flatten = writeJsonLine value ++ rest →
        readPieces fromSlice pieces = ⟨.returned (.ok value), writeJsonLine value, rest⟩)
      ∧ ∀ pieces : List Bytes,
        (readPieces fromSlice pieces).consumed ++ (readPieces fromSlice pieces).unread
            = pieces.flatten
          ∧ (readPieces fromSlice pieces).consumed.length ≤ 16385
          ∧ (16385 ≤ pieces.flatten.length →
            ∃ result, (readPieces fromSlice pieces).task = .returned result)
          ∧ ∀ ended, readJsonLine fromSlice ⟨pieces.flatten, ended⟩
            = (close (.error (.io ended)) (readPieces fromSlice pieces)).map fun value =>
              (value, (readPieces fromSlice pieces).unread) := by
  refine ⟨fun value rest pieces hok hlen hpieces => ?_, fun pieces => ?_⟩
  · have hparse : parseLine fromSlice (toVec value) = .ok value := by
      simp only [parseLine, isEmpty_toVec, hok, Bool.false_eq_true, if_false]
    have hread := run_line fromSlice (newline_notMem_toVec value) [] [] rest
      (by simpa [MAX_HELLO_LEN] using hlen)
    rw [readPieces_eq, hpieces, writeJsonLine, List.append_assoc, List.singleton_append, hread,
      List.nil_append, hparse]
  · rw [readPieces_eq]
    have hlimit := withinLimit_run fromSlice pieces.flatten
    refine ⟨consumed_append_unread _ _ _, hlimit.length_le, exists_returned fromSlice, ?_⟩
    exact fun ended => readJsonLine_eq fromSlice ⟨pieces.flatten, ended⟩

end Read

/-! ### A relay hello, a session hello and payload -/

/-- `serde_json::from_slice` on the text of one value. -/
def fromText {α : Type} [Serialize α] (value : α) (bytes : Bytes) : Except String α :=
  if bytes = toVec value then .ok value else .error "expected value at line 1 column 1"

def sampleRelayHello : RelayHello := .client "node_1"

def sampleSessionHello : SessionHello := ⟨"a", "svc_web", some "tls"⟩

/-- What the node reads. -/
def forwardedBytes : Bytes := writeJsonLine sampleSessionHello ++ [1, 2, 3]

/-- What the relay reads. -/
def clientBytes : Bytes := writeJsonLine sampleRelayHello ++ forwardedBytes

/-- The relay leaves the hello of the session, and the node leaves the payload. -/
theorem json_line_framing_relay :
    readPieces (fromText sampleRelayHello) [clientBytes.take 20, clientBytes.drop 20]
        = ⟨.returned (.ok sampleRelayHello), writeJsonLine sampleRelayHello, forwardedBytes⟩
      ∧ readPieces (fromText sampleSessionHello) [forwardedBytes]
        = ⟨.returned (.ok sampleSessionHello), writeJsonLine sampleSessionHello, [1, 2, 3]⟩ := by
  constructor
  · exact (json_line_framing (fromText sampleRelayHello)).1 sampleRelayHello forwardedBytes _
      (if_pos rfl) (by decide +kernel) (by simp [clientBytes])
  · exact (json_line_framing (fromText sampleSessionHello)).1 sampleSessionHello [1, 2, 3] _
      (if_pos rfl) (by decide +kernel) (by simp [forwardedBytes])

end MediumOverlay
