import MediumOverlay.Transport.Packet

/-!
# The first message of a connection

A connection to the relay or to the node starts with a JSON value: on a byte
stream it is the first line, on a WebSocket a message.  `Inbound` is what a byte
stream delivers and the error its reader gets in the end.
-/

namespace MediumOverlay

/-- `SessionHello`. -/
structure SessionHello where
  token : String
  serviceId : String
  transport : Option String
deriving DecidableEq, Repr

/-- `RelayHello`. -/
inductive RelayHello where
  | node (nodeId sharedSecret : String)
  | client (nodeId : String)
deriving DecidableEq, Repr

/-! ## Lines -/

/-- The bytes that arrive on a stream, and how it ends. -/
structure Inbound where
  bytes : Bytes
  ended : IoError
deriving DecidableEq, Repr

/-- `read_u8` at the end of a stream. -/
def IoError.earlyEof : IoError := ⟨.unexpectedEof, "early eof"⟩

def MAX_HELLO_LEN : Nat := 16 * 1024

/-- The loop of `read_json_line` with the line so far: the line and the bytes
behind it. -/
def readLine (ended : IoError) : Bytes → Bytes → Except AnyhowError (Bytes × Bytes)
  | _, [] => .error (.io ended)
  | line, byte :: rest =>
    if byte = 10 then .ok (line, rest)
    else if MAX_HELLO_LEN < (line ++ [byte]).length then
      .error (.message "session hello too large")
    else readLine ended (line ++ [byte]) rest

/-- `read_json_line`: the value, and the bytes that are left on the stream. -/
def readJsonLine {α : Type} (fromSlice : Bytes → Except String α) (inbound : Inbound) :
    Except AnyhowError (α × Bytes) :=
  match readLine inbound.ended [] inbound.bytes with
  | .error error => .error error
  | .ok (line, rest) =>
    if line.isEmpty then .error (.message "missing session hello")
    else
      match fromSlice line with
      | .error error => .error (.json error)
      | .ok value => .ok (value, rest)

/-! ## WebSocket messages -/

/-- A message of a WebSocket. -/
inductive WsMessage where
  | text (payload : String)
  | binary (payload : Bytes)
  | ping
  | pong
  | close
deriving DecidableEq, Repr

/-- `read_wss_relay_hello` on the messages that arrive. -/
def readWssRelayHello (fromStr : String → Except String RelayHello) :
    List (Except AnyhowError WsMessage) → Except AnyhowError RelayHello
  | [] => .error (.message "missing relay hello")
  | .error error :: _ => .error error
  | .ok (.text payload) :: _ =>
    match fromStr payload with
    | .error error => .error (.json error)
    | .ok hello => .ok hello
  | .ok .close :: _ => .error (.message "websocket closed before relay hello")
  | .ok (.binary _) :: messages | .ok .ping :: messages | .ok .pong :: messages =>
    readWssRelayHello fromStr messages

end MediumOverlay
