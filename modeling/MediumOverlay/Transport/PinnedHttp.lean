import MediumOverlay.Transport.HttpHeader
import MediumOverlay.Transport.Pins

/-!
# Requests to the control plane

A client asks the control plane over a TLS connection to a peer with the pinned certificate.
It reads until the connection ends, and takes an end without a TLS alert for an end like any
other.  The body of the response is what is behind the header.  Nothing compares it with the
length in the header, so that a response whose connection ends too early passes for the whole
as soon as its header has arrived (`truncated_rejected_iff`).
-/

namespace MediumOverlay.PinnedHttp

open Fallible Http

/-! ## Requests -/

inductive Method where
  | get
  | post
deriving DecidableEq, Repr

def Method.asStr : Method → String
  | .get => "GET"
  | .post => "POST"

/-- What is read of a `Url`. -/
structure Url where
  scheme : String
  hostStr : Option String
  port : Option Nat
  path : String
  query : Option String
  asStr : String
deriving DecidableEq, Repr

/-- `port_or_known_default`. -/
def Url.portOrKnownDefault (url : Url) : Option Nat :=
  url.port.or
    (if url.scheme = "http" ∨ url.scheme = "ws" then some 80
    else if url.scheme = "https" ∨ url.scheme = "wss" then some 443
    else if url.scheme = "ftp" then some 21
    else none)

/-- `host_header`. -/
def hostHeader (url : Url) : Except AnyhowError String := do
  let host ← context url.hostStr (.message "control URL must include a host")
  let host := if ':' ∈ host.toList then "[" ++ host ++ "]" else host
  match url.port with
  | some port => return host ++ ":" ++ toString port
  | none => return host

/-- The header of a request. -/
def requestHeader (method : Method) (url : Url) (host : String) (body : Bytes) : String :=
  let path :=
    match url.query with
    | some query => url.path ++ "?" ++ query
    | none => url.path
  let contentHeaders :=
    if body.isEmpty then ""
    else "content-type: application/json\r\ncontent-length: " ++ toString body.length ++ "\r\n"
  method.asStr ++ " " ++ path ++ " HTTP/1.1\r\nhost: " ++ host
    ++ "\r\naccept: application/json\r\n" ++ contentHeaders ++ "connection: close\r\n\r\n"

/-- A call of `request`: its arguments, and what it finds on its way to the peer. -/
structure Call where
  method : Method
  url : String
  controlPin : String
  body : Option Bytes
  sha256 : Sha256
  parseUrl : String → Option Url
  isServerName : String → Bool
  connect : String → Except IoError Unit
  /-- The certificate of the peer. -/
  endEntity : Bytes
  /-- The handshake behind the check of the certificate. -/
  handshake : Except String Unit
  writeAll : Bytes → Except IoError Unit
  flush : Except IoError Unit

namespace Call

/-- The TLS handshake. -/
def tlsConnect (x : Call) (verifier : PinnedCertVerifier) : Except String Unit := do
  (verifier.verifyServerCert .transport x.sha256 x.endEntity).mapError ("unexpected error: " ++ ·)
  x.handshake

/-- `request` up to the response. -/
def send (x : Call) : Except AnyhowError Unit := do
  let url ← context (x.parseUrl x.url) (.message ("invalid control URL " ++ x.url))
  bailUnless (url.scheme = "https") (.message "pinned-tls control URL must use https")
  let host ← context url.hostStr (.message "control URL must include a host")
  let port ← context url.portOrKnownDefault (.message "control URL must include a port")
  let addr := host ++ ":" ++ toString port
  bailUnless (x.isServerName host = true) (.message ("invalid TLS server name " ++ host))
  let verifier ← pinnedTlsClientConfig .transport x.controlPin
  (x.connect addr).mapError fun _ =>
    .message ("failed to connect to control endpoint " ++ addr)
  (x.tlsConnect verifier).mapError fun error =>
    .message ("control TLS handshake failed for " ++ url.asStr ++ ": " ++ error)
  let body := x.body.getD []
  let host ← hostHeader url
  (x.writeAll (Utf8.encode (requestHeader x.method url host body).toList)).mapError .io
  if body.isEmpty then pure ()
  else (x.writeAll body).mapError .io
  x.flush.mapError .io

end Call

/-! ## Responses -/

/-- `is_success_status`. -/
def isSuccessStatus (status : String) : Bool :=
  match (Str.splitWhitespace status)[1]? with
  | none => false
  | some code => code.toList.head? = some '2'

/-- `parse_http_response`. -/
def parseHttpResponse (raw : Bytes) : Except AnyhowError Bytes := do
  let headerEnd ← context (headerEnd raw) (.message "control response is missing HTTP headers")
  let headers ← context (String.fromUTF8? ⟨(raw.take headerEnd).toArray⟩)
    (.message "control response headers are not UTF-8")
  let status ← context (Str.lines headers).head?
    (.message "control response is missing HTTP status")
  bailUnless (isSuccessStatus status = true) (.message ("control request failed: " ++ status))
  return raw.drop (headerEnd + 4)

/-- `read_to_end`, where an end of file that was not expected is an end. -/
def readToEnd : Except IoError Unit → Except AnyhowError Unit
  | .ok () => .ok ()
  | .error error => if error.kind = .unexpectedEof then .ok () else .error (.io error)

/-- `request`, with the bytes that arrive until the connection ends. -/
def Call.request (x : Call) (received : Bytes) (ended : Except IoError Unit) :
    Except AnyhowError Bytes := do
  x.send
  readToEnd ended
  parseHttpResponse received

/-! ## Parts of a response -/

/-- The bytes are text. -/
def IsText (bytes : Bytes) : Prop := (String.fromUTF8? ⟨bytes.toArray⟩).isSome = true

theorem parseHttpResponse_eq_ok_iff {raw body : Bytes} :
    parseHttpResponse raw = .ok body
      ↔ ∃ k headers status, headerEnd raw = some k ∧ Utf8.encode headers.toList = raw.take k
        ∧ (Str.lines headers).head? = some status ∧ isSuccessStatus status = true
        ∧ raw.drop (k + 4) = body := by
  simp only [parseHttpResponse, bind_eq_ok_iff, context_eq_ok_iff, bailUnless_eq_ok_iff,
    Utf8.fromUTF8?_eq_some_iff]
  constructor
  · rintro ⟨k, hk, headers, hheaders, status, hstatus, -, hsuccess, hbody⟩
    exact ⟨k, headers, status, hk, hheaders, hstatus, hsuccess, Except.ok.inj hbody⟩
  · rintro ⟨k, headers, status, hk, hheaders, hstatus, hsuccess, rfl⟩
    exact ⟨k, hk, headers, hheaders, status, hstatus, (), hsuccess, rfl⟩

section Response

variable {r : Http.Response}

theorem headerEnd_response : headerEnd r.bytes = some r.text.length := by
  rw [r.bytes_eq]
  exact headerEnd_intercalate (by simp [Response.lines]) r.isLine r.body

/-- The status of a header that is text. -/
theorem status_of_text (hsuccess : r.IsSuccess) {headers : String}
    (h : Utf8.encode headers.toList = r.text) :
    ∃ status, (Str.lines headers).head? = some status ∧ isSuccessStatus status = true := by
  obtain ⟨texts, htexts, hlines⟩ := lines_of_encode (by simp [Response.lines]) r.isLine h
  rw [String.ofList_toList] at hlines
  obtain ⟨status, texts, rfl, hstatus, -⟩ := List.map_eq_cons_iff.mp htexts
  refine ⟨.ofList status, by rw [hlines]; rfl, ?_⟩
  have hcode : (Utf8.ascii r.code).head? = some '2' := by
    rw [Utf8.ascii, List.head?_map, show r.code.head? = some 50 from hsuccess]
    rfl
  rw [isSuccessStatus, r.splitWhitespace_statusLine hstatus]
  simpa using hcode

/-- A part of a response is parsed exactly if it has all of the header and that is text.
Whatever it has of the body is the result. -/
theorem parseHttpResponse_part (hsuccess : r.IsSuccess) {received rest : Bytes}
    (h : received ++ rest = r.bytes) {body : Bytes} :
    parseHttpResponse received = .ok body
      ↔ r.header.length ≤ received.length ∧ IsText r.text
        ∧ received.drop r.header.length = body := by
  have hend := headerEnd_response (r := r)
  rw [← h] at hend
  have hpart := headerEnd_append hend
  rw [parseHttpResponse_eq_ok_iff, hpart, r.length_header]
  -- the end of the header is found exactly if the part reaches over it
  by_cases hlong : r.text.length + 4 ≤ received.length
  · have htake : received.take r.text.length = r.text := by
      have hbytes := congrArg (List.take r.text.length) h
      rw [r.bytes_eq, List.take_left, List.take_append_of_le_length (by omega)] at hbytes
      exact hbytes
    rw [if_pos hlong]
    constructor
    · rintro ⟨k, headers, status, hk, hheaders, -, -, rfl⟩
      cases hk
      rw [htake] at hheaders
      refine ⟨hlong, ?_, rfl⟩
      rw [IsText, Utf8.fromUTF8?_eq_some_iff.mpr hheaders]
      rfl
    · rintro ⟨-, htext, rfl⟩
      obtain ⟨headers, hheaders⟩ := Option.isSome_iff_exists.mp htext
      have hencode := Utf8.fromUTF8?_eq_some_iff.mp hheaders
      obtain ⟨status, hstatus, hok⟩ := status_of_text hsuccess hencode
      exact ⟨_, headers, status, rfl, by rw [htake, hencode], hstatus, hok, rfl⟩
  · rw [if_neg hlong]
    constructor
    · rintro ⟨k, headers, status, hk, -⟩
      cases hk
    · rintro ⟨hle, -⟩
      exact absurd hle hlong

end Response

/-- The connection ends, with or without a TLS alert. -/
def Ends (ended : Except IoError Unit) : Prop :=
  ended = .ok () ∨ ∃ error, ended = .error error ∧ error.kind = .unexpectedEof

theorem Call.request_eq {x : Call} (hsent : x.send = .ok ()) {ended : Except IoError Unit}
    (hended : Ends ended) (received : Bytes) :
    x.request received ended = parseHttpResponse received := by
  have hread : readToEnd ended = .ok () := by
    obtain rfl | ⟨error, rfl, hkind⟩ := hended
    · rfl
    · rw [readToEnd, if_pos hkind]
  rw [request, hsent, hread]
  rfl

/-- **Truncated responses.**  A response with a status of success is rejected when it is cut
short, and its body is the result when it is not, exactly if its header is text and its body
is empty.  A body that is cut short is the result all the same. -/
theorem truncated_rejected_iff {x : Call} (hsent : x.send = .ok ()) {r : Http.Response}
    (hsuccess : r.IsSuccess) :
    ((∀ received ended, Ends ended → received <+: r.bytes → received ≠ r.bytes →
          ∃ error, x.request received ended = .error error)
        ∧ ∀ ended, Ends ended → x.request r.bytes ended = .ok r.body)
      ↔ IsText r.text ∧ r.body = [] := by
  have hclean : Ends (.ok ()) := .inl rfl
  constructor
  · rintro ⟨hrejected, hwhole⟩
    have hparsed := hwhole (.ok ()) hclean
    rw [x.request_eq hsent hclean, parseHttpResponse_part hsuccess (List.append_nil _)] at hparsed
    refine ⟨hparsed.2.1, by_contra fun hbody => ?_⟩
    -- the header alone is accepted
    have hheader : r.header ≠ r.bytes := by
      intro heq
      exact hbody (List.self_eq_append_right.mp heq)
    obtain ⟨error, herror⟩ := hrejected r.header (.ok ()) hclean (List.prefix_append _ _) hheader
    have haccepted : parseHttpResponse r.header = .ok [] :=
      (parseHttpResponse_part hsuccess rfl).mpr ⟨le_rfl, hparsed.2.1, List.drop_length⟩
    rw [x.request_eq hsent hclean, haccepted] at herror
    cases herror
  · rintro ⟨htext, hbody⟩
    have hbytes : r.bytes = r.header := by rw [Response.bytes, hbody, List.append_nil]
    refine ⟨fun received ended hended hprefix hne => ?_, fun ended hended => ?_⟩
    · rw [x.request_eq hsent hended]
      obtain ⟨rest, hrest⟩ := hprefix
      cases hparsed : parseHttpResponse received with
      | error error => exact ⟨error, rfl⟩
      | ok body =>
        -- a part with all of the header is the whole response
        have hlong := ((parseHttpResponse_part hsuccess hrest).mp hparsed).1
        rw [← hbytes] at hlong
        exact absurd (List.IsPrefix.eq_of_length_le ⟨rest, hrest⟩ hlong) hne
    · rw [x.request_eq hsent hended]
      refine (parseHttpResponse_part hsuccess (List.append_nil _)).mpr ⟨?_, htext, ?_⟩
      · rw [hbytes]
      · rw [hbytes, hbody, List.drop_length]

/-! ### A body that is cut short -/

def sampleLength : Field where
  name := "content-length"
  value := [32, 50]
  name_ne := by decide
  name_token := List.all_eq_true.mp (by decide)
  value_line := by simp

/-- A response with two bytes in its body. -/
def sampleResponse : Http.Response where
  version := (49, 49)
  code := [50, 48, 48]
  reason := [79, 75]
  fields := [sampleLength]
  body := [123, 125]
  version_digits := by decide
  code_digits := by simp [isDigit]
  reason_line := by simp
  framed := by
    refine ⟨⟨sampleLength, by simp, by decide⟩, ?_, ?_, rfl⟩
    · intro f hf _
      obtain rfl := List.mem_singleton.mp hf
      exact ⟨[32], [50], [], rfl, by simp [isOws], by simp, by simp [isDigit], by decide⟩
    · intro f hf
      obtain rfl := List.mem_singleton.mp hf
      decide

def zeroSha256 : Sha256 where
  digest _ := List.replicate 32 0
  length_digest _ := List.length_replicate

def sampleUrl : Url :=
  ⟨"https", some "control.example", none, "/api/devices", none,
    "https://control.example/api/devices"⟩

/-- A request to a peer with the pinned certificate. -/
def sampleCall : Call where
  method := .get
  url := sampleUrl.asStr
  controlPin := sha256Pin zeroSha256 [1]
  body := none
  sha256 := zeroSha256
  parseUrl _ := some sampleUrl
  isServerName _ := true
  connect _ := .ok ()
  endEntity := [1]
  handshake := .ok ()
  writeAll _ := .ok ()
  flush := .ok ()

theorem sampleCall_send : sampleCall.send = .ok () := by decide +kernel

theorem truncated_rejected_iff_sample :
    sampleCall.send = .ok () ∧ sampleResponse.IsSuccess
      ∧ (((∀ received ended, Ends ended → received <+: sampleResponse.bytes →
              received ≠ sampleResponse.bytes →
              ∃ error, sampleCall.request received ended = .error error)
            ∧ ∀ ended, Ends ended →
              sampleCall.request sampleResponse.bytes ended = .ok sampleResponse.body)
          ↔ IsText sampleResponse.text ∧ sampleResponse.body = []) :=
  ⟨sampleCall_send, rfl, truncated_rejected_iff sampleCall_send rfl⟩

/-- The first byte of the body is taken for all of it. -/
theorem truncated_body_accepted :
    sampleResponse.bytes.dropLast <+: sampleResponse.bytes
      ∧ sampleCall.request sampleResponse.bytes.dropLast (.ok ()) = .ok [123]
      ∧ sampleCall.request sampleResponse.bytes.dropLast
        (.error ⟨.unexpectedEof, "peer closed connection without sending TLS close_notify"⟩)
          = .ok [123] := by
  decide +kernel

end MediumOverlay.PinnedHttp
