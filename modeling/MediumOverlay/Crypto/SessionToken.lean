import MediumOverlay.Lib.Base64
import MediumOverlay.Lib.Str
import MediumOverlay.Transport.Packet

/-!
# Session tokens

A session token is what the control plane gives a client and what the node and
the relay check: the claims as JSON and their HMAC under the shared secret, both
in base64.  A token is valid for ten minutes, and five more for clocks that
differ.

The primitives are parameters.  `TokenCodec.ExactOn` says of them what a token
needs to be read back.  Where base64 is canonical, a payload has one token, and a text
is accepted exactly if it is the token of a payload that can be read and has not
expired (`verifySessionToken_eq_ok_iff`).
-/

namespace MediumOverlay

/-- `SessionTokenClaims`.  Times are nanoseconds since the epoch. -/
structure SessionTokenClaims where
  sessionId : String
  serviceId : String
  nodeId : String
  expiresAt : Int
deriving DecidableEq, Repr

/-- `Duration::minutes`. -/
def minutes (n : Int) : Int := n * 60000000000

def SESSION_TOKEN_TTL_MINUTES : Int := 10
def SESSION_TOKEN_CLOCK_SKEW_MINUTES : Int := 5

/-- What the code takes from `hmac`, `base64` (URL_SAFE_NO_PAD), `serde_json` and
`chrono`. -/
structure TokenCodec where
  /-- `sign_payload`: the HMAC of a payload under a secret. -/
  signPayload : String → Bytes → Bytes
  encode : Bytes → String
  decode : String → Except String Bytes
  toVec : SessionTokenClaims → Bytes
  fromSlice : Bytes → Except String SessionTokenClaims
  /-- `Display` of a `DateTime`. -/
  display : Int → String

/-- `issue_session_token` at time `now`. -/
def issueSessionToken (codec : TokenCodec) (sharedSecret sessionId serviceId nodeId : String)
    (now : Int) : String :=
  let claims := ⟨sessionId, serviceId, nodeId, now + minutes SESSION_TOKEN_TTL_MINUTES⟩
  let payload := codec.toVec claims
  let signature := codec.signPayload sharedSecret payload
  codec.encode payload ++ .singleton '.' ++ codec.encode signature

/-- `verify_session_token` at time `now`. -/
def verifySessionToken (codec : TokenCodec) (sharedSecret token : String) (now : Int) :
    Except AnyhowError SessionTokenClaims :=
  match Str.splitOnce '.' token with
  | none => .error (.message "invalid session token format")
  | some (payloadB64, signatureB64) =>
    match codec.decode payloadB64 with
    | .error error => .error (.message ("invalid session token payload: " ++ error))
    | .ok payload =>
      match codec.decode signatureB64 with
      | .error error =>
        .error (.message ("invalid session token signature encoding: " ++ error))
      | .ok signature =>
        if signature ≠ codec.signPayload sharedSecret payload then
          .error (.message "invalid session token signature")
        else
          match codec.fromSlice payload with
          | .error error => .error (.json error)
          | .ok claims =>
            if claims.expiresAt + minutes SESSION_TOKEN_CLOCK_SKEW_MINUTES < now then
              .error (.message ("session token expired expires_at="
                ++ codec.display claims.expiresAt ++ " now=" ++ codec.display now
                ++ " leeway_minutes=" ++ toString SESSION_TOKEN_CLOCK_SKEW_MINUTES))
            else .ok claims

/-- The claims can be read back from their token: base64 and JSON are exact on
them, and base64 does not use the separator. -/
structure TokenCodec.ExactOn (codec : TokenCodec) (sharedSecret : String)
    (claims : SessionTokenClaims) : Prop where
  payload : codec.decode (codec.encode (codec.toVec claims)) = .ok (codec.toVec claims)
  separator : '.' ∉ (codec.encode (codec.toVec claims)).toList
  signature : codec.decode (codec.encode (codec.signPayload sharedSecret (codec.toVec claims)))
    = .ok (codec.signPayload sharedSecret (codec.toVec claims))
  claims : codec.fromSlice (codec.toVec claims) = .ok claims

/-- A token is accepted until fifteen minutes after it was issued. -/
theorem verifySessionToken_issue {codec : TokenCodec}
    {sharedSecret sessionId serviceId nodeId : String} {issued now : Int}
    (exact : codec.ExactOn sharedSecret
      ⟨sessionId, serviceId, nodeId, issued + minutes SESSION_TOKEN_TTL_MINUTES⟩)
    (hnow : now ≤ issued + minutes 15) :
    verifySessionToken codec sharedSecret
        (issueSessionToken codec sharedSecret sessionId serviceId nodeId issued) now =
      .ok ⟨sessionId, serviceId, nodeId, issued + minutes SESSION_TOKEN_TTL_MINUTES⟩ := by
  have hlive : ¬ issued + minutes SESSION_TOKEN_TTL_MINUTES
      + minutes SESSION_TOKEN_CLOCK_SKEW_MINUTES < now := by
    simp only [minutes, SESSION_TOKEN_TTL_MINUTES, SESSION_TOKEN_CLOCK_SKEW_MINUTES] at hnow ⊢
    omega
  simp only [verifySessionToken, issueSessionToken, Str.splitOnce_append exact.separator,
    exact.payload, exact.signature, exact.claims, ne_eq, not_true_eq_false, if_false, if_neg hlive]

/-! ## Canonical tokens -/

/-- Only what `encode` writes can be decoded, and that has no separator in it. -/
structure TokenCodec.Canonical (codec : TokenCodec) : Prop where
  decode_eq_ok_iff : ∀ {text bytes}, codec.decode text = .ok bytes ↔ text = codec.encode bytes
  separator : ∀ bytes, '.' ∉ (codec.encode bytes).toList

/-- The token of a payload. -/
def signedToken (codec : TokenCodec) (sharedSecret : String) (payload : Bytes) : String :=
  codec.encode payload ++ .singleton '.' ++ codec.encode (codec.signPayload sharedSecret payload)

section

variable {codec : TokenCodec} (canonical : codec.Canonical) {sharedSecret : String}

include canonical

variable {claims : SessionTokenClaims}

/-- `verify_session_token` on the token of a payload. -/
theorem verifySessionToken_signedToken (payload : Bytes) (now : Int) :
    verifySessionToken codec sharedSecret (signedToken codec sharedSecret payload) now = .ok claims
      ↔ codec.fromSlice payload = .ok claims
        ∧ now ≤ claims.expiresAt + minutes SESSION_TOKEN_CLOCK_SKEW_MINUTES := by
  have hpayload : codec.decode (codec.encode payload) = .ok payload :=
    canonical.decode_eq_ok_iff.mpr rfl
  have hsignature : codec.decode (codec.encode (codec.signPayload sharedSecret payload))
      = .ok (codec.signPayload sharedSecret payload) := canonical.decode_eq_ok_iff.mpr rfl
  simp only [verifySessionToken, signedToken, Str.splitOnce_append (canonical.separator payload),
    hpayload, hsignature, ne_eq, not_true_eq_false, if_false]
  cases codec.fromSlice payload with
  | error error => exact iff_of_false nofun fun h => nomatch h.1
  | ok read =>
    dsimp only
    split
    next hexpired =>
      refine iff_of_false nofun fun h => ?_
      cases h.1
      omega
    next hlive =>
      constructor
      · rintro ⟨⟩
        exact ⟨rfl, by omega⟩
      · rintro ⟨⟨⟩, -⟩
        rfl

/-- A text that is accepted is the token of its payload. -/
theorem exists_signedToken {token : String} {now : Int}
    (h : verifySessionToken codec sharedSecret token now = .ok claims) :
    ∃ payload, token = signedToken codec sharedSecret payload := by
  unfold verifySessionToken at h
  split at h
  next => cases h
  next payloadB64 signatureB64 hsplit =>
    split at h
    next => cases h
    next payload hpayload =>
      split at h
      next => cases h
      next signature hsignature =>
        split at h
        next => cases h
        next hsigned =>
          refine ⟨payload, ?_⟩
          rw [Str.eq_append_of_splitOnce hsplit, canonical.decode_eq_ok_iff.mp hpayload,
            canonical.decode_eq_ok_iff.mp hsignature, not_not.mp hsigned, signedToken]

/-- A text is accepted exactly if it is the token of a payload that can be read and has
not expired. -/
theorem verifySessionToken_eq_ok_iff {token : String} {now : Int} :
    verifySessionToken codec sharedSecret token now = .ok claims
      ↔ ∃ payload, token = signedToken codec sharedSecret payload
        ∧ codec.fromSlice payload = .ok claims
        ∧ now ≤ claims.expiresAt + minutes SESSION_TOKEN_CLOCK_SKEW_MINUTES := by
  constructor
  · intro h
    obtain ⟨payload, rfl⟩ := exists_signedToken canonical h
    exact ⟨payload, rfl, (verifySessionToken_signedToken canonical payload now).mp h⟩
  · rintro ⟨payload, rfl, h⟩
    exact (verifySessionToken_signedToken canonical payload now).mpr h

/-- Two payloads have two tokens. -/
theorem signedToken_inj {payload payload' : Bytes}
    (h : signedToken codec sharedSecret payload = signedToken codec sharedSecret payload') :
    payload = payload' := by
  have hsplit := congrArg (Str.splitOnce '.') h
  rw [signedToken, signedToken, Str.splitOnce_append (canonical.separator _),
    Str.splitOnce_append (canonical.separator _)] at hsplit
  have hencoded : codec.encode payload = codec.encode payload' :=
    congrArg Prod.fst (Option.some.inj hsplit)
  have hdecoded := canonical.decode_eq_ok_iff.mpr hencoded
  rw [canonical.decode_eq_ok_iff.mpr rfl] at hdecoded
  exact Except.ok.inj hdecoded

end

/-- **Session tokens.**  A token that was issued is accepted with its claims up to fifteen
minutes later and not after that.  A text that is accepted is the one token of one
payload, which reads as the claims that are returned and has not expired. -/
theorem session_token_exact {codec : TokenCodec} (canonical : codec.Canonical)
    (sharedSecret sessionId serviceId nodeId : String) (issued : Int)
    (json : codec.fromSlice (codec.toVec
        ⟨sessionId, serviceId, nodeId, issued + minutes SESSION_TOKEN_TTL_MINUTES⟩)
      = .ok ⟨sessionId, serviceId, nodeId, issued + minutes SESSION_TOKEN_TTL_MINUTES⟩)
    (now : Int) :
    (now ≤ issued + minutes 15 →
        verifySessionToken codec sharedSecret
            (issueSessionToken codec sharedSecret sessionId serviceId nodeId issued) now
          = .ok ⟨sessionId, serviceId, nodeId, issued + minutes SESSION_TOKEN_TTL_MINUTES⟩)
      ∧ (issued + minutes 15 < now → ∃ error,
        verifySessionToken codec sharedSecret
            (issueSessionToken codec sharedSecret sessionId serviceId nodeId issued) now
          = .error error)
      ∧ ∀ token claims, verifySessionToken codec sharedSecret token now = .ok claims →
        (∃! payload, token = signedToken codec sharedSecret payload
            ∧ codec.fromSlice payload = .ok claims)
          ∧ now ≤ claims.expiresAt + minutes 5 := by
  have hexpiry : issued + minutes 15 = issued + minutes SESSION_TOKEN_TTL_MINUTES
      + minutes SESSION_TOKEN_CLOCK_SKEW_MINUTES := by
    simp only [minutes, SESSION_TOKEN_TTL_MINUTES, SESSION_TOKEN_CLOCK_SKEW_MINUTES]
    omega
  have hissued : issueSessionToken codec sharedSecret sessionId serviceId nodeId issued
      = signedToken codec sharedSecret (codec.toVec
        ⟨sessionId, serviceId, nodeId, issued + minutes SESSION_TOKEN_TTL_MINUTES⟩) := rfl
  refine ⟨fun hnow => ?_, fun hnow => ?_, fun token claims h => ?_⟩
  · rw [hissued, verifySessionToken_signedToken canonical]
    exact ⟨json, hexpiry ▸ hnow⟩
  · rw [hissued]
    cases hverify : verifySessionToken codec sharedSecret (signedToken codec sharedSecret
        (codec.toVec ⟨sessionId, serviceId, nodeId, issued + minutes SESSION_TOKEN_TTL_MINUTES⟩))
        now with
    | error error => exact ⟨error, rfl⟩
    | ok claims =>
      obtain ⟨hread, hlive⟩ := (verifySessionToken_signedToken canonical _ now).mp hverify
      rw [json] at hread
      cases hread
      dsimp only at hlive
      omega
  · obtain ⟨payload, rfl, hread, hlive⟩ := (verifySessionToken_eq_ok_iff canonical).mp h
    exact ⟨⟨payload, ⟨rfl, hread⟩, fun other hother => (signedToken_inj canonical hother.1).symm⟩,
      hlive⟩

/-! ### A token

The primitives on one token, with the values that HMAC-SHA-256, base64 and
`serde_json` give for it. -/

def sampleSecret : String := "medium-secret"

/-- They expire on 2026-01-01 at 00:10 UTC. -/
def sampleClaims : SessionTokenClaims := ⟨"sess_1", "svc_web", "node-1", 1767226200000000000⟩

def samplePayload : Bytes :=
  ("\x7b\"session_id\":\"sess_1\",\"service_id\":\"svc_web\",\"node_id\":\"node-1\","
    ++ "\"expires_at\":\"2026-01-01T00:10:00Z\"\x7d").toUTF8.data.toList

def sampleSignature : Bytes :=
  [155, 43, 173, 34, 9, 71, 241, 24, 107, 134, 33, 191, 47, 115, 150, 20, 23, 75, 83, 50, 8, 196,
    253, 101, 72, 154, 137, 150, 110, 148, 119, 241]

def samplePayloadB64 : String :=
  "eyJzZXNzaW9uX2lkIjoic2Vzc18xIiwic2VydmljZV9pZCI6InN2Y193ZWIiLCJub2RlX2lkIjoibm9kZS0xIiwi"
    ++ "ZXhwaXJlc19hdCI6IjIwMjYtMDEtMDFUMDA6MTA6MDBaIn0"

def sampleSignatureB64 : String := "myutIglH8RhrhiG_L3OWFBdLUzIIxP1lSJqJlm6Ud_E"

def sampleTokenCodec : TokenCodec where
  signPayload sharedSecret payload :=
    if sharedSecret = sampleSecret ∧ payload = samplePayload then sampleSignature else []
  encode bytes :=
    if bytes = samplePayload then samplePayloadB64
    else if bytes = sampleSignature then sampleSignatureB64 else ""
  decode text :=
    if text = samplePayloadB64 then .ok samplePayload
    else if text = sampleSignatureB64 then .ok sampleSignature else .error "Invalid padding"
  toVec claims := if claims = sampleClaims then samplePayload else []
  fromSlice bytes :=
    if bytes = samplePayload then .ok sampleClaims else .error "expected value at line 1 column 1"
  display _ := "2026-01-01 00:10:00 UTC"

/-- When the sample token was issued. -/
def sampleIssued : Int := 1767225600000000000

def sampleToken : String := samplePayloadB64 ++ .singleton '.' ++ sampleSignatureB64

theorem issueSessionToken_sample :
    issueSessionToken sampleTokenCodec sampleSecret "sess_1" "svc_web" "node-1" sampleIssued
      = sampleToken := by
  decide +kernel

theorem sampleTokenCodec_exactOn : sampleTokenCodec.ExactOn sampleSecret sampleClaims where
  payload := by rfl
  separator := by decide +kernel
  signature := by rfl
  claims := by rfl

/-- The sample token is good for fifteen minutes. -/
theorem verifySessionToken_sample {now : Int} (hnow : now ≤ sampleIssued + minutes 15) :
    verifySessionToken sampleTokenCodec sampleSecret sampleToken now = .ok sampleClaims := by
  rw [← issueSessionToken_sample]
  exact verifySessionToken_issue sampleTokenCodec_exactOn hnow

/-- The sample primitives with base64 itself. -/
def base64TokenCodec : TokenCodec :=
  { sampleTokenCodec with
    encode := Base64.encode
    decode := fun text =>
      match Base64.decode text with
      | none => .error "Invalid padding"
      | some bytes => .ok bytes }

example : Base64.encode samplePayload = samplePayloadB64
    ∧ Base64.encode sampleSignature = sampleSignatureB64 := by
  decide +kernel

theorem base64TokenCodec_canonical : base64TokenCodec.Canonical where
  decode_eq_ok_iff := by
    intro text bytes
    rw [base64TokenCodec, ← Base64.decode_eq_some_iff]
    dsimp only
    cases Base64.decode text <;> simp
  separator bytes := Base64.notMem_encode (by decide) bytes

/-- The sample token is good for fifteen minutes and no longer. -/
theorem session_token_exact_sample :
    verifySessionToken base64TokenCodec sampleSecret
        (issueSessionToken base64TokenCodec sampleSecret "sess_1" "svc_web" "node-1" sampleIssued)
        (sampleIssued + minutes 15) = .ok sampleClaims
      ∧ ∃ error, verifySessionToken base64TokenCodec sampleSecret
        (issueSessionToken base64TokenCodec sampleSecret "sess_1" "svc_web" "node-1" sampleIssued)
        (sampleIssued + minutes 15 + 1) = .error error := by
  have hexact := session_token_exact base64TokenCodec_canonical sampleSecret "sess_1" "svc_web"
    "node-1" sampleIssued (by rfl)
  exact ⟨(hexact _).1 le_rfl, (hexact _).2.1 (by omega)⟩

end MediumOverlay
