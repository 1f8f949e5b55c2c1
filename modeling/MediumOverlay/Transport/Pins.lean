import MediumOverlay.Lib.Fallible
import MediumOverlay.Lib.Hex
import MediumOverlay.Lib.Str
import MediumOverlay.Lib.Table
import MediumOverlay.Transport.Packet

/-!
# Control pins

A client knows the control plane by a pin, `sha256:` and the digest of its certificate in
hexadecimal digits.  The digits are parsed in pairs, each of them with the parser of Rust's
integers.  That parser takes a sign, and so a pin can have `+` in the place of a digit.
`parseSha256Pin_eq_ok_iff` says which texts are pins and what they stand for.
-/

namespace MediumOverlay

open Fallible FormUrlencoded Hex

/-- SHA-256: a digest has 32 bytes. -/
structure Sha256 where
  digest : Bytes → Bytes
  length_digest : ∀ bytes, (digest bytes).length = 32

/-- `hex_lower`. -/
def hexLower (bytes : Bytes) : String := .ofList (flat (bytes.map digits))

/-- `sha256_pin`. -/
def sha256Pin (sha256 : Sha256) (bytes : Bytes) : String :=
  "sha256:" ++ hexLower (sha256.digest bytes)

/-- The text of the error of `from_utf8` for two bytes. -/
def utf8Error (first second : UInt8) : String :=
  if first < 128 then
    if 0xc2 ≤ second ∧ second ≤ 0xf4 then "incomplete utf-8 byte sequence from index 1"
    else "invalid utf-8 sequence of 1 bytes from index 1"
  else if Utf8.isSecond first second then "incomplete utf-8 byte sequence from index 0"
  else "invalid utf-8 sequence of 1 bytes from index 0"

/-- The texts of errors that depend on the crate. -/
structure PinTexts where
  invalidByte : String → String → String
  mismatch : Bytes → Bytes → String

/-- The texts of `pinned_http.rs`. -/
def PinTexts.transport : PinTexts where
  invalidByte pair _ := "invalid control pin hex byte " ++ pair
  mismatch expected actual :=
    "control TLS pin mismatch: expected sha256:" ++ hexLower expected ++ " actual sha256:"
      ++ hexLower actual

/-- The texts of the Android client. -/
def PinTexts.android : PinTexts where
  invalidByte pair error := "invalid control pin hex byte " ++ pair ++ ": " ++ error
  mismatch _ _ := "control TLS pin mismatch"

/-- A turn of the loop of `parse_sha256_pin`. -/
def parsePair (texts : PinTexts) (pair : UInt8 × UInt8) : Except AnyhowError UInt8 :=
  match String.fromUTF8? ⟨[pair.1, pair.2].toArray⟩ with
  | none => .error (.message (utf8Error pair.1 pair.2))
  | some text =>
    match fromStrRadix 255 text with
    | .error error => .error (.message (texts.invalidByte text error))
    | .ok n => .ok (.ofNat n)

def parseSha256PinWith (texts : PinTexts) (pin : String) : Except AnyhowError Bytes := do
  let hex ← context (Str.stripPrefix "sha256:" pin)
    (.message "control pin must start with sha256:")
  bailUnless (hex.utf8ByteSize = 64)
    (.message "control pin sha256 digest must be 64 hex characters")
  (chunks (Utf8.encode hex.toList)).mapM (parsePair texts)

/-- `parse_sha256_pin` of `pinned_http.rs`. -/
def parseSha256Pin : String → Except AnyhowError Bytes := parseSha256PinWith .transport

/-- `parse_sha256_pin` of the Android client. -/
def Android.parseSha256Pin : String → Except AnyhowError Bytes := parseSha256PinWith .android

structure PinnedCertVerifier where
  expectedPin : Bytes
deriving DecidableEq, Repr

/-- `verify_server_cert`. -/
def PinnedCertVerifier.verifyServerCert (texts : PinTexts) (sha256 : Sha256)
    (verifier : PinnedCertVerifier) (endEntity : Bytes) : Except String Unit :=
  let actual := sha256.digest endEntity
  if actual ≠ verifier.expectedPin then .error (texts.mismatch verifier.expectedPin actual)
  else .ok ()

/-- The verifier of `pinned_tls_client_config`. -/
def pinnedTlsClientConfig (texts : PinTexts) (controlPin : String) :
    Except AnyhowError PinnedCertVerifier := do
  return ⟨← parseSha256PinWith texts controlPin⟩

variable {texts : PinTexts}

theorem PinnedCertVerifier.verifyServerCert_eq_ok_iff {sha256 : Sha256}
    {verifier : PinnedCertVerifier} {endEntity : Bytes} {u : Unit} :
    verifier.verifyServerCert texts sha256 endEntity = .ok u
      ↔ sha256.digest endEntity = verifier.expectedPin := by
  unfold verifyServerCert
  by_cases h : sha256.digest endEntity = verifier.expectedPin <;> simp [h]

theorem pinnedTlsClientConfig_eq_ok_iff {controlPin : String} {verifier : PinnedCertVerifier} :
    pinnedTlsClientConfig texts controlPin = .ok verifier
      ↔ parseSha256PinWith texts controlPin = .ok verifier.expectedPin := by
  rw [pinnedTlsClientConfig, bind_eq_ok_iff]
  constructor
  · rintro ⟨digest, hdigest, hverifier⟩
    cases hverifier
    exact hdigest
  · intro h
    exact ⟨verifier.expectedPin, h, rfl⟩

/-! ## Which texts are pins -/

/-- A byte of a text of ASCII characters. -/
def asciiByte (c : Char) : UInt8 := .ofNat c.toNat

theorem encode_of_isAscii {cs : List Char} (h : ∀ c ∈ cs, Utf8.isAscii c = true) :
    Utf8.encode cs = cs.map asciiByte := by
  induction cs with
  | nil => rfl
  | cons c cs ih =>
    obtain ⟨hc, hcs⟩ := List.forall_mem_cons.mp h
    rw [Utf8.encode_cons, Utf8.utf8EncodeChar_of_isAscii hc, ih hcs]
    rfl

variable {p : Char × Char}

theorem isAscii_of_pairValue {n : Nat} (h : pairValue p = some n) :
    Utf8.isAscii p.1 = true ∧ Utf8.isAscii p.2 = true := by
  obtain ⟨hplus, hdigit⟩ | ⟨high, low, hhigh, hlow, -⟩ := pairValue_eq_some_iff.mp h
  · exact ⟨by rw [hplus]; decide, isAscii_of_hexValue hdigit⟩
  · exact ⟨isAscii_of_hexValue hhigh, isAscii_of_hexValue hlow⟩

theorem encode_pair {n : Nat} (h : pairValue p = some n) :
    Utf8.encode [p.1, p.2] = [asciiByte p.1, asciiByte p.2] := by
  obtain ⟨hfirst, hsecond⟩ := isAscii_of_pairValue h
  exact encode_of_isAscii (by simp [hfirst, hsecond])

/-- A pair of bytes is parsed exactly if it is the text of a pair that stands for a byte. -/
theorem parsePair_eq_ok_iff {pair : UInt8 × UInt8} {b : UInt8} :
    parsePair texts pair = .ok b
      ↔ ∃ (p : Char × Char) (n : Nat), pairValue p = some n ∧ b = .ofNat n
        ∧ pair = (asciiByte p.1, asciiByte p.2) := by
  unfold parsePair
  constructor
  · intro h
    cases htext : String.fromUTF8? ⟨[pair.1, pair.2].toArray⟩ with
    | none =>
      rw [htext] at h
      cases h
    | some text =>
      rw [htext] at h
      dsimp only at h
      cases hn : fromStrRadix 255 text with
      | error error =>
        rw [hn] at h
        cases h
      | ok n =>
        rw [hn] at h
        -- what is read as a number is ASCII, so each byte is a character
        have hbytes : text.toList.map asciiByte = [pair.1, pair.2] := by
          rw [← encode_of_isAscii (isAscii_of_fromStrRadix hn)]
          exact Utf8.fromUTF8?_eq_some_iff.mp htext
        obtain ⟨c, rest, hlist, hc, hrest⟩ := List.map_eq_cons_iff.mp hbytes
        obtain ⟨d, rest', rfl, hd, hnil⟩ := List.map_eq_cons_iff.mp hrest
        rw [List.map_eq_nil_iff.mp hnil] at hlist
        have hpair : text = .ofList [c, d] := by rw [← hlist, String.ofList_toList]
        rw [hpair] at hn
        refine ⟨(c, d), n, (fromStrRadix_pair c d n).mp hn, (Except.ok.inj h).symm, ?_⟩
        exact Prod.ext hc.symm hd.symm
  · rintro ⟨p, n, hvalue, rfl, rfl⟩
    have htext : String.fromUTF8? ⟨[asciiByte p.1, asciiByte p.2].toArray⟩
        = some (.ofList [p.1, p.2]) := by
      rw [Utf8.fromUTF8?_eq_some_iff, String.toList_ofList, encode_pair hvalue]
    have hn := (fromStrRadix_pair p.1 p.2 n).mpr hvalue
    simp only [htext, hn]

/-- A pair stands for a byte. -/
def Spells (p : Char × Char) (b : UInt8) : Prop := ∃ n, pairValue p = some n ∧ b = .ofNat n

variable {digest : Bytes}

theorem encode_flat {pairs : List (Char × Char)} (h : List.Forall₂ Spells pairs digest) :
    Utf8.encode (flat pairs) = flat (pairs.map fun p => (asciiByte p.1, asciiByte p.2)) := by
  induction h with
  | nil => rfl
  | @cons p b pairs digest hp hpairs ih =>
    obtain ⟨n, hvalue, -⟩ := hp
    have hcons : flat (p :: pairs) = [p.1, p.2] ++ flat pairs := rfl
    rw [hcons, Utf8.encode, List.flatMap_append, ← Utf8.encode, ← Utf8.encode, ih,
      encode_pair hvalue]
    rfl

theorem parsePairs_iff {pairs : List (UInt8 × UInt8)} :
    pairs.mapM (parsePair texts) = .ok digest
      ↔ ∃ ps : List (Char × Char), List.Forall₂ Spells ps digest
        ∧ pairs = ps.map fun p => (asciiByte p.1, asciiByte p.2) := by
  rw [Table.mapM_eq_ok_iff]
  constructor
  · intro h
    induction h with
    | nil => exact ⟨[], .nil, rfl⟩
    | cons hpair _ ih =>
      obtain ⟨p, n, hvalue, hb, rfl⟩ := parsePair_eq_ok_iff.mp hpair
      obtain ⟨ps, hps, rfl⟩ := ih
      exact ⟨p :: ps, .cons ⟨n, hvalue, hb⟩ hps, rfl⟩
  · rintro ⟨ps, hps, rfl⟩
    induction hps with
    | nil => exact .nil
    | cons hp _ ih =>
      obtain ⟨n, hvalue, hb⟩ := hp
      exact .cons (parsePair_eq_ok_iff.mpr ⟨_, n, hvalue, hb, rfl⟩) ih

variable {pin : String}

/-- The texts that are pins: `sha256:` and 32 pairs, each of them for a byte of the digest. -/
theorem parseSha256Pin_eq_ok_iff :
    parseSha256PinWith texts pin = .ok digest
      ↔ ∃ pairs : List (Char × Char), pairs.length = 32 ∧ pin = "sha256:" ++ .ofList (flat pairs)
        ∧ List.Forall₂ Spells pairs digest := by
  have hsteps : parseSha256PinWith texts pin = .ok digest
      ↔ ∃ hex, pin = "sha256:" ++ hex ∧ hex.utf8ByteSize = 64
        ∧ (chunks (Utf8.encode hex.toList)).mapM (parsePair texts) = .ok digest := by
    simp only [parseSha256PinWith, bind_eq_ok_iff, context_eq_ok_iff, bailUnless_eq_ok_iff,
      Str.stripPrefix_eq_some_iff, exists_const]
  rw [hsteps]
  constructor
  · rintro ⟨hex, rfl, hsize, hparsed⟩
    obtain ⟨pairs, hspells, hchunks⟩ := parsePairs_iff.mp hparsed
    rw [← Utf8.length_encode_toList] at hsize
    obtain ⟨bytePairs, hlength, hbytes⟩ := exists_flat (n := 32) hsize
    rw [hbytes, chunks_flat] at hchunks
    -- two texts with the same bytes are the same
    have hhex : hex.toList = flat pairs := by
      refine Utf8.encode_injective ?_
      rw [hbytes, hchunks, encode_flat hspells]
    refine ⟨pairs, ?_, ?_, hspells⟩
    · rw [← hlength, hchunks, List.length_map]
    · rw [← hhex, String.ofList_toList]
  · rintro ⟨pairs, hlength, rfl, hspells⟩
    refine ⟨_, rfl, ?_, parsePairs_iff.mpr ⟨pairs, hspells, ?_⟩⟩
    · rw [← Utf8.length_encode_toList, String.toList_ofList, encode_flat hspells, length_flat,
        List.length_map, hlength]
    · rw [String.toList_ofList, encode_flat hspells, chunks_flat]

/-! ## Pins with signs -/

def isHexDigit (c : Char) : Bool := (hexValue c).isSome

/-- `sha256:` and 64 hexadecimal digits. -/
def IsHexPin (pin : String) : Prop :=
  ∃ digits : List Char, digits.length = 64 ∧ pin = "sha256:" ++ .ofList digits
    ∧ ∀ c ∈ digits, isHexDigit c = true

/-- `sha256:` and 32 pairs of a digit or a sign and a digit, with a sign in one of them. -/
def IsSignedPin (pin : String) : Prop :=
  ∃ pairs : List (Char × Char), pairs.length = 32 ∧ pin = "sha256:" ++ .ofList (flat pairs)
    ∧ (∀ p ∈ pairs, (isHexDigit p.1 = true ∨ p.1 = '+') ∧ isHexDigit p.2 = true)
    ∧ ∃ p ∈ pairs, p.1 = '+'

theorem exists_spells_iff :
    (∃ b, Spells p b) ↔ (isHexDigit p.1 = true ∨ p.1 = '+') ∧ isHexDigit p.2 = true := by
  simp only [Spells, pairValue_eq_some_iff, isHexDigit, Option.isSome_iff_exists]
  constructor
  · rintro ⟨b, n, ⟨hplus, hdigit⟩ | ⟨high, low, hhigh, hlow, -⟩, -⟩
    · exact ⟨.inr hplus, n, hdigit⟩
    · exact ⟨.inl ⟨high, hhigh⟩, low, hlow⟩
  · rintro ⟨⟨high, hhigh⟩ | hplus, low, hlow⟩
    · exact ⟨_, _, .inr ⟨high, low, hhigh, hlow, rfl⟩, rfl⟩
    · exact ⟨_, _, .inl ⟨hplus, hlow⟩, rfl⟩

/-- A text is accepted if it has a digit or a sign, and a digit, in each pair. -/
theorem exists_parseSha256Pin_iff :
    (∃ digest, parseSha256PinWith texts pin = .ok digest)
      ↔ ∃ pairs : List (Char × Char), pairs.length = 32 ∧ pin = "sha256:" ++ .ofList (flat pairs)
        ∧ ∀ p ∈ pairs, (isHexDigit p.1 = true ∨ p.1 = '+') ∧ isHexDigit p.2 = true := by
  simp only [parseSha256Pin_eq_ok_iff, ← exists_spells_iff, ← Table.exists_forall₂_iff]
  constructor
  · rintro ⟨digest, pairs, hlength, hpin, hspells⟩
    exact ⟨pairs, hlength, hpin, digest, hspells⟩
  · rintro ⟨pairs, hlength, hpin, digest, hspells⟩
    exact ⟨digest, pairs, hlength, hpin, hspells⟩

/-- What is behind `sha256:`. -/
theorem pin_inj {hex hex' : String} (h : pin = "sha256:" ++ hex) (h' : pin = "sha256:" ++ hex') :
    hex = hex' :=
  Option.some.inj ((Str.stripPrefix_eq_some_iff.mpr h).symm.trans
    (Str.stripPrefix_eq_some_iff.mpr h'))

theorem not_isHexPin_of_isSignedPin (hsigned : IsSignedPin pin) : ¬ IsHexPin pin := by
  rintro ⟨digits, -, hpin, hdigits⟩
  obtain ⟨pairs, -, hpin', -, p, hp, hplus⟩ := hsigned
  have hmem : '+' ∈ digits := by
    rw [String.ofList_injective (pin_inj hpin hpin')]
    exact List.mem_flatMap.mpr ⟨p, hp, by simp [hplus]⟩
  exact absurd (hdigits _ hmem) (by decide)

/-- Without a sign, the digits of what the pairs stand for are their digits. -/
theorem flat_digits {pairs : List (Char × Char)} (hspells : List.Forall₂ Spells pairs digest)
    (hplain : ∀ p ∈ pairs, p.1 ≠ '+') :
    flat (digest.map digits) = (flat pairs).map Char.toLower := by
  induction hspells with
  | nil => rfl
  | @cons p b pairs digest hp _ ih =>
    obtain ⟨hp_plain, hrest⟩ := List.forall_mem_cons.mp hplain
    obtain ⟨n, hvalue, rfl⟩ := hp
    have hcons : ∀ (q : Char × Char) qs, flat (q :: qs) = q.1 :: q.2 :: flat qs :=
      fun _ _ => rfl
    obtain ⟨hplus, -⟩ | ⟨high, low, hhigh, hlow, rfl⟩ := pairValue_eq_some_iff.mp hvalue
    · exact absurd hplus hp_plain
    · rw [List.map_cons, hcons, hcons, List.map_cons, List.map_cons, ih hrest,
        digits_of_hexValue hhigh hlow]

theorem parseSha256Pin_sha256Pin (texts : PinTexts) (sha256 : Sha256) (bytes : Bytes) :
    parseSha256PinWith texts (sha256Pin sha256 bytes) = .ok (sha256.digest bytes) := by
  refine parseSha256Pin_eq_ok_iff.mpr ⟨(sha256.digest bytes).map digits, ?_, rfl, ?_⟩
  · rw [List.length_map, sha256.length_digest]
  · rw [List.forall₂_map_left_iff, List.forall₂_same]
    intro b _
    exact ⟨b.toNat, pairValue_digits b, UInt8.ofNat_toNat.symm⟩

theorem exists_digest_iff_of_not_isSignedPin (hplain : ¬ IsSignedPin pin) (texts : PinTexts) :
    (∃ digest, parseSha256PinWith texts pin = .ok digest) ↔ IsHexPin pin := by
  rw [exists_parseSha256Pin_iff]
  constructor
  · rintro ⟨pairs, hlength, rfl, hpairs⟩
    refine ⟨flat pairs, by rw [length_flat, hlength], rfl, fun c hc => ?_⟩
    obtain ⟨p, hp, hc⟩ := List.mem_flatMap.mp hc
    have hfirst : isHexDigit p.1 = true :=
      (hpairs p hp).1.resolve_right fun hplus =>
        hplain ⟨pairs, hlength, rfl, hpairs, p, hp, hplus⟩
    have hc : c = p.1 ∨ c = p.2 := by simpa using hc
    rcases hc with rfl | rfl
    · exact hfirst
    · exact (hpairs p hp).2
  · rintro ⟨digits, hlength, rfl, hdigits⟩
    obtain ⟨pairs, hpairs, rfl⟩ := exists_flat (n := 32) hlength
    refine ⟨pairs, hpairs, rfl, fun p hp => ⟨.inl (hdigits _ ?_), hdigits _ ?_⟩⟩
    · exact List.mem_flatMap.mpr ⟨p, hp, by simp⟩
    · exact List.mem_flatMap.mpr ⟨p, hp, by simp⟩

theorem hexLower_of_not_isSignedPin {hex : String} (hplain : ¬ IsSignedPin pin)
    (hparse : parseSha256PinWith texts pin = .ok digest) (hpin : pin = "sha256:" ++ hex) :
    hexLower digest = Str.toAsciiLowercase hex := by
  obtain ⟨pairs, hlength, hpairs, hspells⟩ := parseSha256Pin_eq_ok_iff.mp hparse
  have hvalid : ∀ p ∈ pairs, (isHexDigit p.1 = true ∨ p.1 = '+') ∧ isHexDigit p.2 = true := by
    intro p hp
    exact exists_spells_iff.mp (Table.exists_forall₂_iff.mp ⟨digest, hspells⟩ p hp)
  have hnone : ∀ p ∈ pairs, p.1 ≠ '+' := fun p hp hplus =>
    hplain ⟨pairs, hlength, hpairs, hvalid, p, hp, hplus⟩
  rw [pin_inj hpin hpairs, Str.toAsciiLowercase, String.toList_ofList, hexLower,
    flat_digits hspells hnone]

/-- **Control pins.**  The pin of a certificate is parsed to its digest.  Of any other text the
rest holds exactly if it has no sign in the place of a digit: it is accepted if it has 64
hexadecimal digits, the digits of what it is parsed to are its own in lower case, and a
certificate is accepted for it only if the pin spells its digest. -/
theorem control_pin_iff_unsigned (texts : PinTexts) (sha256 : Sha256) (pin : String) :
    ((∀ bytes, parseSha256PinWith texts (sha256Pin sha256 bytes) = .ok (sha256.digest bytes))
        ∧ ((∃ digest, parseSha256PinWith texts pin = .ok digest) ↔ IsHexPin pin)
        ∧ (∀ digest hex, parseSha256PinWith texts pin = .ok digest → pin = "sha256:" ++ hex →
          hexLower digest = Str.toAsciiLowercase hex)
        ∧ ∀ verifier cert hex, pinnedTlsClientConfig texts pin = .ok verifier →
          verifier.verifyServerCert texts sha256 cert = .ok () → pin = "sha256:" ++ hex →
          hexLower (sha256.digest cert) = Str.toAsciiLowercase hex)
      ↔ ¬ IsSignedPin pin := by
  constructor
  · rintro ⟨-, haccepts, -, -⟩ hsigned
    refine not_isHexPin_of_isSignedPin hsigned (haccepts.mp (exists_parseSha256Pin_iff.mpr ?_))
    obtain ⟨pairs, hlength, hpin, hpairs, -⟩ := hsigned
    exact ⟨pairs, hlength, hpin, hpairs⟩
  · intro hplain
    refine ⟨parseSha256Pin_sha256Pin texts sha256,
      exists_digest_iff_of_not_isSignedPin hplain texts,
      fun digest hex => hexLower_of_not_isSignedPin hplain, ?_⟩
    intro verifier cert hex hconfig hverified hpin
    rw [PinnedCertVerifier.verifyServerCert_eq_ok_iff.mp hverified]
    exact hexLower_of_not_isSignedPin hplain (pinnedTlsClientConfig_eq_ok_iff.mp hconfig) hpin

/-- Thirty-two signs and digits. -/
def signedPin : String := "sha256:" ++ .ofList (flat (List.replicate 32 ('+', 'f')))

/-- Both clients take it for a digest, whose digits are others. -/
theorem signed_pin_accepted :
    parseSha256Pin signedPin = .ok (List.replicate 32 15)
      ∧ Android.parseSha256Pin signedPin = .ok (List.replicate 32 15)
      ∧ hexLower (List.replicate 32 15) = .ofList (flat (List.replicate 32 ('0', 'f')))
      ∧ ¬ IsHexPin signedPin := by
  refine ⟨by decide +kernel, by decide +kernel, by decide +kernel, ?_⟩
  refine not_isHexPin_of_isSignedPin ⟨List.replicate 32 ('+', 'f'), rfl, rfl, ?_, ('+', 'f'), ?_⟩
  · decide
  · decide

end MediumOverlay
