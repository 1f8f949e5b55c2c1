import MediumOverlay.Apple.ForegroundUdpSession

/-!
# Session packets in Swift

The Apple app has its own `encode` and `decode`.  It shifts the numbers of a header
into words of their width and takes the payload from the end of the datagram.

What it reads and writes is what the Rust code reads and writes (`toOption_decode`,
`toOption_encode`), up to the text of an error.  So both programs have one wire
format, and it is exact.
-/

namespace MediumOverlay

open BigEndian

namespace ForegroundUdpSession

/-- `PacketKind.rawValue`. -/
def rawValue : PacketKind → UInt8
  | .hello => 1
  | .helloAck => 2
  | .data => 3
  | .ack => 4
  | .close => 5

/-- `PacketKind(rawValue:)`. -/
def ofRawValue (value : UInt8) : Option PacketKind :=
  [PacketKind.hello, .helloAck, .data, .ack, .close].find? (rawValue · = value)

def magic : Bytes := [0x4d, 0x44, 0x55, 0x31]

/-- `encode`. -/
def encode (packet : Packet) : Except Error Bytes :=
  if packet.payload.length ≤ 65535 then
    .ok (magic ++ [rawValue packet.kind] ++ toBeBytes 8 packet.seq.toNat
      ++ toBeBytes 2 (UInt16.ofNat packet.payload.length).toNat ++ packet.payload)
  else .error .invalidPacket

/-- `decode`. -/
def decode (bytes : Bytes) : Except Error Packet :=
  if 15 ≤ bytes.length ∧ bytes.take 4 = magic then
    match ofRawValue (bytes.getD 4 0) with
    | none => .error .invalidPacket
    | some kind =>
      let seq : UInt64 := ⟨shiftIn 64 ((bytes.drop 5).take 8)⟩
      let len : UInt16 := ⟨shiftIn 16 ((bytes.drop 13).take 2)⟩
      if bytes.length = 15 + len.toNat then
        .ok ⟨kind, seq, bytes.drop (bytes.length - len.toNat)⟩
      else .error .invalidPacket
  else .error .invalidPacket

theorem rawValue_eq (kind : PacketKind) : rawValue kind = kind.toByte := by
  cases kind <;> rfl

theorem ofRawValue_eq_some_iff {value : UInt8} {kind : PacketKind} :
    ofRawValue value = some kind ↔ value = kind.toByte := by
  constructor
  · intro h
    rw [← rawValue_eq, eq_comm]
    simpa using List.find?_some h
  · rintro rfl
    cases kind <;> rfl

theorem toOption_fromByte (value : UInt8) :
    (PacketKind.fromByte value).toOption = ofRawValue value := by
  refine Option.ext fun kind => ?_
  rw [ofRawValue_eq_some_iff, ← PacketKind.fromByte_eq_ok_iff]
  cases PacketKind.fromByte value <;> simp [Except.toOption]

/-- The encoders write the same bytes. -/
theorem toOption_encode (packet : Packet) :
    (encode packet).toOption = (encodePacket packet).toOption := by
  rw [encode, encodePacket, rawValue_eq]
  by_cases hsize : packet.payload.length ≤ 65535
  · rw [if_pos hsize, if_neg (by omega), UInt16.toNat_ofNat_of_lt' (Nat.lt_succ_of_le hsize)]
    rfl
  · rw [if_neg hsize, if_pos (by omega)]
    rfl

/-- The decoders read the same packet. -/
theorem toOption_decode (bytes : Bytes) :
    (decode bytes).toOption = (decodePacket bytes).toOption := by
  have hseq : (⟨shiftIn 64 ((bytes.drop 5).take 8)⟩ : UInt64)
      = UInt64.ofNat (ofBeBytes ((bytes.drop 5).take 8)) := by
    rw [← UInt64.toNat_inj, UInt64.toNat_ofNat']
    exact toNat_shiftIn (by decide) _
  have hlen : (⟨shiftIn 16 ((bytes.drop 13).take 2)⟩ : UInt16).toNat
      = ofBeBytes ((bytes.drop 13).take 2) := by
    have hshift := toNat_shiftIn (w := 16) (by decide) ((bytes.drop 13).take 2)
    have hlt := ofBeBytes_lt ((bytes.drop 13).take 2)
    have htwo : 256 ^ ((bytes.drop 13).take 2).length ≤ 256 ^ 2 :=
      Nat.pow_le_pow_right (by decide) (List.length_take_le _ _)
    rw [Nat.mod_eq_of_lt (by omega)] at hshift
    exact hshift
  rw [decode, decodePacket]
  by_cases hheader : 15 ≤ bytes.length ∧ bytes.take 4 = magic
  · have hshort : ¬ (bytes.length < HEADER_LEN ∨ bytes.take 4 ≠ MAGIC) := by
      rw [HEADER_LEN, not_or, not_lt, not_not]
      exact hheader
    rw [if_pos hheader, if_neg hshort, ← toOption_fromByte]
    cases PacketKind.fromByte (bytes.getD 4 0) with
    | error message => rfl
    | ok kind =>
      dsimp only
      rw [hseq, hlen]
      by_cases hfull : bytes.length = HEADER_LEN + ofBeBytes ((bytes.drop 13).take 2)
      · have hdrop : bytes.length - ofBeBytes ((bytes.drop 13).take 2) = HEADER_LEN := by omega
        rw [if_neg (not_not.mpr hfull), hdrop]
        exact congrArg Except.toOption (if_pos hfull)
      · rw [if_pos hfull]
        exact congrArg Except.toOption (if_neg hfull)
  · have hshort : bytes.length < HEADER_LEN ∨ bytes.take 4 ≠ MAGIC := by
      rw [HEADER_LEN]
      by_contra hboth
      rw [not_or, not_lt, not_not] at hboth
      exact hheader hboth
    rw [if_neg hheader, if_pos hshort]
    rfl

end ForegroundUdpSession

/-- **The wire format.**  Packets that fit are read back, only what the encoder writes
is read, and the app reads and writes as the Rust code does. -/
theorem packet_codec_exact :
    (∀ packet : Packet, packet.payload.length ≤ 65535 →
        ∃ bytes, encodePacket packet = .ok bytes ∧ decodePacket bytes = .ok packet)
      ∧ (∀ bytes packet, decodePacket bytes = .ok packet → encodePacket packet = .ok bytes)
      ∧ (∀ bytes, (decodePacket bytes).toOption = (ForegroundUdpSession.decode bytes).toOption)
      ∧ ∀ packet,
        (encodePacket packet).toOption = (ForegroundUdpSession.encode packet).toOption := by
  refine ⟨fun packet hsize => ?_, fun _ _ => decodePacket_eq_ok_iff.mp, fun bytes => ?_,
    fun packet => ?_⟩
  · have hencoded : ∃ bytes, encodePacket packet = .ok bytes := by
      rw [encodePacket, if_neg (by omega)]
      exact ⟨_, rfl⟩
    obtain ⟨bytes, hbytes⟩ := hencoded
    exact ⟨bytes, hbytes, decodePacket_eq_ok_iff.mpr hbytes⟩
  · exact (ForegroundUdpSession.toOption_decode bytes).symm
  · exact (ForegroundUdpSession.toOption_encode packet).symm

/-- An acknowledgement on the wire. -/
theorem packet_codec_exact_ack :
    ∃ bytes, encodePacket ⟨.ack, 258, []⟩ = .ok bytes
      ∧ bytes = [0x4d, 0x44, 0x55, 0x31, 4, 0, 0, 0, 0, 0, 0, 1, 2, 0, 0]
      ∧ ForegroundUdpSession.decode bytes = .ok ⟨.ack, 258, []⟩ := by
  obtain ⟨bytes, hencoded, hdecoded⟩ := packet_codec_exact.1 ⟨.ack, 258, []⟩ (by decide)
  have hbytes : bytes = [0x4d, 0x44, 0x55, 0x31, 4, 0, 0, 0, 0, 0, 0, 1, 2, 0, 0] :=
    Except.ok.inj (hencoded.symm.trans (by decide +kernel))
  refine ⟨bytes, hencoded, hbytes, ?_⟩
  rw [hbytes]
  decide +kernel

end MediumOverlay
