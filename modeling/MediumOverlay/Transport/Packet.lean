import MediumOverlay.Lib.BigEndian

/-!
# Session packets

The wire format of `udp_session.rs`.  A packet is `MDU1`, a kind byte, a
big-endian sequence number, a big-endian payload length and the payload.
`decodePacket` accepts a datagram only if its length is exactly what the header
declares.  So it accepts what `encodePacket` writes and nothing else
(`decodePacket_eq_ok_iff`).

The nonce of a data packet is its direction byte and its sequence number
(`nonceBytes`).  It is injective (`nonceBytes_inj`), so a packet reflected to
its own sender, or moved to another sequence number, is decrypted under a nonce
it was not sealed under.
-/

namespace MediumOverlay

open BigEndian

abbrev Bytes : Type := List UInt8

/-! ## Errors -/

/-- The kinds of `std::io::Error` that the code tells apart.  `os` stands for
every other kind the operating system reports. -/
inductive ErrorKind where
  | wouldBlock
  | timedOut
  | interrupted
  | unexpectedEof
  | writeZero
  | other
  | os (code : Nat)
deriving DecidableEq, Repr

/-- An `std::io::Error`. -/
structure IoError where
  kind : ErrorKind
  message : String := ""
deriving DecidableEq, Repr

/-- `std::io::Error::other`. -/
def IoError.other (message : String) : IoError := ⟨.other, message⟩

/-- `std::io::ErrorKind::TimedOut.into()`. -/
def IoError.timedOut : IoError := ⟨.timedOut, ""⟩

/-- The guard `WouldBlock | TimedOut` of every retry loop. -/
def IoError.isTimeout (e : IoError) : Bool := e.kind = .wouldBlock || e.kind = .timedOut

/-- An `anyhow::Error`, told apart by what stands at the root of its chain. -/
inductive AnyhowError where
  | io (error : IoError)
  | json (message : String)
  | message (message : String)
deriving DecidableEq, Repr

/-! ## Addresses -/

/-- `std::net::SocketAddr`. -/
inductive SocketAddr where
  | v4 (ip : UInt32) (port : UInt16)
  | v6 (ip : BitVec 128) (port : UInt16) (flowinfo scopeId : UInt32)
deriving DecidableEq, Repr

/-! ## Packets -/

/-- `PacketKind`. -/
inductive PacketKind where
  | hello
  | helloAck
  | data
  | ack
  | close
deriving DecidableEq, Repr

/-- `kind as u8`. -/
def PacketKind.toByte : PacketKind → UInt8
  | .hello => 1
  | .helloAck => 2
  | .data => 3
  | .ack => 4
  | .close => 5

/-- `PacketKind::from_byte`. -/
def PacketKind.fromByte (value : UInt8) : Except String PacketKind :=
  match value.toNat with
  | 1 => .ok .hello
  | 2 => .ok .helloAck
  | 3 => .ok .data
  | 4 => .ok .ack
  | 5 => .ok .close
  | n => .error ("unknown UDP session packet kind " ++ toString n)

/-- `Packet`. -/
structure Packet where
  kind : PacketKind
  seq : UInt64
  payload : Bytes
deriving DecidableEq, Repr

/-- `MAGIC`, the bytes of `MDU1`. -/
def MAGIC : Bytes := [0x4d, 0x44, 0x55, 0x31]

def HEADER_LEN : Nat := 15
def MAX_PACKET_LEN : Nat := 1500
def MAX_PAYLOAD_LEN : Nat := 1100
def RETRIES : Nat := 5
def ACK_BURST_PACKETS : Nat := 5
/-- Nanoseconds, the resolution of an `Instant`. -/
def DUPLICATE_HANDSHAKE_WINDOW : Nat := 30000000000
def MAX_RECENT_HANDSHAKES : Nat := 256

/-- `encode_packet`. -/
def encodePacket (packet : Packet) : Except String Bytes :=
  if packet.payload.length > 65535 then
    .error "UDP session packet is too large"
  else
    .ok (MAGIC ++ [packet.kind.toByte] ++ toBeBytes 8 packet.seq.toNat
      ++ toBeBytes 2 packet.payload.length ++ packet.payload)

/-- `decode_packet`. -/
def decodePacket (bytes : Bytes) : Except String Packet :=
  if bytes.length < HEADER_LEN ∨ bytes.take 4 ≠ MAGIC then
    .error "invalid UDP session packet"
  else
    match PacketKind.fromByte (bytes.getD 4 0) with
    | .error message => .error message
    | .ok kind =>
      let seq := UInt64.ofNat (ofBeBytes ((bytes.drop 5).take 8))
      let len := ofBeBytes ((bytes.drop 13).take 2)
      if bytes.length ≠ HEADER_LEN + len then
        .error "truncated UDP session packet"
      else
        .ok ⟨kind, seq, bytes.drop HEADER_LEN⟩

/-- What `recv_from` leaves in the 1500 byte buffer: a longer datagram is cut. -/
def received (datagram : Bytes) : Bytes := datagram.take MAX_PACKET_LEN

/-- The packet of a received datagram, if it is one. -/
def packetOf (datagram : Bytes) : Option Packet := (decodePacket (received datagram)).toOption

/-! ### Round trips -/

theorem PacketKind.fromByte_eq_ok_iff {value : UInt8} {kind : PacketKind} :
    PacketKind.fromByte value = .ok kind ↔ value = kind.toByte := by
  constructor
  · intro h
    unfold PacketKind.fromByte at h
    split at h <;> cases h <;> exact UInt8.toNat_inj.mp (by assumption)
  · rintro rfl
    cases kind <;> rfl

/-- A byte string with room for a header, cut where the fields of the header end. -/
theorem exists_header {bytes : Bytes} (h : HEADER_LEN ≤ bytes.length) :
    ∃ magic kind seq len payload, magic.length = 4 ∧ seq.length = 8 ∧ len.length = 2
      ∧ bytes = magic ++ [kind] ++ seq ++ len ++ payload := by
  refine ⟨bytes.take 4, bytes.getD 4 0, (bytes.drop 5).take 8, (bytes.drop 13).take 2,
    bytes.drop 15, ?_, ?_, ?_, ?_⟩
  · rw [HEADER_LEN] at h
    simp
    omega
  · rw [HEADER_LEN] at h
    simp
    omega
  · rw [HEADER_LEN] at h
    simp
    omega
  · match bytes, h with
    | _ :: _ :: _ :: _ :: _ :: _ :: _ :: _ :: _ :: _ :: _ :: _ :: _ :: _ :: _ :: _, _ => rfl

/-- The fields of a header stand at their offsets. -/
theorem header_fields {magic seq len : Bytes} (kind : UInt8) (payload : Bytes)
    (hmagic : magic.length = 4) (hseq : seq.length = 8) (hlen : len.length = 2) :
    (magic ++ [kind] ++ seq ++ len ++ payload).take 4 = magic
      ∧ (magic ++ [kind] ++ seq ++ len ++ payload).getD 4 0 = kind
      ∧ ((magic ++ [kind] ++ seq ++ len ++ payload).drop 5).take 8 = seq
      ∧ ((magic ++ [kind] ++ seq ++ len ++ payload).drop 13).take 2 = len
      ∧ (magic ++ [kind] ++ seq ++ len ++ payload).drop HEADER_LEN = payload
      ∧ (magic ++ [kind] ++ seq ++ len ++ payload).length = HEADER_LEN + payload.length := by
  match magic, seq, len, hmagic, hseq, hlen with
  | [_, _, _, _], [_, _, _, _, _, _, _, _], [_, _], _, _, _ =>
    exact ⟨rfl, rfl, rfl, rfl, rfl, Nat.add_comm payload.length 15⟩

/-- What `decodePacket` makes of the fields. -/
theorem decodePacket_header {magic seq len : Bytes} (kind : UInt8) (payload : Bytes)
    (hmagic : magic.length = 4) (hseq : seq.length = 8) (hlen : len.length = 2) {packet : Packet} :
    decodePacket (magic ++ [kind] ++ seq ++ len ++ payload) = .ok packet
      ↔ magic = MAGIC ∧ kind = packet.kind.toByte ∧ ofBeBytes len = payload.length
        ∧ UInt64.ofNat (ofBeBytes seq) = packet.seq ∧ payload = packet.payload := by
  obtain ⟨htake, hkind, hseqAt, hlenAt, hpayload, hlength⟩ :=
    header_fields kind payload hmagic hseq hlen
  have hroom : ¬ HEADER_LEN + payload.length < HEADER_LEN := by omega
  rw [decodePacket, htake, hkind, hseqAt, hlenAt, hpayload, hlength]
  simp only [hroom, false_or, ite_not, Nat.add_left_cancel_iff]
  by_cases hm : magic = MAGIC
  · rw [if_pos hm]
    cases hk : PacketKind.fromByte kind with
    | error message =>
      refine iff_of_false nofun fun h => ?_
      rw [PacketKind.fromByte_eq_ok_iff.mpr h.2.1] at hk
      cases hk
    | ok k =>
      have hkb := PacketKind.fromByte_eq_ok_iff.mp hk
      dsimp only
      split
      next hl =>
        rw [Except.ok.injEq, ← hl]
        constructor
        · rintro rfl
          exact ⟨hm, hkb, rfl, rfl, rfl⟩
        · rintro ⟨-, hk', -, hs, rfl⟩
          have hsame : k = packet.kind :=
            Except.ok.inj (hk.symm.trans (PacketKind.fromByte_eq_ok_iff.mpr hk'))
          rw [hsame, hs]
      next hl => exact iff_of_false nofun fun h => hl h.2.2.1.symm
  · rw [if_neg hm]
    exact iff_of_false nofun fun h => hm h.1

/-- **The packet codec.**  A byte string decodes to a packet exactly if it is what the
packet is encoded to. -/
theorem decodePacket_eq_ok_iff {bytes : Bytes} {packet : Packet} :
    decodePacket bytes = .ok packet ↔ encodePacket packet = .ok bytes := by
  have hseqLt : packet.seq.toNat < 256 ^ 8 := packet.seq.toNat_lt
  constructor
  · intro h
    have hroom : HEADER_LEN ≤ bytes.length := by
      by_contra hshort
      rw [decodePacket, if_pos (.inl (by omega))] at h
      cases h
    obtain ⟨magic, kind, seq, len, payload, hmagic, hseq, hlen, rfl⟩ := exists_header hroom
    obtain ⟨rfl, rfl, hl, hs, rfl⟩ := (decodePacket_header kind payload hmagic hseq hlen).mp h
    have hltLen := ofBeBytes_lt len
    have hbackLen := toBeBytes_ofBeBytes len
    have hltSeq := ofBeBytes_lt seq
    have hbackSeq := toBeBytes_ofBeBytes seq
    rw [hlen] at hltLen hbackLen
    rw [hseq] at hltSeq hbackSeq
    rw [encodePacket, if_neg (by omega), ← hs, UInt64.toNat_ofNat_of_lt' hltSeq, ← hl, hbackLen,
      hbackSeq]
  · intro h
    rw [encodePacket] at h
    split at h
    next => cases h
    next hsize =>
      cases h
      refine (decodePacket_header _ _ rfl (length_toBeBytes _ _) (length_toBeBytes _ _)).mpr
        ⟨rfl, rfl, ofBeBytes_toBeBytes_of_lt (by omega), ?_, rfl⟩
      rw [ofBeBytes_toBeBytes_of_lt hseqLt, UInt64.ofNat_toNat]

/-! ## Directions and nonces -/

/-- `Direction`: the end that sealed a data packet. -/
inductive Direction where
  | clientToNode
  | nodeToClient
deriving DecidableEq, Repr

/-- `Direction::byte`. -/
def Direction.byte : Direction → UInt8
  | .clientToNode => 0
  | .nodeToClient => 1

/-- `Direction::peer`. -/
def Direction.peer : Direction → Direction
  | .clientToNode => .nodeToClient
  | .nodeToClient => .clientToNode

@[simp] theorem Direction.peer_peer (d : Direction) : d.peer.peer = d := by
  cases d <;> rfl

theorem Direction.eq_or_eq_peer (d d' : Direction) : d' = d ∨ d' = d.peer := by
  cases d <;> cases d' <;> decide

/-- `nonce_bytes`: the direction, three zero bytes and the sequence number. -/
def nonceBytes (direction : Direction) (seq : UInt64) : Bytes :=
  [direction.byte, 0, 0, 0] ++ toBeBytes 8 seq.toNat

theorem Direction.byte_inj {d d' : Direction} (h : d.byte = d'.byte) : d = d' := by
  cases d <;> cases d' <;> first | rfl | exact absurd h (by decide)

/-- Two data packets have the same nonce only if they agree on direction and
sequence number. -/
theorem nonceBytes_inj {d d' : Direction} {seq seq' : UInt64}
    (h : nonceBytes d seq = nonceBytes d' seq') : d = d' ∧ seq = seq' := by
  simp only [nonceBytes, List.cons_append, List.nil_append, List.cons.injEq] at h
  refine ⟨Direction.byte_inj h.1, ?_⟩
  have hseq : seq.toNat = seq'.toNat :=
    toBeBytes_inj (by simpa using seq.toNat_lt) (by simpa using seq'.toNat_lt) h.2.2.2.2
  exact UInt64.toNat_inj.mp hseq

end MediumOverlay
