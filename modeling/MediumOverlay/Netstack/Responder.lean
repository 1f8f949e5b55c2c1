import MediumOverlay.Lib.Slices
import MediumOverlay.Netstack.VirtualNetwork

/-!
# The DNS responder

A query is a header of twelve bytes, a question, and whatever else the header announces.
`Question` is such a packet in its parts, and `parse_query` accepts just those
(`parseQuery_eq_some_iff`).  The response to one has the same id and the same question
(`emitResponse_packet`), and an answer if a service has the name.

`parse_query` and `emit_response` reach into the packet by offsets.  `Checked` has them
with those offsets and with every access that could be out of bounds.  None of them is
(`Checked.answerQuery_eq`).  Offsets are far below the bounds of a `usize`.
-/

namespace MediumOverlay.Netstack

open BigEndian

/-! ## Accesses by offset -/

namespace Checked

open Slices

/-- `u16::from_be_bytes([packet[i], packet[i + 1]])`. -/
def u16At (packet : Bytes) (i : Nat) : Except Panic Nat := do
  let high ← index packet i
  let low ← index packet (i + 1)
  return ofBeBytes [high, low]

/-- The loop of `parse_query`. -/
def readLabels (packet : Bytes) (offset : Nat) (labels : List String) :
    Except Panic (Option (List String × Nat)) :=
  match packet[offset]? with
  | none => .ok none
  | some len =>
    if len = 0 then .ok (some (labels, offset + 1))
    else if 63 < len.toNat ∨ packet.length < offset + 1 + len.toNat then .ok none
    else
      match range packet (offset + 1) (offset + 1 + len.toNat) with
      | .error panic => .error panic
      | .ok bytes =>
        match String.fromUTF8? ⟨bytes.toArray⟩ with
        | none => .ok none
        | some label => readLabels packet (offset + 1 + len.toNat) (labels ++ [label])
termination_by packet.length - offset
decreasing_by omega

/-- `parse_query`. -/
def parseQuery (packet : Bytes) : Except Panic (Option DnsQuery) :=
  if packet.length < 12 then .ok none
  else do
    let count ← u16At packet 4
    if count ≠ 1 then .ok none
    else
      let found ← readLabels packet 12 []
      match found with
      | none => .ok none
      | some (labels, offset) =>
        if packet.length < offset + 4 then .ok none
        else do
          let qtype ← u16At packet offset
          let qclass ← u16At packet (offset + 2)
          return some ⟨Str.toAsciiLowercase (joinLabels labels), qtype, qclass, offset + 4⟩

/-- `emit_response`. -/
def emitResponse (request : Bytes) (query : DnsQuery) (addr : Option Ipv4Address) :
    Except Panic Bytes := do
  let response ← range request 0 query.questionEnd
  let flags := if addr.isSome then FLAG_RESPONSE_NO_ERROR else FLAG_RESPONSE_NAME_ERROR
  let response ← copyFromSlice response 2 4 (toBeBytes 2 flags)
  let response ← copyFromSlice response 6 8 (toBeBytes 2 (if addr.isSome then 1 else 0))
  let response ← copyFromSlice response 8 10 (toBeBytes 2 0)
  let response ← copyFromSlice response 10 12 (toBeBytes 2 0)
  match addr with
  | none => return response
  | some addr =>
    return response ++ [0xc0, 0x0c] ++ toBeBytes 2 TYPE_A ++ toBeBytes 2 CLASS_IN
      ++ toBeBytes 4 TTL_SECONDS ++ toBeBytes 2 4 ++ addr.octets

/-- `answer_query`. -/
def answerQuery (packet : Bytes) (net : VirtualNetwork) : Except Panic (Option Bytes) := do
  let parsed ← parseQuery packet
  match parsed with
  | none => return none
  | some query =>
    let addr := ((net.resolveHostname query.name).filter fun _ =>
      query.qtype = TYPE_A ∧ query.qclass = CLASS_IN).map VirtualService.addr
    let response ← emitResponse packet query addr
    return some response

theorem u16At_eq {packet : Bytes} {i : Nat} (h : i + 2 ≤ packet.length) :
    u16At packet i = .ok (ofBeBytes ((packet.drop i).take 2)) := by
  obtain ⟨high, low, hhigh, hlow, htake⟩ := index_two h
  rw [u16At, hhigh, htake]
  dsimp only [bind, Except.bind]
  rw [hlow]
  rfl

end Checked

/-! ## Labels -/

theorem bytes_of_fromUTF8? {bytes : Bytes} {s : String}
    (h : String.fromUTF8? ⟨bytes.toArray⟩ = some s) : s.toUTF8.data.toList = bytes := by
  rw [String.fromUTF8?] at h
  split at h
  · cases h
    rfl
  · cases h

/-- A label that was read has the length before it. -/
theorem encodeLabel_of_fromUTF8? {len : UInt8} {tail : Bytes} {label : String}
    (hlen : len.toNat ≤ tail.length)
    (h : String.fromUTF8? ⟨(tail.take len.toNat).toArray⟩ = some label) :
    encodeLabel label = len :: tail.take len.toNat ∧ label.utf8ByteSize = len.toNat := by
  have hbytes := bytes_of_fromUTF8? h
  have hsize : label.utf8ByteSize = len.toNat := by
    have hlength := congrArg List.length hbytes
    rw [List.length_take, Nat.min_eq_left hlen] at hlength
    simpa using hlength
  refine ⟨?_, hsize⟩
  rw [encodeLabel, hbytes, hsize, UInt8.ofNat_toNat]

/-- What was read as labels is their encoding. -/
theorem parseLabels_eq_some {fuel : Nat} {bytes : Bytes} {offset : Nat} {labels : List String}
    {questionOffset : Nat} {rest : Bytes}
    (h : parseLabels fuel bytes offset = some (labels, questionOffset, rest)) :
    bytes = labels.flatMap encodeLabel ++ 0 :: rest
      ∧ questionOffset = offset + (labels.flatMap encodeLabel).length + 1
      ∧ ∀ label ∈ labels, 0 < label.utf8ByteSize ∧ label.utf8ByteSize ≤ 63 := by
  induction fuel generalizing bytes offset labels with
  | zero => cases h
  | succ fuel ih =>
    cases bytes with
    | nil => cases h
    | cons len tail =>
      rw [parseLabels] at h
      split at h
      next hzero =>
        cases h
        simp [hzero]
      next hzero =>
        split at h
        next => cases h
        next hbounds =>
          obtain ⟨label, hlabel, h⟩ := Option.bind_eq_some_iff.mp h
          obtain ⟨⟨labels', offset', rest'⟩, hrest, h⟩ := Option.bind_eq_some_iff.mp h
          cases h
          obtain ⟨hdrop, hoffset, hlabels⟩ := ih hrest
          obtain ⟨hencode, hsize⟩ := encodeLabel_of_fromUTF8? (by omega) hlabel
          have hpos : len.toNat ≠ 0 := fun heq => hzero (UInt8.toNat_inj.mp heq)
          refine ⟨?_, ?_, List.forall_mem_cons.mpr ⟨by omega, hlabels⟩⟩
          · rw [List.flatMap_cons, hencode, List.append_assoc, ← hdrop, List.cons_append,
              List.take_append_drop]
          · rw [hoffset, List.flatMap_cons, List.length_append, length_encodeLabel, hsize]
            omega

/-! ## Questions -/

/-- A packet with one complete question, in its parts. -/
structure Question where
  id : Bytes
  flags : Bytes
  /-- The numbers of the records behind the question. -/
  counts : Bytes
  labels : List String
  qtype : Bytes
  qclass : Bytes
  trailing : Bytes
  id_length : id.length = 2
  flags_length : flags.length = 2
  counts_length : counts.length = 6
  label_ok : ∀ label ∈ labels, 0 < label.utf8ByteSize ∧ label.utf8ByteSize ≤ 63
  qtype_length : qtype.length = 2
  qclass_length : qclass.length = 2

/-- A part of a message, behind a part of known length. -/
theorem take_drop_append {before part after : Bytes} {n m : Nat} (hbefore : before.length = n)
    (hpart : part.length = m) : ((before ++ part ++ after).drop n).take m = part := by
  rw [List.append_assoc, List.drop_left' hbefore, List.take_left' hpart]

/-- Two fields of two bytes, and the rest. -/
theorem two_fields (bytes : Bytes) :
    bytes.take 2 ++ ((bytes.drop 2).take 2 ++ bytes.drop 4) = bytes := by
  have hrest : bytes.drop 4 = (bytes.drop 2).drop 2 := by rw [List.drop_drop]
  rw [hrest, List.take_append_drop, List.take_append_drop]

/-- A message with one question. -/
def message (id flags counts question : Bytes) : Bytes :=
  id ++ flags ++ [0, 1] ++ counts ++ question

namespace Question

/-- The bytes of the question. -/
def question (q : Question) : Bytes := q.labels.flatMap encodeLabel ++ 0 :: (q.qtype ++ q.qclass)

def packet (q : Question) : Bytes := message q.id q.flags q.counts q.question ++ q.trailing

def questionEnd (q : Question) : Nat := 12 + q.question.length

/-- The name that is asked for, in lower case. -/
def name (q : Question) : String := Str.toAsciiLowercase (joinLabels q.labels)

def query (q : Question) : DnsQuery :=
  ⟨q.name, ofBeBytes q.qtype, ofBeBytes q.qclass, q.questionEnd⟩

variable (q : Question)

theorem length_message {id flags counts : Bytes} (question : Bytes) (hid : id.length = 2)
    (hflags : flags.length = 2) (hcounts : counts.length = 6) :
    (message id flags counts question).length = 12 + question.length := by
  simp [message, hid, hflags, hcounts]
  omega

theorem length_packet : q.packet.length = q.questionEnd + q.trailing.length := by
  rw [packet, List.length_append,
    length_message _ q.id_length q.flags_length q.counts_length, questionEnd]

/-- The numbers of answers, authorities and additional records. -/
theorem counts_parts :
    ∃ an ns ar : Bytes, q.counts = an ++ ns ++ ar
      ∧ an.length = 2 ∧ ns.length = 2 ∧ ar.length = 2 := by
  have hlength := q.counts_length
  refine ⟨q.counts.take 2, (q.counts.drop 2).take 2, q.counts.drop 4, ?_, ?_, ?_, ?_⟩
  · rw [List.append_assoc, two_fields]
  all_goals
    simp only [List.length_take, List.length_drop]
    omega

theorem length_labels_lt : q.labels.length < q.packet.length + 1 := by
  have hle := length_le_encodeLabels q.labels
  rw [length_packet, questionEnd, question, List.length_append]
  omega

theorem parseQuery_packet : parseQuery q.packet = some q.query := by
  have hcount : (q.packet.drop 4).take 2 = [0, 1] := by
    have hsplit : q.packet
        = q.id ++ q.flags ++ [0, 1] ++ (q.counts ++ q.question ++ q.trailing) := by
      simp [packet, message]
    rw [hsplit]
    exact take_drop_append (by simp [q.id_length, q.flags_length]) rfl
  have hrest : q.packet.drop 12
      = q.labels.flatMap encodeLabel ++ 0 :: (q.qtype ++ q.qclass ++ q.trailing) := by
    have hsplit : q.packet
        = q.id ++ q.flags ++ [0, 1] ++ q.counts ++ (q.question ++ q.trailing) := by
      simp [packet, message]
    rw [hsplit, List.drop_left' (by simp [q.id_length, q.flags_length, q.counts_length]), question]
    simp
  have hlong : ¬ (q.packet.length < 12 ∨ ofBeBytes ((q.packet.drop 4).take 2) ≠ 1) := by
    rw [hcount, length_packet, questionEnd]
    simp only [not_or]
    exact ⟨by omega, by decide⟩
  rw [parseQuery, if_neg hlong, hrest, parseLabels_encode q.label_ok q.length_labels_lt]
  simp only [Option.bind_eq_bind, Option.bind_some]
  have hqtype : (q.qtype ++ q.qclass ++ q.trailing).take 2 = q.qtype := by
    rw [List.append_assoc, List.take_left' q.qtype_length]
  have hqclass : ((q.qtype ++ q.qclass ++ q.trailing).drop 2).take 2 = q.qclass :=
    take_drop_append q.qtype_length q.qclass_length
  rw [if_neg (by simp [q.qtype_length, q.qclass_length]; omega), hqtype, hqclass]
  have hend : 12 + (q.labels.flatMap encodeLabel).length + 1 + 4 = q.questionEnd := by
    simp only [questionEnd, question, List.length_append, List.length_cons, q.qtype_length,
      q.qclass_length]
    omega
  rw [hend]
  rfl

end Question

/-- A header of twelve bytes, with one question. -/
theorem header_parts {packet : Bytes} (hlong : 12 ≤ packet.length)
    (hcount : ofBeBytes ((packet.drop 4).take 2) = 1) :
    packet = message (packet.take 2) ((packet.drop 2).take 2) ((packet.drop 6).take 6)
      (packet.drop 12) := by
  have hbytes : (packet.drop 4).take 2 = [0, 1] := by
    have hlength : ((packet.drop 4).take 2).length = 2 := by
      rw [List.length_take, List.length_drop]
      omega
    have hread := toBeBytes_ofBeBytes ((packet.drop 4).take 2)
    rw [hlength, hcount] at hread
    exact hread.symm
  have hcut : ∀ i n : Nat, packet.drop i = (packet.drop i).take n ++ packet.drop (i + n) :=
    fun i n => by rw [← List.drop_drop, List.take_append_drop]
  calc packet
      = packet.take 2 ++ packet.drop 2 := (List.take_append_drop 2 packet).symm
    _ = packet.take 2 ++ ((packet.drop 2).take 2 ++ packet.drop 4) := by rw [← hcut 2 2]
    _ = packet.take 2 ++ ((packet.drop 2).take 2 ++ ([0, 1] ++ packet.drop 6)) := by
        rw [← hbytes, ← hcut 4 2]
    _ = message (packet.take 2) ((packet.drop 2).take 2) ((packet.drop 6).take 6)
        (packet.drop 12) := by
      simp only [message, List.append_assoc, ← hcut 6 6]

/-- A packet is a query exactly if it has one complete question. -/
theorem parseQuery_eq_some_iff {packet : Bytes} {query : DnsQuery} :
    parseQuery packet = some query ↔ ∃ q : Question, q.packet = packet ∧ q.query = query := by
  constructor
  · intro h
    rw [parseQuery] at h
    split at h
    next => cases h
    next hheader =>
      rw [not_or, not_lt, not_ne_iff] at hheader
      obtain ⟨⟨labels, offset, rest⟩, hlabels, h⟩ := Option.bind_eq_some_iff.mp h
      obtain ⟨hdrop, hoffset, hok⟩ := parseLabels_eq_some hlabels
      dsimp only at h
      split at h
      next => cases h
      next hrest =>
        have hlengths : (rest.take 2).length = 2 ∧ ((rest.drop 2).take 2).length = 2 := by
          simp only [List.length_take, List.length_drop]
          omega
        let q : Question := {
          id := packet.take 2
          flags := (packet.drop 2).take 2
          counts := (packet.drop 6).take 6
          labels := labels
          qtype := rest.take 2
          qclass := (rest.drop 2).take 2
          trailing := rest.drop 4
          id_length := by rw [List.length_take]; omega
          flags_length := by rw [List.length_take, List.length_drop]; omega
          counts_length := by rw [List.length_take, List.length_drop]; omega
          label_ok := hok
          qtype_length := hlengths.1
          qclass_length := hlengths.2 }
        have hquestion : q.question ++ q.trailing = packet.drop 12 := by
          rw [hdrop, Question.question]
          simp only [q, List.append_assoc, List.cons_append, two_fields]
        refine ⟨q, ?_, ?_⟩
        · conv_rhs => rw [header_parts hheader.1 hheader.2, ← hquestion]
          simp [Question.packet, message, q]
        · have hend : q.questionEnd = offset + 4 := by
            rw [hoffset, Question.questionEnd, Question.question]
            simp only [q, List.length_append, List.length_cons, hlengths.1, hlengths.2]
            omega
          rw [← Option.some_inj.mp h, Question.query, hend]
          rfl
  · rintro ⟨q, rfl, rfl⟩
    exact q.parseQuery_packet

/-! ## Responses -/

/-- The record of an address, with a pointer to the name in the question. -/
def answerRecord (addr : Ipv4Address) : Bytes :=
  [0xc0, 0x0c] ++ toBeBytes 2 TYPE_A ++ toBeBytes 2 CLASS_IN ++ toBeBytes 4 TTL_SECONDS
    ++ toBeBytes 2 4 ++ addr.octets

/-- The response to a question. -/
def Question.response (q : Question) (addr : Option Ipv4Address) : Bytes :=
  message q.id
    (toBeBytes 2 (if addr.isSome then FLAG_RESPONSE_NO_ERROR else FLAG_RESPONSE_NAME_ERROR))
    (toBeBytes 2 (if addr.isSome then 1 else 0) ++ toBeBytes 2 0 ++ toBeBytes 2 0) q.question
    ++ addr.toList.flatMap answerRecord

/-- The address that a question is answered with. -/
def Question.addr (q : Question) (net : VirtualNetwork) : Option Ipv4Address :=
  ((net.resolveHostname q.name).filter fun _ =>
    ofBeBytes q.qtype = TYPE_A ∧ ofBeBytes q.qclass = CLASS_IN).map VirtualService.addr

namespace Question

variable (q : Question)

theorem take_questionEnd :
    q.packet.take q.questionEnd = message q.id q.flags q.counts q.question :=
  List.take_left' (length_message _ q.id_length q.flags_length q.counts_length)

theorem emitResponse_packet (addr : Option Ipv4Address) :
    emitResponse q.packet q.query addr = q.response addr := by
  have hmessage : message q.id q.flags q.counts q.question
      = q.id ++ (q.flags ++ [0, 1] ++ q.counts ++ q.question) := by
    simp [message]
  have hid : (message q.id q.flags q.counts q.question).take 2 = q.id := by
    rw [hmessage, List.take_left' q.id_length]
  have hcount : ((message q.id q.flags q.counts q.question).drop 4).take 2 = [0, 1] := by
    have hsplit : message q.id q.flags q.counts q.question
        = q.id ++ q.flags ++ [0, 1] ++ (q.counts ++ q.question) := by
      simp [message]
    rw [hsplit]
    exact take_drop_append (by simp [q.id_length, q.flags_length]) rfl
  have hquestion : (message q.id q.flags q.counts q.question).drop 12 = q.question :=
    List.drop_left' (by simp [q.id_length, q.flags_length, q.counts_length])
  have htake : q.packet.take q.query.questionEnd = _ := q.take_questionEnd
  rw [response]
  cases addr with
  | none =>
    simp only [emitResponse, htake, hid, hcount, hquestion]
    simp [message]
  | some addr =>
    simp only [emitResponse, htake, hid, hcount, hquestion]
    simp [message, answerRecord]

theorem answerQuery_packet (net : VirtualNetwork) :
    answerQuery q.packet net = some (q.response (q.addr net)) := by
  rw [answerQuery, parseQuery_packet, ← emitResponse_packet]
  rfl

end Question

namespace Checked

open Slices

theorem readLabels_eq {packet : Bytes} (fuel : Nat) {offset : Nat}
    (hfuel : packet.length < offset + fuel) (labels : List String) :
    readLabels packet offset labels
      = .ok ((parseLabels fuel (packet.drop offset) offset).map fun found =>
        (labels ++ found.1, found.2.1)) := by
  induction fuel generalizing offset labels with
  | zero =>
    rw [readLabels, List.getElem?_eq_none (by omega)]
    rfl
  | succ fuel ih =>
    rw [readLabels]
    by_cases hoffset : offset < packet.length
    · rw [List.getElem?_eq_getElem hoffset, List.drop_eq_getElem_cons hoffset, parseLabels]
      dsimp only
      generalize packet[offset] = len
      by_cases hzero : len = 0
      · simp [hzero]
      · rw [if_neg hzero, if_neg hzero, List.length_drop]
        by_cases hbounds : 63 < len.toNat ∨ packet.length < offset + 1 + len.toNat
        · rw [if_pos hbounds, if_pos (by omega)]
          rfl
        · rw [if_neg hbounds, if_neg (by omega), range_eq (by omega) (by omega),
            Nat.add_sub_cancel_left]
          dsimp only
          cases hlabel : String.fromUTF8?
              ⟨((packet.drop (offset + 1)).take len.toNat).toArray⟩ with
          | none => rfl
          | some label =>
            dsimp only
            rw [ih (by omega), List.drop_drop]
            simp only [Option.bind_eq_bind, Option.bind_some]
            cases parseLabels fuel (packet.drop (offset + 1 + len.toNat))
                (offset + 1 + len.toNat) with
            | none => rfl
            | some found => simp
    · rw [List.getElem?_eq_none (by omega), List.drop_of_length_le (by omega)]
      rfl

theorem parseQuery_eq (packet : Bytes) : parseQuery packet = .ok (Netstack.parseQuery packet) := by
  rw [parseQuery, Netstack.parseQuery]
  by_cases hshort : packet.length < 12
  · rw [if_pos hshort, if_pos (.inl hshort)]
  · rw [if_neg hshort, u16At_eq (by omega)]
    dsimp only [bind, Except.bind]
    by_cases hcount : ofBeBytes ((packet.drop 4).take 2) ≠ 1
    · rw [if_pos hcount, if_pos (.inr hcount)]
    · rw [if_neg hcount, if_neg (not_or.mpr ⟨hshort, hcount⟩),
        readLabels_eq (packet.length + 1) (by omega)]
      dsimp only
      cases hlabels : parseLabels (packet.length + 1) (packet.drop 12) 12 with
      | none => rfl
      | some found =>
        obtain ⟨labels, offset, rest⟩ := found
        obtain ⟨hdrop, hoffset, -⟩ := parseLabels_eq_some hlabels
        have hrest : rest = packet.drop offset := by
          have hcut : packet.drop offset = (packet.drop 12).drop (offset - 12) := by
            rw [List.drop_drop]
            congr 1
            omega
          rw [hcut, hdrop, List.append_cons]
          exact (List.drop_left' (by rw [List.length_append, List.length_singleton]; omega)).symm
        have hlength : packet.length = offset + rest.length := by
          have hlength := congrArg List.length hdrop
          simp only [List.length_drop, List.length_append, List.length_cons] at hlength
          omega
        simp only [Option.map_some, Option.bind_some, List.nil_append]
        by_cases htail : rest.length < 4
        · rw [if_pos (by omega), if_pos htail]
        · rw [if_neg (by omega), if_neg htail, u16At_eq (by omega), u16At_eq (by omega), hrest,
            List.drop_drop]
          rfl

/-- The response is written without an access out of bounds. -/
theorem emitResponse_eq (q : Question) (addr : Option Ipv4Address) :
    emitResponse q.packet q.query addr = .ok (q.response addr) := by
  have hrange : range q.packet 0 q.query.questionEnd
      = .ok (message q.id q.flags q.counts q.question) := by
    have hend : q.query.questionEnd ≤ q.packet.length := by
      rw [q.length_packet]
      exact Nat.le_add_right _ _
    rw [range_eq (Nat.zero_le _) hend]
    exact congrArg Except.ok q.take_questionEnd
  obtain ⟨an, ns, ar, hcounts, han, hns, har⟩ := q.counts_parts
  have htwo : ∀ x, (toBeBytes 2 x).length = 2 := length_toBeBytes 2
  generalize hflags : toBeBytes 2 (if addr.isSome then FLAG_RESPONSE_NO_ERROR
    else FLAG_RESPONSE_NAME_ERROR) = flags
  generalize hcount : toBeBytes 2 (if addr.isSome then 1 else 0) = count
  have hflags_length : flags.length = 2 := hflags ▸ htwo _
  have hcount_length : count.length = 2 := hcount ▸ htwo _
  have hcopyFlags : copyFromSlice (q.id ++ q.flags ++ ([0, 1] ++ an ++ ns ++ ar ++ q.question)) 2 4
      flags = .ok (q.id ++ flags ++ ([0, 1] ++ an ++ ns ++ ar ++ q.question)) :=
    copyFromSlice_append q.id_length (by rw [q.flags_length])
      (hflags_length.trans q.flags_length.symm)
  have hcopyCount : copyFromSlice (q.id ++ flags ++ [0, 1] ++ an ++ (ns ++ ar ++ q.question)) 6 8
      count = .ok (q.id ++ flags ++ [0, 1] ++ count ++ (ns ++ ar ++ q.question)) :=
    copyFromSlice_append (by simp [q.id_length, hflags_length]) (by rw [han])
      (hcount_length.trans han.symm)
  have hcopyNs : copyFromSlice (q.id ++ flags ++ [0, 1] ++ count ++ ns ++ (ar ++ q.question)) 8 10
      (toBeBytes 2 0) = .ok (q.id ++ flags ++ [0, 1] ++ count ++ toBeBytes 2 0
        ++ (ar ++ q.question)) :=
    copyFromSlice_append (by simp [q.id_length, hflags_length, hcount_length]) (by rw [hns])
      ((htwo 0).trans hns.symm)
  have hcopyAr : copyFromSlice (q.id ++ flags ++ [0, 1] ++ count ++ toBeBytes 2 0 ++ ar
      ++ q.question) 10 12 (toBeBytes 2 0)
        = .ok (q.id ++ flags ++ [0, 1] ++ count ++ toBeBytes 2 0 ++ toBeBytes 2 0
          ++ q.question) :=
    copyFromSlice_append (by simp [q.id_length, hflags_length, hcount_length, htwo]) (by rw [har])
      ((htwo 0).trans har.symm)
  simp only [List.append_assoc] at hcopyFlags hcopyCount hcopyNs hcopyAr
  simp only [emitResponse, hrange, message, hcounts, List.append_assoc, bind, Except.bind, hflags,
    hcount, hcopyFlags, hcopyCount, hcopyNs, hcopyAr, Question.response]
  cases addr with
  | none => simp [pure, Except.pure]
  | some addr => simp [pure, Except.pure, answerRecord]

theorem answerQuery_eq (packet : Bytes) (net : VirtualNetwork) :
    answerQuery packet net = .ok (Netstack.answerQuery packet net) := by
  rw [answerQuery, parseQuery_eq]
  dsimp only [bind, Except.bind]
  cases hquery : Netstack.parseQuery packet with
  | none => rw [Netstack.answerQuery, hquery]; rfl
  | some query =>
    obtain ⟨q, rfl, rfl⟩ := parseQuery_eq_some_iff.mp hquery
    dsimp only
    rw [emitResponse_eq, q.answerQuery_packet]
    rfl

end Checked

/-! ## What a response says -/

/-- A field of two bytes. -/
def field (message : Bytes) (offset : Nat) : Nat := ofBeBytes ((message.drop offset).take 2)

/-- The fields of a message that starts with words of two bytes. -/
theorem field_words {words : List Nat} {i x : Nat} (hi : words[i]? = some x) (hx : x < 256 ^ 2)
    (rest : Bytes) : field (words.flatMap (toBeBytes 2) ++ rest) (2 * i) = x := by
  induction words generalizing i with
  | nil => cases hi
  | cons word words ih =>
    rw [List.flatMap_cons, List.append_assoc, field]
    cases i with
    | zero =>
      rw [List.getElem?_cons_zero, Option.some_inj] at hi
      rw [Nat.mul_zero, List.drop_zero, List.take_left' (length_toBeBytes 2 word), hi,
        ofBeBytes_toBeBytes_of_lt hx]
    | succ i =>
      have hword : 2 * (i + 1) = (toBeBytes 2 word).length + 2 * i := by
        rw [length_toBeBytes]
        omega
      rw [hword, List.drop_length_add_append]
      exact ih hi

theorem length_answerRecord (addr : Ipv4Address) : (answerRecord addr).length = 16 := by
  simp [answerRecord, length_toBeBytes, Ipv4Address.octets]

namespace Question

variable (q : Question) (addr : Option Ipv4Address)

/-- The words of the header of a response. -/
def responseWords : List Nat :=
  [ofBeBytes q.id, if addr.isSome then FLAG_RESPONSE_NO_ERROR else FLAG_RESPONSE_NAME_ERROR, 1,
    addr.toList.length, 0, 0]

theorem response_eq :
    q.response addr = (q.responseWords addr).flatMap (toBeBytes 2)
      ++ (q.question ++ addr.toList.flatMap answerRecord) := by
  have hid : toBeBytes 2 (ofBeBytes q.id) = q.id := by
    rw [← q.id_length, toBeBytes_ofBeBytes]
  have hone : toBeBytes 2 1 = [0, 1] := by decide
  have hcount : (if addr.isSome then 1 else 0) = addr.toList.length := by
    cases addr <;> rfl
  rw [response, hcount]
  simp only [responseWords, message, List.flatMap_cons, List.flatMap_nil, hid, hone,
    List.append_assoc, List.append_nil]

theorem length_header : ((q.responseWords addr).flatMap (toBeBytes 2)).length = 12 := by
  simp [responseWords, length_toBeBytes]

theorem length_response :
    (q.response addr).length = q.questionEnd + 16 * addr.toList.length := by
  have hanswers : (addr.toList.flatMap answerRecord).length = 16 * addr.toList.length := by
    cases addr <;> simp [length_answerRecord]
  rw [response_eq, List.length_append, List.length_append, length_header, hanswers, questionEnd]
  omega

/-- The response starts with the id of the query, and has its question. -/
theorem response_keeps :
    (q.response addr).take 2 = q.packet.take 2
      ∧ ((q.response addr).drop 12).take q.question.length
        = (q.packet.drop 12).take q.question.length
      ∧ (q.response addr).drop q.questionEnd = addr.toList.flatMap answerRecord := by
  have hquestion : (q.packet.drop 12).take q.question.length = q.question :=
    take_drop_append (by simp [q.id_length, q.flags_length, q.counts_length]) rfl
  refine ⟨?_, ?_, ?_⟩
  · rw [response, packet, message, message]
    simp only [List.append_assoc]
    rw [List.take_left' q.id_length, List.take_left' q.id_length]
  · rw [hquestion, response_eq, ← List.append_assoc]
    exact take_drop_append (q.length_header addr) rfl
  · rw [response_eq, ← List.append_assoc]
    exact List.drop_left' (by rw [List.length_append, length_header, questionEnd])

theorem mem_addr {net : VirtualNetwork} {addr : Ipv4Address} (h : addr ∈ q.addr net) :
    ∃ service, net.resolveHostname q.name = some service ∧ addr = service.addr := by
  obtain ⟨service, hservice, rfl⟩ := Option.map_eq_some_iff.mp h
  exact ⟨service, (Option.filter_eq_some_iff.mp hservice).1, rfl⟩

end Question

/-- **The DNS responder.**  It answers exactly the packets with one complete question, and
no access to the packet is out of bounds.  The response has the id and the question of the
query, one question, as many answers as it says, and no other records.  An answer is the
address of the service with the name. -/
theorem dns_responder (packet : Bytes) (net : VirtualNetwork) :
    ((answerQuery packet net).isSome = true ↔ ∃ q : Question, q.packet = packet)
      ∧ Checked.answerQuery packet net = .ok (answerQuery packet net)
      ∧ ∀ response, answerQuery packet net = some response →
        ∃ (q : Question) (answers : List Ipv4Address), q.packet = packet
          ∧ response.take 2 = packet.take 2
          ∧ (response.drop 12).take q.question.length = (packet.drop 12).take q.question.length
          ∧ field response 2 / 2 ^ 15 = 1
          ∧ field response 4 = 1
          ∧ field response 6 = answers.length ∧ answers.length ≤ 1
          ∧ field response 8 = 0 ∧ field response 10 = 0
          ∧ response.drop q.questionEnd = answers.flatMap answerRecord
          ∧ response.length = q.questionEnd + 16 * answers.length
          ∧ ∀ addr ∈ answers, ∃ service, net.resolveHostname q.name = some service
            ∧ addr = service.addr := by
  have hquestion : ∀ response, answerQuery packet net = some response →
      ∃ q : Question, q.packet = packet ∧ response = q.response (q.addr net) := by
    intro response hresponse
    obtain ⟨query, hquery, -⟩ := Option.bind_eq_some_iff.mp hresponse
    obtain ⟨q, rfl, -⟩ := parseQuery_eq_some_iff.mp hquery
    rw [q.answerQuery_packet, Option.some_inj] at hresponse
    exact ⟨q, rfl, hresponse.symm⟩
  refine ⟨⟨fun hsome => ?_, ?_⟩, Checked.answerQuery_eq packet net, fun response hresponse => ?_⟩
  · obtain ⟨response, hresponse⟩ := Option.isSome_iff_exists.mp hsome
    obtain ⟨q, hq, -⟩ := hquestion response hresponse
    exact ⟨q, hq⟩
  · rintro ⟨q, rfl⟩
    rw [q.answerQuery_packet]
    rfl
  · obtain ⟨q, rfl, rfl⟩ := hquestion response hresponse
    obtain ⟨hid, hsame, hanswers⟩ := q.response_keeps (q.addr net)
    have hle : (q.addr net).toList.length ≤ 1 := Option.length_toList_le
    have hfield : ∀ i x, (q.responseWords (q.addr net))[i]? = some x → x < 256 ^ 2 →
        field (q.response (q.addr net)) (2 * i) = x := by
      intro i x hi hx
      rw [q.response_eq]
      exact field_words hi hx _
    have hflags : field (q.response (q.addr net)) 2 / 2 ^ 15 = 1 := by
      rw [hfield 1 _ rfl (by split <;> decide)]
      split <;> decide
    exact ⟨q, (q.addr net).toList, rfl, hid, hsame, hflags, hfield 2 1 rfl (by decide),
      hfield 3 _ rfl (by omega), hle, hfield 4 0 rfl (by decide), hfield 5 0 rfl (by decide),
      hanswers, q.length_response _, fun addr haddr => q.mem_addr (Option.mem_toList.mp haddr)⟩

/-! ## Name errors -/

/-- The response code. -/
def rcode (response : Bytes) : Nat := field response 2 % 16

/-- A service has the name.  Dots at the end of a name say nothing. -/
def VirtualNetwork.HasName (net : VirtualNetwork) (name : String) : Prop :=
  ∃ service ∈ net.services, service.hostname = Str.trimEndMatches (· = '.') name

theorem Question.rcode_response (q : Question) (addr : Option Ipv4Address) :
    rcode (q.response addr) = 3 ↔ addr = none := by
  have hflags : field (q.response addr) 2
      = if addr.isSome then FLAG_RESPONSE_NO_ERROR else FLAG_RESPONSE_NAME_ERROR := by
    rw [q.response_eq]
    exact field_words (i := 1) rfl (by split <;> decide) _
  rw [rcode, hflags]
  cases addr with
  | none => exact iff_of_true (by decide) rfl
  | some addr => exact iff_of_false (by simp [FLAG_RESPONSE_NO_ERROR]) nofun

/-- A name in lower case is in lower case without its last dots. -/
theorem toAsciiLowercase_trimEndMatches (p : Char → Bool) (s : String) :
    Str.toAsciiLowercase (Str.trimEndMatches p (Str.toAsciiLowercase s))
      = Str.trimEndMatches p (Str.toAsciiLowercase s) := by
  refine Str.toAsciiLowercase_eq_self fun c hc => ?_
  have hmem : c ∈ (Str.toAsciiLowercase s).toList := by
    rw [Str.trimEndMatches, String.toList_ofList, List.mem_reverse] at hc
    exact List.mem_reverse.mp ((List.dropWhile_sublist p).mem hc)
  rw [Str.toAsciiLowercase, String.toList_ofList] at hmem
  obtain ⟨d, -, rfl⟩ := List.mem_map.mp hmem
  exact Char.isUpper_toLower_eq_false d

section Network

variable {lowercase : Lowercase} {services : List PublishedService}

theorem lookup_hostname_isSome_iff {hostname : String} :
    ((network lowercase services).byHostname.lookup hostname).isSome = true
      ↔ ∃ service ∈ (network lowercase services).services, service.hostname = hostname := by
  constructor
  · intro hsome
    -- the index that is found is one of a service with the name
    obtain ⟨i, hi⟩ := Option.isSome_iff_exists.mp hsome
    obtain ⟨⟨published, hpublished, hname⟩, -⟩ := lookup_hostname_iff.mp hi
    exact ⟨_, List.mem_of_getElem? (services_getElem?.mpr ⟨published, hpublished, rfl⟩), hname⟩
  · rintro ⟨service, hmem, rfl⟩
    obtain ⟨i, hi⟩ := List.mem_iff_getElem?.mp hmem
    obtain ⟨published, hpublished, rfl⟩ := services_getElem?.mp hi
    obtain ⟨last, other, hlast, hname, hmax⟩ := exists_last lowercase hpublished
    exact Option.isSome_iff_exists.mpr
      ⟨last, lookup_hostname_iff.mpr ⟨⟨other, hlast, hname⟩, hmax⟩⟩

/-- A name is found exactly if a service has it. -/
theorem resolveHostname_isSome_iff (q : Question) :
    ((network lowercase services).resolveHostname q.name).isSome = true
      ↔ (network lowercase services).HasName q.name := by
  rw [VirtualNetwork.HasName, ← lookup_hostname_isSome_iff, VirtualNetwork.resolveHostname,
    Question.name, toAsciiLowercase_trimEndMatches]
  cases hlookup : (network lowercase services).byHostname.lookup
      (Str.trimEndMatches (· = '.') (Str.toAsciiLowercase (joinLabels q.labels))) with
  | none => rfl
  | some i =>
    obtain ⟨⟨published, hpublished, -⟩, -⟩ := lookup_hostname_iff.mp hlookup
    rw [Option.bind_some, services_getElem?.mpr ⟨published, hpublished, rfl⟩]
    rfl

/-- The response is a name error exactly for the names no service has, if the query asks for
an address of the internet class or if no service has the name.  A query of another type or
class for the name of a service is answered with a name error. -/
theorem name_error_iff_absent {net : VirtualNetwork}
    (built : VirtualNetwork.new lowercase services = .ok net) (q : Question) :
    (∃ response, answerQuery q.packet net = some response
        ∧ (rcode response = 3 ↔ ¬ net.HasName q.name))
      ↔ (ofBeBytes q.qtype = TYPE_A ∧ ofBeBytes q.qclass = CLASS_IN) ∨ ¬ net.HasName q.name := by
  obtain ⟨-, rfl⟩ := VirtualNetwork.new_eq_ok_iff.mp built
  have haddr : q.addr (network lowercase services) = none
      ↔ ((ofBeBytes q.qtype = TYPE_A ∧ ofBeBytes q.qclass = CLASS_IN) →
        ¬ (network lowercase services).HasName q.name) := by
    rw [← resolveHostname_isSome_iff, Question.addr, Option.map_eq_none_iff]
    cases (network lowercase services).resolveHostname q.name <;> simp
  have hanswer : (∃ response, answerQuery q.packet (network lowercase services) = some response
        ∧ (rcode response = 3 ↔ ¬ (network lowercase services).HasName q.name))
      ↔ (q.addr (network lowercase services) = none
        ↔ ¬ (network lowercase services).HasName q.name) := by
    simp only [q.answerQuery_packet, Option.some_inj, exists_eq_left', q.rcode_response]
  rw [hanswer, haddr]
  tauto

end Network

/-- A query for the IPv6 address of `svc-web.medium`. -/
def sampleQuestion : Question where
  id := [0x12, 0x34]
  flags := [1, 0]
  counts := [0, 0, 0, 0, 0, 0]
  labels := ["svc-web", "medium"]
  qtype := [0, 28]
  qclass := [0, 1]
  trailing := []
  id_length := rfl
  flags_length := rfl
  counts_length := rfl
  label_ok := by decide +kernel
  qtype_length := rfl
  qclass_length := rfl

/-- The same for the IPv4 address. -/
def addressQuestion : Question :=
  { sampleQuestion with qtype := [0, 1], qtype_length := rfl }

/-- A name that no service has. -/
def absentQuestion : Question :=
  { sampleQuestion with labels := ["other", "medium"], label_ok := by decide +kernel }

/-- The address of a service is found, and a name that no service has is a name error. -/
theorem name_error_iff_absent_sample :
    ∃ net, VirtualNetwork.new asciiLowercase sampleServices = .ok net
      ∧ (∃ response, answerQuery addressQuestion.packet net = some response
        ∧ rcode response ≠ 3)
      ∧ ∃ response, answerQuery absentQuestion.packet net = some response
        ∧ rcode response = 3 := by
  have hbuilt : VirtualNetwork.new asciiLowercase sampleServices
      = .ok (network asciiLowercase sampleServices) :=
    VirtualNetwork.new_eq_ok_iff.mpr ⟨by decide, rfl⟩
  have hname : (network asciiLowercase sampleServices).HasName addressQuestion.name := by
    rw [← resolveHostname_isSome_iff]
    decide +kernel
  have habsent : ¬ (network asciiLowercase sampleServices).HasName absentQuestion.name := by
    rw [← resolveHostname_isSome_iff]
    decide +kernel
  obtain ⟨found, hfound, hcode⟩ := (name_error_iff_absent hbuilt addressQuestion).mpr
    (.inl ⟨rfl, rfl⟩)
  obtain ⟨missing, hmissing, hcode'⟩ := (name_error_iff_absent hbuilt absentQuestion).mpr
    (.inr habsent)
  exact ⟨_, hbuilt, ⟨found, hfound, fun h => hcode.mp h hname⟩, missing, hmissing,
    hcode'.mpr habsent⟩

/-- The name of a service, asked for its IPv6 address, is a name error. -/
theorem name_error_for_service :
    ∃ net response, VirtualNetwork.new asciiLowercase sampleServices = .ok net
      ∧ net.services[1]? = some ⟨"svc-web", sampleQuestion.name, ⟨10, 88, 0, 11⟩, "https"⟩
      ∧ answerQuery sampleQuestion.packet net = some response
      ∧ rcode response = 3 := by
  refine ⟨network asciiLowercase sampleServices, sampleQuestion.response none, ?_⟩
  decide +kernel

end MediumOverlay.Netstack
