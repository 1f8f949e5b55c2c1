import MediumOverlay.Lib.Str
import MediumOverlay.Protocol.Hostname
import MediumOverlay.Transport.Packet

/-!
# The virtual network

The network stack on a phone gives every service an address of its own in
`10.88.0.0/24` and answers DNS queries for the names of the services.

`VirtualNetwork.new` accepts a list of at most 201 services, and what it makes of the
list is `network` (`new_eq_ok_iff`).  Addresses differ, so a service is found by its
address.  Names need not: the service that comes last has the name.  A query for a
name is answered with the address of the service exactly if no later service has the
name and the name has labels of at most 63 bytes (`service_reachable_iff`).
-/

namespace MediumOverlay.Netstack

open BigEndian

/-! ## Addresses -/

structure Ipv4Address where
  a : UInt8
  b : UInt8
  c : UInt8
  d : UInt8
deriving DecidableEq, Repr

def Ipv4Address.octets (addr : Ipv4Address) : Bytes := [addr.a, addr.b, addr.c, addr.d]

def DEFAULT_SERVICE_BASE : Ipv4Address := ⟨10, 88, 0, 10⟩

def DEFAULT_DNS_ADDR : Ipv4Address := ⟨10, 88, 0, 1⟩

def DEFAULT_CLIENT_ADDR : Ipv4Address := ⟨10, 88, 0, 2⟩

def DEFAULT_PREFIX_LEN : Nat := 24

/-- `service_addr`. -/
def serviceAddr (index : Nat) : Except AnyhowError Ipv4Address :=
  if 65535 < index then .error (.message "out of range integral type conversion attempted")
  else
    let host := DEFAULT_SERVICE_BASE.d.toUInt16 + .ofNat index
    if 254 < host then
      .error (.message "service address outside default Medium virtual subnet")
    else .ok { DEFAULT_SERVICE_BASE with d := host.toUInt8 }

/-! ## Services -/

structure PublishedService where
  id : String
  label : Option String
  kind : String
deriving DecidableEq, Repr

structure VirtualService where
  id : String
  hostname : String
  addr : Ipv4Address
  kind : String
deriving DecidableEq, Repr

/-- `service_hostname`. -/
def serviceHostname (lowercase : Lowercase) (value : String) : String :=
  normalizeHostnameLabel lowercase value ++ ".medium"

/-- `VirtualNetwork`.  A map is the list of its insertions, the last one first. -/
structure VirtualNetwork where
  clientAddr : Ipv4Address
  dnsAddr : Ipv4Address
  prefixLen : Nat
  services : List VirtualService
  byHostname : List (String × Nat)
  byAddr : List (Ipv4Address × Nat)
deriving DecidableEq, Repr

namespace VirtualNetwork

/-- One turn of the loop of `VirtualNetwork::new`. -/
def allocate (lowercase : Lowercase) (net : VirtualNetwork) (service : PublishedService)
    (index : Nat) : Except AnyhowError VirtualNetwork :=
  if 200 < index then .error (.message "too many services for default Medium virtual subnet")
  else
    let hostname := serviceHostname lowercase (service.label.getD service.id)
    match serviceAddr index with
    | .error error => .error error
    | .ok addr =>
      .ok { net with
        services := net.services ++ [⟨service.id, hostname, addr, service.kind⟩]
        byHostname := (hostname, net.services.length) :: net.byHostname
        byAddr := (addr, net.services.length) :: net.byAddr }

/-- `VirtualNetwork::new`. -/
def new (lowercase : Lowercase) (services : List PublishedService) :
    Except AnyhowError VirtualNetwork :=
  services.zipIdx.foldlM (fun net x => net.allocate lowercase x.1 x.2)
    ⟨DEFAULT_CLIENT_ADDR, DEFAULT_DNS_ADDR, DEFAULT_PREFIX_LEN, [], [], []⟩

/-- `resolve_hostname`. -/
def resolveHostname (net : VirtualNetwork) (hostname : String) : Option VirtualService :=
  let hostname := Str.toAsciiLowercase (Str.trimEndMatches (· = '.') hostname)
  (net.byHostname.lookup hostname).bind (net.services[·]?)

/-- `service_for_addr`. -/
def serviceForAddr (net : VirtualNetwork) (addr : Ipv4Address) : Option VirtualService :=
  (net.byAddr.lookup addr).bind (net.services[·]?)

end VirtualNetwork

/-! ## DNS -/

def TYPE_A : Nat := 1

def CLASS_IN : Nat := 1

def FLAG_RESPONSE_NO_ERROR : Nat := 0x8180

def FLAG_RESPONSE_NAME_ERROR : Nat := 0x8183

def TTL_SECONDS : Nat := 30

structure DnsQuery where
  name : String
  qtype : Nat
  qclass : Nat
  questionEnd : Nat
deriving DecidableEq, Repr

/-- `labels.join(".")`. -/
def joinLabels (labels : List String) : String :=
  .ofList (['.'].intercalate (labels.map String.toList))

/-- The loop of `parse_query` over the labels, from an offset on.  Each turn reads at
least a byte, so the number of bytes is enough fuel. -/
def parseLabels : Nat → Bytes → Nat → Option (List String × Nat × Bytes)
  | 0, _, _ => none
  | _ + 1, [], _ => none
  | fuel + 1, len :: rest, offset =>
    if len = 0 then some ([], offset + 1, rest)
    else if 63 < len.toNat ∨ rest.length < len.toNat then none
    else do
      let label ← String.fromUTF8? ⟨(rest.take len.toNat).toArray⟩
      let (labels, questionOffset, rest) ←
        parseLabels fuel (rest.drop len.toNat) (offset + 1 + len.toNat)
      return (label :: labels, questionOffset, rest)

/-- `parse_query`. -/
def parseQuery (packet : Bytes) : Option DnsQuery :=
  if packet.length < 12 ∨ ofBeBytes ((packet.drop 4).take 2) ≠ 1 then none
  else do
    let (labels, offset, rest) ← parseLabels (packet.length + 1) (packet.drop 12) 12
    if rest.length < 4 then none
    else some {
      name := Str.toAsciiLowercase (joinLabels labels)
      qtype := ofBeBytes (rest.take 2)
      qclass := ofBeBytes ((rest.drop 2).take 2)
      questionEnd := offset + 4 }

/-- `emit_response`. -/
def emitResponse (request : Bytes) (query : DnsQuery) (addr : Option Ipv4Address) : Bytes :=
  let question := request.take query.questionEnd
  let flags := if addr.isSome then FLAG_RESPONSE_NO_ERROR else FLAG_RESPONSE_NAME_ERROR
  question.take 2 ++ toBeBytes 2 flags ++ (question.drop 4).take 2
    ++ toBeBytes 2 (if addr.isSome then 1 else 0) ++ toBeBytes 2 0 ++ toBeBytes 2 0
    ++ question.drop 12
    ++ match addr with
      | none => []
      | some addr => [0xc0, 0x0c] ++ toBeBytes 2 TYPE_A ++ toBeBytes 2 CLASS_IN
          ++ toBeBytes 4 TTL_SECONDS ++ toBeBytes 2 4 ++ addr.octets

/-- `answer_query`. -/
def answerQuery (packet : Bytes) (net : VirtualNetwork) : Option Bytes := do
  let query ← parseQuery packet
  let addr := ((net.resolveHostname query.name).filter fun _ =>
    query.qtype = TYPE_A ∧ query.qclass = CLASS_IN).map VirtualService.addr
  return emitResponse packet query addr

/-! ## What a network holds -/

/-- The address of the service at an index. -/
def addrAt (index : Nat) : Ipv4Address := ⟨10, 88, 0, .ofNat (10 + index)⟩

/-- The hostname of a service. -/
def hostnameOf (lowercase : Lowercase) (service : PublishedService) : String :=
  serviceHostname lowercase (service.label.getD service.id)

/-- The service at an index. -/
def virtualService (lowercase : Lowercase) (x : PublishedService × Nat) : VirtualService :=
  ⟨x.1.id, hostnameOf lowercase x.1, addrAt x.2, x.1.kind⟩

/-- The network of a list of services. -/
def network (lowercase : Lowercase) (services : List PublishedService) : VirtualNetwork where
  clientAddr := DEFAULT_CLIENT_ADDR
  dnsAddr := DEFAULT_DNS_ADDR
  prefixLen := DEFAULT_PREFIX_LEN
  services := services.zipIdx.map (virtualService lowercase)
  byHostname := (services.zipIdx.map fun x => (hostnameOf lowercase x.1, x.2)).reverse
  byAddr := (services.zipIdx.map fun x => (addrAt x.2, x.2)).reverse

theorem serviceAddr_eq {index : Nat} (h : index ≤ 200) :
    serviceAddr index = .ok (addrAt index) := by
  have hlt : ¬65535 < index := by omega
  have hhost : (DEFAULT_SERVICE_BASE.d.toUInt16 + .ofNat index : UInt16) = .ofNat (10 + index) := by
    rw [UInt16.ofNat_add]
    rfl
  have hnat : (UInt16.ofNat (10 + index)).toNat = 10 + index := by
    rw [UInt16.toNat_ofNat', Nat.mod_eq_of_lt (by omega)]
  rw [serviceAddr, if_neg hlt, hhost]
  dsimp only
  rw [if_neg ?_]
  · rw [addrAt, UInt16.toUInt8_ofNat']
    rfl
  · rw [UInt16.lt_iff_toNat_lt, hnat]
    show ¬254 < 10 + index
    omega

namespace VirtualNetwork

theorem allocate_network (lowercase : Lowercase) (services : List PublishedService)
    (service : PublishedService) :
    (network lowercase services).allocate lowercase service services.length
      = if 200 < services.length then
          .error (.message "too many services for default Medium virtual subnet")
        else .ok (network lowercase (services ++ [service])) := by
  unfold allocate
  split
  next => rfl
  next h =>
    rw [serviceAddr_eq (by omega)]
    simp [network, virtualService, hostnameOf, List.zipIdx_append]

/-- A list is accepted if it has at most 201 services. -/
theorem new_eq (lowercase : Lowercase) (services : List PublishedService) :
    new lowercase services
      = if 201 < services.length then
          .error (.message "too many services for default Medium virtual subnet")
        else .ok (network lowercase services) := by
  induction services using List.reverseRecOn with
  | nil => rfl
  | append_singleton services service ih =>
    unfold new at ih ⊢
    rw [List.zipIdx_append, List.foldlM_append, ih, List.length_append, List.length_singleton]
    by_cases hlong : 201 < services.length
    · rw [if_pos hlong, if_pos (by omega)]
      rfl
    · rw [if_neg hlong]
      have hstep := allocate_network lowercase services service
      simp only [Nat.zero_add, List.zipIdx_singleton, List.foldlM_cons, List.foldlM_nil, bind,
        Except.bind, hstep]
      by_cases hfull : 200 < services.length
      · rw [if_pos hfull, if_pos (by omega)]
      · rw [if_neg hfull, if_neg (by omega)]
        rfl

theorem new_eq_ok_iff {lowercase : Lowercase} {services : List PublishedService}
    {net : VirtualNetwork} :
    new lowercase services = .ok net
      ↔ services.length ≤ 201 ∧ net = network lowercase services := by
  rw [new_eq]
  split
  next h => simp [Nat.not_le.mpr h]
  next h => simp [Nat.not_lt.mp h, eq_comm]

end VirtualNetwork

/-- A map from the values of a list to the indexes has the last index of a value. -/
theorem lookup_reverse_zipIdx {α κ : Type} [DecidableEq κ] (f : α × Nat → κ) (l : List α) (k : κ)
    (i : Nat) :
    (l.zipIdx.map fun x => (f x, x.2)).reverse.lookup k = some i
      ↔ (∃ a, l[i]? = some a ∧ f (a, i) = k)
        ∧ ∀ j b, l[j]? = some b → f (b, j) = k → j ≤ i := by
  induction l using List.reverseRecOn with
  | nil => simp
  | append_singleton l a ih =>
    simp only [List.zipIdx_append, List.zipIdx_singleton, Nat.zero_add, List.map_append,
      List.map_cons, List.map_nil, List.reverse_append, List.reverse_cons, List.reverse_nil,
      List.nil_append, List.singleton_append, List.lookup_cons]
    have hlast : (l ++ [a])[l.length]? = some a := by simp
    have hlt : ∀ {j b}, (l ++ [a])[j]? = some b → j ≤ l.length := by
      intro j b hb
      have := (List.getElem?_eq_some_iff.mp hb).1
      simp only [List.length_append, List.length_singleton] at this
      omega
    by_cases hk : k = f (a, l.length)
    · -- the new pair is in front
      simp only [hk, beq_self_eq_true, Option.some.injEq]
      constructor
      · rintro rfl
        exact ⟨⟨a, hlast, rfl⟩, fun j b hb _ => hlt hb⟩
      · rintro ⟨⟨b, hb, -⟩, hmax⟩
        exact le_antisymm (hmax _ a hlast rfl) (hlt hb)
    · simp only [beq_eq_false_iff_ne.mpr hk, ih]
      have hold : ∀ {j b},
          (l ++ [a])[j]? = some b ∧ f (b, j) = k ↔ l[j]? = some b ∧ f (b, j) = k := by
        intro j b
        rcases lt_trichotomy j l.length with hj | rfl | hj
        · rw [List.getElem?_append_left hj]
        · rw [hlast]
          simp only [Option.some.injEq, List.getElem?_length, reduceCtorEq, false_and, iff_false]
          rintro ⟨rfl, hf⟩
          exact hk hf.symm
        · have hlong : (l ++ [a]).length ≤ j := by
            rw [List.length_append, List.length_singleton]
            exact hj
          rw [List.getElem?_eq_none hlong, List.getElem?_eq_none hj.le]
      simp only [← and_imp, hold]

section Network

variable {lowercase : Lowercase} {services : List PublishedService} {i : Nat}

theorem services_getElem? {service : VirtualService} :
    (network lowercase services).services[i]? = some service
      ↔ ∃ published, services[i]? = some published
        ∧ service = virtualService lowercase (published, i) := by
  simp [network, List.getElem?_map, List.getElem?_zipIdx, eq_comm]

theorem addrAt_inj {j : Nat} (hi : i ≤ 200) (hj : j ≤ 200) (h : addrAt i = addrAt j) : i = j := by
  have hd := congrArg (fun addr => addr.d.toNat) h
  simp only [addrAt, UInt8.toNat_ofNat'] at hd
  omega

variable {published : PublishedService}

/-- A service is found by its address. -/
theorem serviceForAddr_addrAt (hlen : services.length ≤ 201) (h : services[i]? = some published) :
    (network lowercase services).serviceForAddr (addrAt i)
      = some (virtualService lowercase (published, i)) := by
  have hlookup : (network lowercase services).byAddr.lookup (addrAt i) = some i := by
    refine (lookup_reverse_zipIdx (fun x => addrAt x.2) services (addrAt i) i).mpr
      ⟨⟨published, h, rfl⟩, fun j other hj heq => ?_⟩
    have hi := (List.getElem?_eq_some_iff.mp h).1
    have hj := (List.getElem?_eq_some_iff.mp hj).1
    exact (addrAt_inj (by omega) (by omega) heq).le
  rw [VirtualNetwork.serviceForAddr, hlookup, Option.bind_some, services_getElem?]
  exact ⟨published, h, rfl⟩

theorem isUpper_serviceHostname (lowercase : Lowercase) (value : String) :
    ∀ c ∈ (serviceHostname lowercase value).toList, c.isUpper = false := by
  have hsuffix : ∀ c ∈ ".medium".toList, c.isUpper = false := by simp [Char.isUpper]
  intro c hc
  rw [serviceHostname, String.toList_append, List.mem_append] at hc
  rcases hc with hc | hc
  · rcases (isLabel_normalizeHostnameLabel lowercase value).chars c hc with rfl | hlabel
    · decide
    · have hrange := isLabelChar_iff.mp hlabel
      rw [Bool.eq_false_iff, ne_eq, isUpper_iff]
      omega
  · exact hsuffix c hc

/-- The name of a service is the key under which it is looked up. -/
theorem lookupKey_serviceHostname (lowercase : Lowercase) (value : String) :
    Str.toAsciiLowercase (Str.trimEndMatches (· = '.') (serviceHostname lowercase value))
      = serviceHostname lowercase value := by
  have htrim : Str.trimEndMatches (· = '.') (serviceHostname lowercase value)
      = serviceHostname lowercase value := by
    simp [Str.trimEndMatches, serviceHostname]
  rw [htrim, Str.toAsciiLowercase_eq_self (isUpper_serviceHostname lowercase value)]

/-- The name of a service finds the last service with it. -/
theorem resolveHostname_serviceHostname (net : VirtualNetwork) (value : String) :
    net.resolveHostname (serviceHostname lowercase value)
      = (net.byHostname.lookup (serviceHostname lowercase value)).bind (net.services[·]?) := by
  rw [VirtualNetwork.resolveHostname, lookupKey_serviceHostname]

/-- **Normal form.**  A hostname is a label under `.medium`.  The label is made of words of small
letters and digits, with one dash between two, and has itself for its label.  Hostnames are stored
under themselves, so a service is looked up by the name that it was stored with. -/
theorem hostname_normal_form (lowercase : Lowercase) (value : String) :
    (∃ label parts, serviceHostname lowercase value = label ++ ".medium"
        ∧ label.toList = ['-'].intercalate parts ∧ parts ≠ []
        ∧ (∀ part ∈ parts, part ≠ [] ∧ ∀ c ∈ part, isLabelChar c = true)
        ∧ serviceHostname lowercase label = serviceHostname lowercase value)
      ∧ Str.toAsciiLowercase (Str.trimEndMatches (· = '.') (serviceHostname lowercase value))
        = serviceHostname lowercase value
      ∧ ∀ services net, VirtualNetwork.new lowercase services = .ok net →
        ∀ entry ∈ net.byHostname,
          Str.toAsciiLowercase (Str.trimEndMatches (· = '.') entry.1) = entry.1 := by
  refine ⟨?_, lookupKey_serviceHostname lowercase value, ?_⟩
  · have hlabel := isLabel_normalizeHostnameLabel lowercase value
    have hslug := hlabel.slug
    have hidem : serviceHostname lowercase (normalizeHostnameLabel lowercase value)
        = serviceHostname lowercase value := by
      rw [serviceHostname, serviceHostname, normalizeHostnameLabel_idem]
    cases hcs : (normalizeHostnameLabel lowercase value).toList with
    | nil => exact absurd (String.toList_eq_nil_iff.mp hcs) hlabel.ne_empty
    | cons c cs =>
      rw [hcs] at hslug
      obtain ⟨first, parts, hparts, hall⟩ := hslug.exists_parts
      refine ⟨_, (c :: first) :: parts, rfl, hcs.trans hparts, by simp, ?_, hidem⟩
      intro part hpart
      obtain ⟨hne, hdash⟩ := hall part hpart
      refine ⟨hne, fun d hd => ?_⟩
      have hmem : d ∈ (normalizeHostnameLabel lowercase value).toList := by
        rw [hcs, hparts]
        exact Slug.subset_intercalate hpart hd
      exact (hlabel.chars d hmem).resolve_left fun heq => hdash (heq ▸ hd)
  · rintro services net hnet entry hentry
    obtain ⟨-, rfl⟩ := VirtualNetwork.new_eq_ok_iff.mp hnet
    obtain ⟨x, -, rfl⟩ := List.mem_map.mp (List.mem_reverse.mp hentry)
    exact lookupKey_serviceHostname lowercase _

/-! ## Queries on the wire -/

/-- A label: its length and its bytes. -/
def encodeLabel (label : String) : Bytes :=
  .ofNat label.utf8ByteSize :: label.toUTF8.data.toList

/-- A DNS query for the address of a name: a header with one question, the labels of
the name, the type and the class, and whatever else the header announces. -/
structure AQuery where
  header : Bytes
  labels : List String
  trailing : Bytes
  header_length : header.length = 12
  one_question : (header.drop 4).take 2 = [0, 1]
  label_ok : ∀ label ∈ labels,
    '.' ∉ label.toList ∧ 0 < label.utf8ByteSize ∧ label.utf8ByteSize ≤ 63

namespace AQuery

def name (query : AQuery) : String := joinLabels query.labels

/-- The labels and the end of the name. -/
def encodedName (query : AQuery) : Bytes := query.labels.flatMap encodeLabel ++ [0]

def packet (query : AQuery) : Bytes :=
  query.header ++ query.encodedName ++ [0, 1, 0, 1] ++ query.trailing

/-- The response with one answer: the header without an error, the question, and a
record that points to the name in the question. -/
def answer (query : AQuery) (addr : Ipv4Address) : Bytes :=
  query.header.take 2 ++ [0x81, 0x80, 0, 1, 0, 1, 0, 0, 0, 0] ++ query.encodedName ++ [0, 1, 0, 1]
    ++ [0xc0, 0x0c, 0, 1, 0, 1, 0, 0, 0, 30, 0, 4] ++ addr.octets

theorem answer_inj {query : AQuery} {addr addr' : Ipv4Address}
    (h : query.answer addr = query.answer addr') : addr = addr' := by
  obtain ⟨a, b, c, d⟩ := addr
  obtain ⟨a', b', c', d'⟩ := addr'
  simpa [answer, Ipv4Address.octets] using h

end AQuery

theorem length_encodeLabel (label : String) :
    (encodeLabel label).length = label.utf8ByteSize + 1 := by
  simp [encodeLabel]

theorem length_le_encodeLabels (labels : List String) :
    labels.length ≤ (labels.flatMap encodeLabel).length := by
  induction labels with
  | nil => simp
  | cons label labels ih =>
    rw [List.flatMap_cons, List.length_append, length_encodeLabel, List.length_cons]
    omega

/-- The labels of a name are read back. -/
theorem parseLabels_encode {labels : List String}
    (h : ∀ label ∈ labels, 0 < label.utf8ByteSize ∧ label.utf8ByteSize ≤ 63)
    {fuel : Nat} (hfuel : labels.length < fuel) (rest : Bytes) (offset : Nat) :
    parseLabels fuel (labels.flatMap encodeLabel ++ 0 :: rest) offset
      = some (labels, offset + (labels.flatMap encodeLabel).length + 1, rest) := by
  induction labels generalizing fuel offset with
  | nil =>
    obtain ⟨fuel, rfl⟩ := Nat.exists_eq_add_of_lt hfuel
    simp [parseLabels]
  | cons label labels ih =>
    obtain ⟨fuel, rfl⟩ := Nat.exists_eq_succ_of_ne_zero (Nat.ne_zero_of_lt hfuel)
    obtain ⟨hlabel, hlabels⟩ := List.forall_mem_cons.mp h
    obtain ⟨hpos, hle⟩ := hlabel
    have hlen : (UInt8.ofNat label.utf8ByteSize).toNat = label.utf8ByteSize := by
      rw [UInt8.toNat_ofNat', Nat.mod_eq_of_lt (by omega)]
    have hzero : UInt8.ofNat label.utf8ByteSize ≠ 0 := by
      intro hzero
      rw [hzero] at hlen
      have : (0 : UInt8).toNat = 0 := rfl
      omega
    have hbytes : label.toUTF8.data.toList.length = label.utf8ByteSize := by simp
    have hutf8 : String.fromUTF8? ⟨label.toUTF8.data.toList.toArray⟩ = some label := by
      rw [Array.toArray_toList]
      exact dif_pos label.isValidUTF8
    rw [List.flatMap_cons, encodeLabel, List.cons_append, List.cons_append, parseLabels,
      if_neg hzero, hlen, if_neg (by simp; omega), List.append_assoc, ← hbytes, List.take_left,
      List.drop_left, hutf8]
    simp only [Option.bind_eq_bind, Option.bind_some, ih hlabels (by simpa using hfuel)]
    refine congrArg (fun offset => some (label :: labels, offset, rest)) ?_
    rw [List.length_cons, List.length_append]
    omega

namespace AQuery

variable (query : AQuery)

theorem length_encodedName : query.encodedName.length
    = (query.labels.flatMap encodeLabel).length + 1 := by
  simp [encodedName]

/-- The labels are no more than the bytes of the packet. -/
theorem length_labels_lt : query.labels.length < query.packet.length + 1 := by
  have hle := length_le_encodeLabels query.labels
  simp only [packet, List.length_append, length_encodedName]
  omega

theorem parseQuery_packet : parseQuery query.packet
    = some ⟨Str.toAsciiLowercase query.name, TYPE_A, CLASS_IN,
      12 + query.encodedName.length + 4⟩ := by
  have hpacket : query.packet
      = query.header ++ (query.encodedName ++ ([0, 1, 0, 1] ++ query.trailing)) := by
    simp [packet]
  have hcount : (query.packet.drop 4).take 2 = [0, 1] := by
    rw [hpacket, List.drop_append_of_le_length (by rw [query.header_length]; omega),
      List.take_append_of_le_length (by simp [query.header_length]), query.one_question]
  have hrest : query.packet.drop 12
      = query.labels.flatMap encodeLabel ++ 0 :: ([0, 1, 0, 1] ++ query.trailing) := by
    rw [hpacket, ← query.header_length, List.drop_left, encodedName]
    simp
  have hlong : ¬query.packet.length < 12 := by
    rw [hpacket, List.length_append, query.header_length]
    omega
  rw [parseQuery, if_neg (by rw [hcount]; simp only [not_or]; exact ⟨hlong, by decide⟩), hrest,
    parseLabels_encode (fun label hlabel => (query.label_ok label hlabel).2)
      query.length_labels_lt]
  simp only [Option.bind_eq_bind, Option.bind_some]
  rw [if_neg (by simp), length_encodedName]
  rfl

/-- A query for a service is answered with its address. -/
theorem answerQuery_packet {net : VirtualNetwork} {service : VirtualService}
    (h : net.resolveHostname (Str.toAsciiLowercase query.name) = some service) :
    answerQuery query.packet net = some (query.answer service.addr) := by
  have hquestion : query.packet.take (12 + query.encodedName.length + 4)
      = query.header ++ (query.encodedName ++ [0, 1, 0, 1]) := by
    have hlen : (query.header ++ (query.encodedName ++ [0, 1, 0, 1])).length
        = 12 + query.encodedName.length + 4 := by
      simp only [List.length_append, query.header_length, List.length_cons, List.length_nil]
      omega
    have hpacket : query.packet
        = (query.header ++ (query.encodedName ++ [0, 1, 0, 1])) ++ query.trailing := by
      simp [packet]
    rw [hpacket, ← hlen, List.take_left]
  -- the parts of the header that the response keeps
  have hid : (query.header ++ (query.encodedName ++ [0, 1, 0, 1])).take 2
      = query.header.take 2 :=
    List.take_append_of_le_length (by rw [query.header_length]; omega)
  have hcount : ((query.header ++ (query.encodedName ++ [0, 1, 0, 1])).drop 4).take 2 = [0, 1] := by
    rw [List.drop_append_of_le_length (by rw [query.header_length]; omega),
      List.take_append_of_le_length (by simp [query.header_length]), query.one_question]
  have hbody : (query.header ++ (query.encodedName ++ [0, 1, 0, 1])).drop 12
      = query.encodedName ++ [0, 1, 0, 1] := by
    rw [← query.header_length, List.drop_left]
  rw [answerQuery, parseQuery_packet]
  simp only [Option.bind_eq_bind, Option.bind_some, h, and_self, decide_true,
    Option.filter_some_pos, Option.map_some, emitResponse, hquestion, hid, hcount, hbody,
    Option.isSome_some, if_true]
  simp [answer, toBeBytes, FLAG_RESPONSE_NO_ERROR, TYPE_A, CLASS_IN, TTL_SECONDS]

end AQuery

/-! ## Names on the wire -/

theorem dot_notMem_normalizeHostnameLabel (lowercase : Lowercase) (value : String) :
    '.' ∉ (normalizeHostnameLabel lowercase value).toList := by
  intro hdot
  rcases (isLabel_normalizeHostnameLabel lowercase value).chars _ hdot with hdash | hlabel
  · exact absurd hdash (by decide)
  · exact absurd hlabel (by decide)

theorem toList_serviceHostname (lowercase : Lowercase) (value : String) :
    (serviceHostname lowercase value).toList
      = ['.'].intercalate [(normalizeHostnameLabel lowercase value).toList, "medium".toList] := by
  simp [serviceHostname, List.intercalate]

/-- The labels of a name that has no other labels with dots in them. -/
theorem labels_of_name_eq {query : AQuery} {value : String}
    (h : query.name = serviceHostname lowercase value) :
    query.labels = [normalizeHostnameLabel lowercase value, "medium"] := by
  have hjoin : ['.'].intercalate (query.labels.map String.toList)
      = ['.'].intercalate [(normalizeHostnameLabel lowercase value).toList, "medium".toList] := by
    have hlist := congrArg String.toList h
    rwa [AQuery.name, joinLabels, String.toList_ofList, toList_serviceHostname] at hlist
  have hne : query.labels.map String.toList ≠ [] := by
    intro hnil
    rw [hnil] at hjoin
    simp [List.intercalate] at hjoin
  have hdots : ∀ l ∈ query.labels.map String.toList, '.' ∉ l := by
    intro l hl
    obtain ⟨label, hlabel, rfl⟩ := List.mem_map.mp hl
    exact (query.label_ok label hlabel).1
  have hdots' : ∀ l ∈ [(normalizeHostnameLabel lowercase value).toList, "medium".toList],
      '.' ∉ l := by
    simp only [List.forall_mem_cons, List.not_mem_nil, false_implies, implies_true, and_true]
    exact ⟨dot_notMem_normalizeHostnameLabel lowercase value, by simp⟩
  have hlabels := congrArg (List.splitOn '.') hjoin
  rw [List.splitOn_intercalate '.' hdots hne,
    List.splitOn_intercalate '.' hdots' (by simp)] at hlabels
  refine List.map_injective_iff.mpr (fun a b => String.toList_inj.mp) ?_
  simpa using hlabels

theorem exists_query_iff {value : String} :
    (∃ query : AQuery, query.name = serviceHostname lowercase value)
      ↔ (serviceHostname lowercase value).utf8ByteSize ≤ 70 := by
  have hsize : (serviceHostname lowercase value).utf8ByteSize
      = (normalizeHostnameLabel lowercase value).utf8ByteSize + 7 := by
    rw [serviceHostname, String.utf8ByteSize_append]
    rfl
  constructor
  · rintro ⟨query, hname⟩
    have hmem : normalizeHostnameLabel lowercase value ∈ query.labels := by
      rw [labels_of_name_eq hname]
      exact List.mem_cons_self
    have hle := (query.label_ok _ hmem).2.2
    omega
  · intro hle
    have hlabel := isLabel_normalizeHostnameLabel lowercase value
    refine ⟨{
      header := [0, 0, 1, 0, 0, 1, 0, 0, 0, 0, 0, 0]
      labels := [normalizeHostnameLabel lowercase value, "medium"]
      trailing := []
      header_length := rfl
      one_question := rfl
      label_ok := ?_ }, ?_⟩
    · simp only [List.forall_mem_cons, List.not_mem_nil, false_implies, implies_true, and_true]
      refine ⟨⟨dot_notMem_normalizeHostnameLabel lowercase value, ?_, by omega⟩, ?_⟩
      · rw [Nat.pos_iff_ne_zero, ne_eq, String.utf8ByteSize_eq_zero_iff]
        exact hlabel.ne_empty
      · exact ⟨by simp, by decide, by decide⟩
    · refine String.toList_inj.mp ?_
      rw [AQuery.name, joinLabels, String.toList_ofList, toList_serviceHostname]
      rfl

/-- The services with a hostname, by their indexes. -/
theorem lookup_hostname_iff {hostname : String} :
    (network lowercase services).byHostname.lookup hostname = some i
      ↔ (∃ published, services[i]? = some published ∧ hostnameOf lowercase published = hostname)
        ∧ ∀ j other, services[j]? = some other → hostnameOf lowercase other = hostname → j ≤ i :=
  lookup_reverse_zipIdx (fun x => hostnameOf lowercase x.1) services hostname i

/-- A query for the name of a service is answered with the address of the last service
with the name. -/
theorem answerQuery_of_last {query : AQuery} {last : Nat} (hlast : services[last]? = some published)
    (hname : query.name = hostnameOf lowercase published)
    (hmax : ∀ j other, services[j]? = some other →
      hostnameOf lowercase other = hostnameOf lowercase published → j ≤ last) :
    answerQuery query.packet (network lowercase services) = some (query.answer (addrAt last)) := by
  have hresolve : (network lowercase services).resolveHostname (Str.toAsciiLowercase query.name)
      = some (virtualService lowercase (published, last)) := by
    have hlookup := lookup_hostname_iff.mpr ⟨⟨published, hlast, rfl⟩, hmax⟩
    rw [hostnameOf] at hname hlookup
    rw [hname, Str.toAsciiLowercase_eq_self (isUpper_serviceHostname lowercase _),
      resolveHostname_serviceHostname, hlookup, Option.bind_some, services_getElem?]
    exact ⟨published, hlast, rfl⟩
  exact query.answerQuery_packet hresolve

/-- There is a last service with a name. -/
theorem exists_last (lowercase : Lowercase) (h : services[i]? = some published) :
    ∃ (last : Nat) (other : PublishedService), services[last]? = some other
      ∧ hostnameOf lowercase other = hostnameOf lowercase published
      ∧ ∀ j other, services[j]? = some other →
        hostnameOf lowercase other = hostnameOf lowercase published → j ≤ last := by
  cases hlookup : (network lowercase services).byHostname.lookup
      (hostnameOf lowercase published) with
  | none =>
    have hmem :
        (hostnameOf lowercase published, i) ∈ (network lowercase services).byHostname := by
      refine List.mem_reverse.mpr (List.mem_map.mpr ⟨(published, i), ?_, rfl⟩)
      exact List.mem_zipIdx_iff_getElem?.mpr h
    exact absurd (List.lookup_eq_none_iff.mp hlookup _ hmem) (by simp)
  | some last =>
    obtain ⟨⟨other, hlast, hname⟩, hmax⟩ := lookup_hostname_iff.mp hlookup
    exact ⟨last, other, hlast, hname, hmax⟩

/-- Among the services of a network, one has its own address in the subnet and is found
by it.  It is also found by its name exactly if no service behind it has that name and
the name has a label of at most 63 bytes before `.medium`. -/
theorem service_reachable_iff {net : VirtualNetwork}
    (built : VirtualNetwork.new lowercase services = .ok net) {i : Nat} {service : VirtualService}
    (hi : net.services[i]? = some service) :
    ((∀ j other, net.services[j]? = some other → other.addr = service.addr → j = i)
        ∧ (service.addr.a = 10 ∧ service.addr.b = 88 ∧ service.addr.c = 0
          ∧ 10 ≤ service.addr.d ∧ service.addr.d ≤ 210)
        ∧ net.serviceForAddr service.addr = some service
        ∧ (∃ query : AQuery, query.name = service.hostname)
        ∧ ∀ query : AQuery, query.name = service.hostname →
          answerQuery query.packet net = some (query.answer service.addr))
      ↔ (∀ j other, net.services[j]? = some other → other.hostname = service.hostname → j ≤ i)
        ∧ service.hostname.utf8ByteSize ≤ 70 := by
  obtain ⟨hlen, rfl⟩ := VirtualNetwork.new_eq_ok_iff.mp built
  obtain ⟨published, hpublished, rfl⟩ := services_getElem?.mp hi
  have hlt : ∀ {j other}, services[j]? = some other → j ≤ 200 := by
    intro j other hj
    have := (List.getElem?_eq_some_iff.mp hj).1
    omega
  have hdistinct : ∀ j other, (network lowercase services).services[j]? = some other →
      other.addr = addrAt i → j = i := by
    intro j other hj haddr
    obtain ⟨published', hj', rfl⟩ := services_getElem?.mp hj
    exact addrAt_inj (hlt hj') (hlt hpublished) haddr
  have hrange : 10 ≤ (addrAt i).d ∧ (addrAt i).d ≤ 210 := by
    have hle := hlt hpublished
    simp only [addrAt, UInt8.le_iff_toNat_le, UInt8.toNat_ofNat']
    show 10 ≤ _ ∧ _ ≤ 210
    omega
  have hlater : (∀ j other, (network lowercase services).services[j]? = some other →
        other.hostname = hostnameOf lowercase published → j ≤ i)
      ↔ ∀ j other, services[j]? = some other →
        hostnameOf lowercase other = hostnameOf lowercase published → j ≤ i := by
    constructor
    · intro h j other hj hname
      exact h j _ (services_getElem?.mpr ⟨other, hj, rfl⟩) hname
    · intro h j other hj hname
      obtain ⟨published', hj', rfl⟩ := services_getElem?.mp hj
      exact h j published' hj' hname
  have hquery : (∃ query : AQuery, query.name = hostnameOf lowercase published)
      ↔ (hostnameOf lowercase published).utf8ByteSize ≤ 70 := exists_query_iff
  simp only [virtualService, hlater, ← hquery]
  constructor
  · rintro ⟨-, -, -, ⟨query, hname⟩, hanswer⟩
    refine ⟨?_, query, hname⟩
    -- the answer is the address of the last service with the name
    obtain ⟨last, other, hlast, hsame, hmax⟩ := exists_last lowercase hpublished
    have heq := answerQuery_of_last hlast (hname.trans hsame.symm) (by rw [hsame]; exact hmax)
    have haddr := AQuery.answer_inj (Option.some.inj (heq.symm.trans (hanswer query hname)))
    rw [← addrAt_inj (hlt hlast) (hlt hpublished) haddr]
    exact hmax
  · rintro ⟨hmax, hquery⟩
    refine ⟨hdistinct, ⟨rfl, rfl, rfl, hrange⟩, serviceForAddr_addrAt hlen hpublished, hquery, ?_⟩
    exact fun query hname => answerQuery_of_last hpublished hname hmax

end Network

/-! ### Two services with one name -/

/-- A query for `svc-web.medium`. -/
def sampleQuery : AQuery where
  header := [0x12, 0x34, 1, 0, 0, 1, 0, 0, 0, 0, 0, 0]
  labels := ["svc-web", "medium"]
  trailing := []
  header_length := rfl
  one_question := rfl
  label_ok := by decide +kernel

def sampleServices : List PublishedService :=
  [⟨"svc_web", none, "https"⟩, ⟨"svc-web", none, "https"⟩]

theorem service_reachable_iff_last :
    ∃ net service, VirtualNetwork.new asciiLowercase sampleServices = .ok net
      ∧ net.services[1]? = some service
      ∧ net.serviceForAddr service.addr = some service
      ∧ ∀ query : AQuery, query.name = service.hostname →
        answerQuery query.packet net = some (query.answer service.addr) := by
  have hbuilt : VirtualNetwork.new asciiLowercase sampleServices
      = .ok (network asciiLowercase sampleServices) :=
    VirtualNetwork.new_eq_ok_iff.mpr ⟨by decide, rfl⟩
  have hservice : (network asciiLowercase sampleServices).services[1]?
      = some ⟨"svc-web", "svc-web.medium", ⟨10, 88, 0, 11⟩, "https"⟩ := by
    decide +kernel
  have hreachable := (service_reachable_iff hbuilt hservice).mpr ⟨?_, by decide +kernel⟩
  · exact ⟨_, _, hbuilt, hservice, hreachable.2.2.1, hreachable.2.2.2.2⟩
  · intro j other hj _
    have hlt := (List.getElem?_eq_some_iff.mp hj).1
    exact Nat.le_of_lt_succ hlt

/-- A query for the name of the first service is answered with the address of the
second. -/
theorem name_taken :
    ∃ net, VirtualNetwork.new asciiLowercase sampleServices = .ok net
      ∧ net.services[0]? = some ⟨"svc_web", "svc-web.medium", ⟨10, 88, 0, 10⟩, "https"⟩
      ∧ sampleQuery.name = "svc-web.medium"
      ∧ answerQuery sampleQuery.packet net = some (sampleQuery.answer ⟨10, 88, 0, 11⟩) := by
  refine ⟨network asciiLowercase sampleServices, ?_⟩
  decide +kernel

end MediumOverlay.Netstack
