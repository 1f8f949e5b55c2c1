import MediumOverlay.Cli.Ssh
import MediumOverlay.Protocol.Hostname
import MediumOverlay.Transport.PinnedHttp

/-!
# The query of a session

To open a session a client with a pinned control plane writes the identifiers into the query of a
URL by itself.  `percent_encode` leaves letters, digits and `-._~` as they are and escapes every
other byte, so an encoded value has no separator, space or line end in it.  The control plane
reads back the identifiers and nothing else, and the request line is one line
(`session_query_exact`).

The URL parser is a parameter.  It is assumed to leave a query of such characters alone, and to
take the rest of the URL as it would without the query, unless the rest ends in a blank: blanks at
the end of a URL are dropped.
-/

namespace MediumOverlay

open FormUrlencoded PinnedHttp

/-! ## The client -/

/-- The bytes that `percent_encode` does not escape. -/
def isPlainByte (b : UInt8) : Bool :=
  (65 ≤ b && b ≤ 90) || (97 ≤ b && b ≤ 122) || (48 ≤ b && b ≤ 57) || b = 45 || b = 46 || b = 95
    || b = 126

def percentEncodeByte (b : UInt8) : List Char :=
  if isPlainByte b then [.ofNat b.toNat]
  else ['%', hexDigit (b.toNat / 16), hexDigit (b.toNat % 16)]

/-- `percent_encode`. -/
def percentEncode (value : String) : List Char :=
  (Utf8.encode value.toList).flatMap percentEncodeByte

/-- The fields that `open_session_for_node` writes. -/
def sessionFields (request : SessionOpenRequest) : List (String × String) :=
  [("service_id", request.serviceId), ("requester_device_id", request.requesterDeviceId)]
    ++ (request.nodeId.map fun nodeId => ("node_id", nodeId)).toList

/-- The query of `open_session_for_node`. -/
def sessionQuery (request : SessionOpenRequest) : String :=
  .ofList (['&'].intercalate
    ((sessionFields request).map fun f => Query.field (f.1.toList, percentEncode f.2)))

/-- The URL of `open_session_for_node` without the query. -/
def sessionUrl (serverUrl : String) : String :=
  Str.trimEndMatches (· = '/') serverUrl ++ "/api/sessions/open"

/-! ## The control plane -/

/-- A field of a struct that `serde_urlencoded` reads: not there, or there once. -/
def readField (name : String) (pairs : List (String × String)) : Option (Option String) :=
  match pairs.filter fun pair => pair.1 = name with
  | [] => some none
  | [pair] => some (some pair.2)
  | _ => none

/-- `Query<SessionOpenRequest>`. -/
def readSessionRequest (query : String) : Option SessionOpenRequest := do
  let pairs := (parse query.toList).map (Prod.map String.ofList String.ofList)
  let serviceId ← (← readField "service_id" pairs)
  let requesterDeviceId ← (← readField "requester_device_id" pairs)
  let nodeId ← readField "node_id" pairs
  return ⟨serviceId, requesterDeviceId, nodeId⟩

/-! ## The URL parser -/

/-- The characters of an encoded query. -/
def isEncodedChar (c : Char) : Bool := c.isAlphanum || "-._~%=&".toList.contains c

/-- `Url::parse`. -/
structure UrlParser where
  parse : String → Option PinnedHttp.Url
  parse_query : ∀ base query, '?' ∉ base.toList → '#' ∉ base.toList →
    (∀ c ∈ base.toList.getLast?, 33 ≤ c.toNat) →
    query.toList.all isEncodedChar = true → ∀ url, parse (base ++ "?" ++ query) = some url →
    url.query = some query ∧ ∃ plain, parse base = some plain ∧ url.path = plain.path
  path_chars : ∀ text url, parse text = some url → url.scheme = "https" →
    ∀ c ∈ url.path.toList, 33 ≤ c.toNat ∧ c ≠ '?'

/-! ## Encoded values -/

theorem plainByte_spec : ∀ n < 256, isPlainByte (.ofNat n) = true →
    Utf8.isAscii (.ofNat n) = true ∧ isEncodedChar (.ofNat n) = true
      ∧ Char.ofNat n ∉ ['%', '+', '&', '='] := by
  decide +kernel

theorem hexDigit_encoded : ∀ n < 16, isEncodedChar (hexDigit n) = true
    ∧ hexDigit n ∉ ['%', '+', '&', '='] := by
  decide +kernel

/-- What is read of a byte, and its characters. -/
theorem percentEncodeByte_spec (b : UInt8) :
    (∀ cs, percentDecode (percentEncodeByte b ++ cs) = b :: percentDecode cs)
      ∧ ∀ c ∈ percentEncodeByte b, isEncodedChar c = true ∧ c ∉ ['+', '&', '='] := by
  have hlt := b.toNat_lt
  unfold percentEncodeByte
  split
  next hplain =>
    obtain ⟨hascii, hencoded, hother⟩ :=
      plainByte_spec b.toNat hlt (by rwa [UInt8.ofNat_toNat])
    simp only [List.mem_cons, not_or] at hother
    obtain ⟨hpercent, hother⟩ := hother
    refine ⟨fun cs => ?_, fun c hc => ?_⟩
    · rw [List.singleton_append, percentDecode_cons hpercent,
        Utf8.utf8EncodeChar_of_isAscii hascii, toNat_ofNat_toNat, UInt8.ofNat_toNat,
        List.singleton_append]
    · rw [List.mem_singleton.mp hc]
      exact ⟨hencoded, by simpa using hother⟩
  next =>
    obtain ⟨hhigh, hhigh'⟩ := hexDigit_encoded (b.toNat / 16) (by omega)
    obtain ⟨hlow, hlow'⟩ := hexDigit_encoded (b.toNat % 16) (by omega)
    refine ⟨percentDecode_escape b, fun c hc => ?_⟩
    simp only [List.mem_cons, List.not_mem_nil, or_false] at hc
    obtain rfl | rfl | rfl := hc
    · decide
    · exact ⟨hhigh, List.not_mem_of_not_mem_cons hhigh'⟩
    · exact ⟨hlow, List.not_mem_of_not_mem_cons hlow'⟩

theorem percentEncode_chars (value : String) :
    ∀ c ∈ percentEncode value, isEncodedChar c = true ∧ c ∉ ['+', '&', '='] := by
  intro c hc
  obtain ⟨b, -, hb⟩ := List.mem_flatMap.mp hc
  exact (percentEncodeByte_spec b).2 c hb

theorem percentDecode_percentEncode (bytes : List UInt8) :
    percentDecode (bytes.flatMap percentEncodeByte) = bytes := by
  induction bytes with
  | nil => rfl
  | cons b bytes ih => rw [List.flatMap_cons, (percentEncodeByte_spec b).1, ih]

theorem decode_percentEncode (value : String) : decode (percentEncode value) = value.toList := by
  have hplus : '+' ∉ percentEncode value := fun h =>
    absurd List.mem_cons_self (percentEncode_chars value _ h).2
  rw [decode, map_plusToSpace_eq_self_iff.mpr hplus, FormUrlencoded.unescape, percentEncode,
    percentDecode_percentEncode, Utf8.lossy_encode]

/-! ## The query -/

variable {request : SessionOpenRequest}

theorem sessionFields_keys :
    ∀ f ∈ sessionFields request, f.1 ∈ ["service_id", "requester_device_id", "node_id"] := by
  obtain ⟨serviceId, deviceId, nodeId⟩ := request
  cases nodeId <;> simp [sessionFields]

theorem key_spec : ∀ key ∈ ["service_id", "requester_device_id", "node_id"],
    Query.IsKey decode key.toList ∧ key.toList.all isEncodedChar = true := by
  have hkeys : ∀ key ∈ ["service_id", "requester_device_id", "node_id"],
      '=' ∉ key.toList ∧ '&' ∉ key.toList ∧ ('+' ∉ key.toList ∧ hasEscape key.toList = false)
        ∧ key.toList.all isEncodedChar = true := by
    decide +kernel
  intro key hkey
  obtain ⟨heq, hamp, hliteral, hchars⟩ := hkeys key hkey
  exact ⟨⟨heq, hamp, decode_of_isLiteral hliteral⟩, hchars⟩

/-- The query is read back as its fields. -/
theorem parse_sessionQuery :
    (parse (sessionQuery request).toList).map (Prod.map String.ofList String.ofList)
      = sessionFields request := by
  have hfield : ∀ f ∈ sessionFields request,
      Query.pairs readPiece (Query.field (f.1.toList, percentEncode f.2))
        = [(f.1.toList, f.2.toList)] := by
    intro f hf
    have hamp : '&' ∉ percentEncode f.2 := fun h =>
      absurd (by simp) (percentEncode_chars f.2 _ h).2
    rw [Query.pairs_field reads_readPiece (key_spec _ (sessionFields_keys f hf)).1 hamp,
      decode_percentEncode]
  -- There are two fields at least.
  have hpieces : Query.pairs readPiece (sessionQuery request).toList
      = (sessionFields request).flatMap fun f =>
        Query.pairs readPiece (Query.field (f.1.toList, percentEncode f.2)) := by
    rw [sessionQuery, String.toList_ofList, ← List.flatMap_map]
    exact Query.pairs_intercalate _ _
  rw [parse, hpieces, List.flatMap_congr hfield, ← List.map_eq_flatMap, List.map_map]
  simp [Function.comp_def, Prod.map]

theorem mem_intercalate {c sep : Char} :
    ∀ {pieces : List (List Char)}, c ∈ [sep].intercalate pieces →
      c = sep ∨ ∃ piece ∈ pieces, c ∈ piece
  | [], h => absurd h List.not_mem_nil
  | [piece], h => .inr ⟨piece, List.mem_cons_self, by simpa using h⟩
  | piece :: next :: rest, h => by
    rw [List.intercalate_cons_cons, List.append_assoc, List.mem_append, List.mem_append,
      List.mem_singleton] at h
    obtain h | h | h := h
    · exact .inr ⟨piece, List.mem_cons_self, h⟩
    · exact .inl h
    · exact (mem_intercalate h).imp_right fun ⟨other, hother, hc⟩ =>
        ⟨other, List.mem_cons_of_mem _ hother, hc⟩

theorem sessionQuery_chars : (sessionQuery request).toList.all isEncodedChar = true := by
  rw [sessionQuery, String.toList_ofList, List.all_eq_true]
  intro c hc
  obtain rfl | ⟨piece, hpiece, hc⟩ := mem_intercalate hc
  · decide
  · obtain ⟨f, hf, rfl⟩ := List.mem_map.mp hpiece
    obtain hc | hc := List.mem_append.mp hc
    · exact List.all_eq_true.mp (key_spec _ (sessionFields_keys f hf)).2 c hc
    · obtain rfl | hc := List.mem_cons.mp hc
      · decide
      · exact (percentEncode_chars f.2 c hc).1

theorem readSessionRequest_sessionQuery :
    readSessionRequest (sessionQuery request) = some request := by
  unfold readSessionRequest
  rw [parse_sessionQuery]
  obtain ⟨serviceId, deviceId, nodeId⟩ := request
  cases nodeId <;> simp [sessionFields, readField]

theorem isEncodedChar_spec {c : Char} (h : isEncodedChar c = true) : 33 ≤ c.toNat := by
  rw [isEncodedChar, Bool.or_eq_true] at h
  obtain h | h := h
  · rw [isAlphanum_iff, isUpper_iff, isLower_iff, isDigit_iff] at h
    omega
  · have hall : "-._~%=&".toList.all (fun c => 33 ≤ c.toNat) = true := by decide +kernel
    rw [List.contains_iff_mem] at h
    exact of_decide_eq_true (List.all_eq_true.mp hall c h)

/-- **The query of a session.**  It is read back as the identifiers and nothing else, whatever
they are.  The request line has the path of the URL and the query as they are, between two spaces
and before the first line end, and the query is what is behind the first question mark. -/
theorem session_query_exact (urls : UrlParser) (serverUrl : String)
    (request : SessionOpenRequest) (hquery : '?' ∉ serverUrl.toList)
    (hfragment : '#' ∉ serverUrl.toList) :
    (parse (sessionQuery request).toList).map (Prod.map String.ofList String.ofList)
        = sessionFields request
      ∧ readSessionRequest (sessionQuery request) = some request
      ∧ ∀ url host, urls.parse (sessionUrl serverUrl ++ "?" ++ sessionQuery request) = some url →
        url.scheme = "https" →
        (∃ plain, urls.parse (sessionUrl serverUrl) = some plain ∧ url.path = plain.path)
          ∧ ∃ target rest, requestHeader .get url host []
              = "GET " ++ target ++ " HTTP/1.1\r\nhost: " ++ host ++ rest
            ∧ rest = "\r\naccept: application/json\r\nconnection: close\r\n\r\n"
            ∧ (∀ c ∈ target.toList, 33 ≤ c.toNat)
            ∧ Str.splitOnce '?' target = some (url.path, sessionQuery request) := by
  refine ⟨parse_sessionQuery, readSessionRequest_sessionQuery, ?_⟩
  intro url host hurl hscheme
  have hfixed : "/api/sessions/open".toList.all (fun c => c ≠ '?' ∧ c ≠ '#') = true := by
    decide +kernel
  have hbase : ∀ c ∈ (sessionUrl serverUrl).toList, c ∈ serverUrl.toList ∨ c ≠ '?' ∧ c ≠ '#' := by
    intro c hc
    rw [sessionUrl, String.toList_append, List.mem_append] at hc
    obtain hc | hc := hc
    · rw [Str.trimEndMatches, String.toList_ofList, List.mem_reverse] at hc
      exact .inl (List.mem_reverse.mp ((List.dropWhile_sublist _).subset hc))
    · exact .inr (of_decide_eq_true (List.all_eq_true.mp hfixed c hc))
  have hlast : ∀ c ∈ (sessionUrl serverUrl).toList.getLast?, 33 ≤ c.toNat := by
    have hfixed : "/api/sessions/open".toList.getLast? = some 'n' := by decide +kernel
    rw [sessionUrl, String.toList_append, List.getLast?_append, hfixed]
    rintro c ⟨⟩
    decide
  obtain ⟨hsent, hpath⟩ := urls.parse_query (sessionUrl serverUrl) (sessionQuery request)
    (fun h => (hbase _ h).elim hquery fun hne => hne.1 rfl)
    (fun h => (hbase _ h).elim hfragment fun hne => hne.2 rfl) hlast sessionQuery_chars
    url hurl
  have hchars := urls.path_chars _ url hurl hscheme
  refine ⟨hpath, url.path ++ "?" ++ sessionQuery request, _, ?_, rfl, ?_, ?_⟩
  · rw [requestHeader, hsent]
    simp [← String.toList_inj, Method.asStr]
  · intro c hc
    rw [String.toList_append, String.toList_append, List.mem_append, List.mem_append] at hc
    obtain (hc | hc) | hc := hc
    · exact (hchars c hc).1
    · rw [List.mem_singleton.mp hc]
      decide
    · exact isEncodedChar_spec (List.all_eq_true.mp sessionQuery_chars c hc)
  · exact Str.splitOnce_append (fun h => (hchars _ h).2 rfl) _

/-! ### A URL parser for plain URLs -/

/-- The characters of a path that a URL parser leaves alone wherever they are. -/
def isPathChar (c : Char) : Bool := c.isAlphanum || "/-_".toList.contains c

/-- A URL of the host `control` with a path of such characters. -/
def plainUrl (base : String) (query : Option String) : Option PinnedHttp.Url :=
  (Str.stripPrefix "https://control/" base).bind fun path =>
    if path.toList.all isPathChar ∧ query.all (·.toList.all isEncodedChar) then
      some ⟨"https", some "control", none, "/" ++ path, query, base ++ query.elim "" ("?" ++ ·)⟩
    else none

theorem plainUrl_eq_some {base : String} {query : Option String} {url : PinnedHttp.Url}
    (h : plainUrl base query = some url) :
    url.query = query ∧ (∃ path, path.toList.all isPathChar = true ∧ url.path = "/" ++ path)
      ∧ ∃ plain, plainUrl base none = some plain ∧ url.path = plain.path := by
  obtain ⟨path, hbase, h⟩ := Option.bind_eq_some_iff.mp h
  obtain ⟨⟨hpath, -⟩, h⟩ := Option.ite_none_right_eq_some.mp h
  cases h
  refine ⟨rfl, ⟨path, hpath, rfl⟩, ?_⟩
  rw [plainUrl, hbase, Option.bind_some, if_pos ⟨hpath, rfl⟩]
  exact ⟨_, rfl, rfl⟩

theorem isPathChar_spec {c : Char} (h : isPathChar c = true) : 33 ≤ c.toNat ∧ c ≠ '?' := by
  rw [isPathChar, Bool.or_eq_true] at h
  obtain h | h := h
  · refine ⟨?_, fun hc => by subst hc; cases h⟩
    rw [isAlphanum_iff, isUpper_iff, isLower_iff, isDigit_iff] at h
    omega
  · have hall : "/-_".toList.all (fun c => 33 ≤ c.toNat ∧ c ≠ '?') = true := by decide +kernel
    rw [List.contains_iff_mem] at h
    exact of_decide_eq_true (List.all_eq_true.mp hall c h)

def plainUrls : UrlParser where
  parse text :=
    match Str.splitOnce '?' text with
    | some (base, query) => plainUrl base (some query)
    | none => plainUrl text none
  parse_query base query hbase _ _ _ url hurl := by
    have hsplit : Str.splitOnce '?' (base ++ "?" ++ query) = some (base, query) :=
      Str.splitOnce_append hbase query
    have hnone : Str.splitOnce '?' base = none := by
      cases h : Str.splitOnce '?' base with
      | none => rfl
      | some parts =>
        rw [Str.eq_append_of_splitOnce h] at hbase
        simp at hbase
    rw [hsplit] at hurl
    rw [hnone]
    obtain ⟨hquery, -, hplain⟩ := plainUrl_eq_some hurl
    exact ⟨hquery, hplain⟩
  path_chars text url hurl _ := by
    obtain ⟨path, hpath, heq⟩ : ∃ path, path.toList.all isPathChar = true
        ∧ url.path = "/" ++ path := by
      split at hurl <;> exact (plainUrl_eq_some hurl).2.1
    intro c hc
    rw [heq, String.toList_append, List.mem_append] at hc
    obtain hc | hc := hc
    · rw [List.mem_singleton.mp hc]
      decide
    · exact isPathChar_spec (List.all_eq_true.mp hpath c hc)

/-- Identifiers with separators and a line end in them. -/
def separatorRequest : SessionOpenRequest := ⟨"web&node_id=x", "phone\r\nhost: y", none⟩

theorem session_query_exact_sample :
    readSessionRequest (sessionQuery separatorRequest) = some separatorRequest
      ∧ ∃ url, plainUrls.parse (sessionUrl "https://control/" ++ "?"
            ++ sessionQuery separatorRequest) = some url
        ∧ ∃ target rest, requestHeader .get url "control" []
            = "GET " ++ target ++ " HTTP/1.1\r\nhost: " ++ "control" ++ rest
          ∧ (∀ c ∈ target.toList, 33 ≤ c.toNat)
          ∧ Str.splitOnce '?' target
            = some ("/api/sessions/open", sessionQuery separatorRequest) := by
  have hparse : (plainUrls.parse (sessionUrl "https://control/" ++ "?"
      ++ sessionQuery separatorRequest)).map (fun url => (url.scheme, url.path))
      = some ("https", "/api/sessions/open") := by
    decide +kernel
  obtain ⟨url, hurl, hfields⟩ := Option.map_eq_some_iff.mp hparse
  obtain ⟨hscheme, hpath⟩ := Prod.mk.inj hfields
  obtain ⟨-, hread, hheader⟩ := session_query_exact plainUrls "https://control/" separatorRequest
    (by decide) (by decide)
  obtain ⟨-, target, rest, hline, -, hchars, hsplit⟩ := hheader url "control" hurl hscheme
  rw [hpath] at hsplit
  exact ⟨hread, url, hurl, target, rest, hline, hchars, hsplit⟩

end MediumOverlay
