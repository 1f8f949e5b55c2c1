import MediumOverlay.Lib.Fallible
import MediumOverlay.Lib.FormUrlencoded
import MediumOverlay.Lib.Str

/-!
# Invites

`medium init-control` prints two invites, one for clients and one for nodes.  An invite
is a URL whose query has the control URL, its pin and a secret in it.

`parse_node_invite` decodes every value of the query.  `format_node_invite` encodes the
URL of the relay only, and inserts the other values as they are.  So they come back
exactly if there is nothing to decode in them (`node_invite_round_trip_iff`).  That is a
matter of each value alone: a value that contains an `&` is lost whatever follows it.
-/

namespace MediumOverlay

open Fallible

/-! ## URLs -/

/-- What is read of a `reqwest::Url`. -/
structure Url where
  scheme : String
  hostStr : Option String
  asStr : String
deriving DecidableEq, Repr

section

variable (parseUrl : String → Option Url)

/-- `normalize_control_url`. -/
def normalizeControlUrl (raw : String) : Except String String :=
  match parseUrl raw with
  | none => .error ("invalid control URL " ++ raw)
  | some url =>
    if url.scheme = "http" ∨ url.scheme = "https" then
      if url.hostStr = none then .error "control URL must include a host"
      else .ok (Str.trimEndMatches (· = '/') url.asStr)
    else .error ("unsupported control URL scheme " ++ url.scheme)

/-- `validate_wss_relay_url`. -/
def validateWssRelayUrl (value : String) : Except String Unit :=
  if Str.trim value = "" then .ok ()
  else
    match parseUrl value with
    | none => .error ("invalid MEDIUM_WSS_RELAY_URL: " ++ value)
    | some url =>
      if url.scheme = "wss" then .ok () else .error "MEDIUM_WSS_RELAY_URL must use wss://"

/-! ## Writers -/

/-- `client_api::format_join_invite`. -/
def ClientApi.formatJoinInvite (controlUrl controlPin : String) : Except String String :=
  match normalizeControlUrl parseUrl controlUrl with
  | .error error => .error error
  | .ok controlUrl =>
    if controlPin = "" then .error "control pin cannot be empty"
    else .ok ("medium://join?v=1&control=" ++ controlUrl ++ "&security=pinned-tls&control_pin="
      ++ controlPin)

/-- `url_query_value`. -/
def urlQueryValue (value : String) : String :=
  .ofList (FormUrlencoded.byteSerialize (Utf8.encode value.toList))

/-- `format_join_invite` of `install`. -/
def formatJoinInvite (controlUrl controlPin clientSecret : String) : Except String String :=
  match ClientApi.formatJoinInvite parseUrl controlUrl controlPin with
  | .error error => .error error
  | .ok base =>
    if clientSecret = "" then .error "client secret cannot be empty"
    else .ok (base ++ "&client_secret=" ++ urlQueryValue clientSecret)

/-- `format_node_invite`. -/
def formatNodeInvite (controlUrl controlPin sharedSecret relayAddr wssRelayUrl : String) :
    Except String String :=
  match ClientApi.formatJoinInvite parseUrl controlUrl controlPin with
  | .error error => .error error
  | .ok _ =>
    if sharedSecret = "" then .error "shared secret cannot be empty"
    else
      let relayPart := if relayAddr = "" then "" else "&relay=" ++ relayAddr
      let wssRelayPart :=
        if wssRelayUrl = "" then "" else "&wss_relay=" ++ urlQueryValue wssRelayUrl
      .ok ("medium://node?v=1&control=" ++ controlUrl ++ "&security=pinned-tls&control_pin="
        ++ controlPin ++ "&shared_secret=" ++ sharedSecret ++ relayPart ++ wssRelayPart)

/-! ## The parser of node invites -/

structure NodeInvite where
  controlUrl : String
  controlPin : String
  sharedSecret : String
  relayAddr : Option String
  wssRelayUrl : Option String
  serviceCaCertPem : Option String
  serviceCaKeyPem : Option String
  sshCaPublicKey : Option String
deriving DecidableEq, Repr

/-- The local variables of `parse_node_invite`. -/
structure NodeInviteQuery where
  version : Option Nat := none
  controlUrl : Option String := none
  security : Option String := none
  controlPin : Option String := none
  sharedSecret : Option String := none
  relayAddr : Option String := none
  wssRelayUrl : Option String := none
  serviceCaCertPem : Option String := none
  serviceCaKeyPem : Option String := none
  sshCaPublicKey : Option String := none

/-- The body of the loop of `parse_node_invite`. -/
def NodeInviteQuery.set (query : NodeInviteQuery) (pair : String × String) :
    Except String NodeInviteQuery :=
  let value := pair.2
  match pair.1 with
  | "v" => (Str.parseUnsigned 4294967295 value).map fun n => { query with version := some n }
  | "control" => .ok { query with controlUrl := some value }
  | "security" => .ok { query with security := some value }
  | "control_pin" => .ok { query with controlPin := some value }
  | "shared_secret" => .ok { query with sharedSecret := some value }
  | "relay" => .ok { query with relayAddr := some value }
  | "wss_relay" => .ok { query with wssRelayUrl := some value }
  | "service_ca_cert" => .ok { query with serviceCaCertPem := some value }
  | "service_ca_key" => .ok { query with serviceCaKeyPem := some value }
  | "ssh_ca_public_key" => .ok { query with sshCaPublicKey := some value }
  | _ => .ok query

/-- The end of `parse_node_invite`, behind the loop. -/
def NodeInviteQuery.finish (query : NodeInviteQuery) : Except String NodeInvite := do
  let version ← context query.version "node invite is missing version"
  bailUnless (version = 1) ("unsupported node invite version " ++ toString version)
  let security ← context query.security "node invite is missing security"
  bailUnless (security = "pinned-tls") ("unsupported node invite security " ++ security)
  let controlUrl ← context query.controlUrl "node invite is missing control URL"
  let controlPin ← context query.controlPin "node invite is missing control pin"
  let sharedSecret ← context query.sharedSecret "node invite is missing shared secret"
  bailUnless (sharedSecret ≠ "") "node invite shared secret cannot be empty"
  query.wssRelayUrl.forM (validateWssRelayUrl parseUrl)
  let _ ← ClientApi.formatJoinInvite parseUrl controlUrl controlPin
  return ⟨controlUrl, controlPin, sharedSecret, query.relayAddr, query.wssRelayUrl,
    query.serviceCaCertPem, query.serviceCaKeyPem, query.sshCaPublicKey⟩

/-- `url::form_urlencoded::parse`. -/
def formUrlencodedParse (query : String) : List (String × String) :=
  (FormUrlencoded.parse query.toList).map (Prod.map .ofList .ofList)

/-- `parse_node_invite`. -/
def parseNodeInvite (raw : String) : Except String NodeInvite := do
  let (scheme, remainder) ← context (Str.splitOnceStr "://" raw) "node invite must include a scheme"
  bailUnless (scheme = "medium") ("unsupported node invite scheme " ++ scheme)
  let (path, query) ←
    context (Str.splitOnce '?' remainder) "node invite must include query parameters"
  bailUnless (path ≠ "join")
    ("medium init-node requires a node invite (medium://node...), but got a client join invite "
      ++ "(medium://join...). On the control-plane host, run "
      ++ "`sudo medium init-control --reconfigure` and copy the line that starts with "
      ++ "`generated node invite `.")
  bailUnless (path = "node") ("unsupported node invite path " ++ path)
  let query ← (formUrlencodedParse query).foldlM NodeInviteQuery.set {}
  query.finish parseUrl

end

/-! ## What the parser returns -/

variable {parseUrl : String → Option Url}

theorem NodeInviteQuery.finish_eq_ok_iff {query : NodeInviteQuery} {invite : NodeInvite} :
    query.finish parseUrl = .ok invite ↔
      query.version = some 1 ∧ query.security = some "pinned-tls" ∧
      query.controlUrl = some invite.controlUrl ∧ query.controlPin = some invite.controlPin ∧
      query.sharedSecret = some invite.sharedSecret ∧ invite.sharedSecret ≠ "" ∧
      (∀ url, query.wssRelayUrl = some url → validateWssRelayUrl parseUrl url = .ok ()) ∧
      (∃ text, ClientApi.formatJoinInvite parseUrl invite.controlUrl invite.controlPin = .ok text) ∧
      query.relayAddr = invite.relayAddr ∧ query.wssRelayUrl = invite.wssRelayUrl ∧
      query.serviceCaCertPem = invite.serviceCaCertPem ∧
      query.serviceCaKeyPem = invite.serviceCaKeyPem ∧
      query.sshCaPublicKey = invite.sshCaPublicKey := by
  obtain ⟨controlUrl, controlPin, sharedSecret, relay, wss, cert, key, ssh⟩ := invite
  have hforM : ∀ u : Unit, query.wssRelayUrl.forM (validateWssRelayUrl parseUrl) = .ok u ↔
      ∀ url, query.wssRelayUrl = some url → validateWssRelayUrl parseUrl url = .ok () := by
    intro u
    cases query.wssRelayUrl <;> simp [Option.forM, pure, Except.pure]
  simp only [finish, bind_eq_ok_iff, context_eq_ok_iff, bailUnless_eq_ok_iff, hforM, pure,
    Except.pure, Except.ok.injEq, NodeInvite.mk.injEq]
  constructor
  · rintro ⟨_, hversion, -, rfl, _, hsecurity, -, rfl, _, hurl, _, hpin, _, hsecret, -, hne, -,
      hwss, text, htext, rfl, rfl, rfl, hrest⟩
    exact ⟨hversion, hsecurity, hurl, hpin, hsecret, hne, hwss, ⟨text, htext⟩, hrest⟩
  · rintro ⟨hversion, hsecurity, hurl, hpin, hsecret, hne, hwss, ⟨text, htext⟩, hrest⟩
    exact ⟨1, hversion, (), rfl, _, hsecurity, (), rfl, _, hurl, _, hpin, _, hsecret, (), hne, (),
      hwss, text, htext, rfl, rfl, rfl, hrest⟩

/-- What one pair sets. -/
theorem NodeInviteQuery.set_spec {query query' : NodeInviteQuery} {pair : String × String}
    (h : query.set pair = .ok query') :
    query'.controlUrl = (if pair.1 = "control" then some pair.2 else query.controlUrl) ∧
    query'.controlPin = (if pair.1 = "control_pin" then some pair.2 else query.controlPin) ∧
    query'.sharedSecret = (if pair.1 = "shared_secret" then some pair.2 else query.sharedSecret) ∧
    query'.relayAddr = (if pair.1 = "relay" then some pair.2 else query.relayAddr) := by
  obtain ⟨key, value⟩ := pair
  unfold set at h
  dsimp only at h
  split at h
  case h_1 =>
    cases hparse : Str.parseUnsigned 4294967295 value with
    | error error =>
      rw [hparse] at h
      cases h
    | ok n =>
      rw [hparse] at h
      cases h
      simp
  case h_11 hv hcontrol hsecurity hpin hsecret hrelay hwss hcert hkey hssh =>
    cases h
    exact ⟨(if_neg hcontrol).symm, (if_neg hpin).symm, (if_neg hsecret).symm,
      (if_neg hrelay).symm⟩
  all_goals
    cases h
    simp

/-- The variables behind the loop have the last values of their keys. -/
theorem NodeInviteQuery.foldlM_set {pairs : List (String × String)} {query : NodeInviteQuery}
    (h : pairs.foldlM set {} = .ok query) :
    query.controlUrl = Query.lastValue "control" pairs ∧
    query.controlPin = Query.lastValue "control_pin" pairs ∧
    query.sharedSecret = Query.lastValue "shared_secret" pairs ∧
    query.relayAddr = Query.lastValue "relay" pairs := by
  induction pairs using List.reverseRecOn generalizing query with
  | nil =>
    cases h
    exact ⟨rfl, rfl, rfl, rfl⟩
  | append_singleton init last ih =>
    obtain ⟨before, hbefore, hset⟩ := foldlM_concat_eq_ok_iff.mp h
    obtain ⟨hurl, hpin, hsecret, hrelay⟩ := ih hbefore
    have hstep := set_spec hset
    rw [hurl, hpin, hsecret, hrelay] at hstep
    simp only [Query.lastValue_concat]
    exact hstep

theorem splitOnceStr_medium (remainder : String) :
    Str.splitOnceStr "://" ("medium://" ++ remainder) = some ("medium", remainder) := by
  have hlist : ("medium://" ++ remainder).toList
      = "medium".toList ++ "://".toList ++ remainder.toList := by
    simp
  rw [Str.splitOnceStr, hlist]
  simp [Str.splitOnceAt]

/-- The parser on a text that starts as node invites do. -/
theorem parseNodeInvite_append (query : String) :
    parseNodeInvite parseUrl ("medium://node?" ++ query)
      = (formUrlencodedParse query).foldlM NodeInviteQuery.set {}
        >>= fun fields => fields.finish parseUrl := by
  have hraw : "medium://node?" ++ query = "medium://" ++ ("node" ++ .singleton '?' ++ query) := by
    simp [← String.toList_inj]
  have hpath : Str.splitOnce '?' ("node" ++ .singleton '?' ++ query) = some ("node", query) :=
    Str.splitOnce_append (by decide) query
  rw [parseNodeInvite, hraw, splitOnceStr_medium]
  dsimp only [context, bind, Except.bind]
  rw [bailUnless, if_pos rfl, hpath]
  dsimp only
  rw [bailUnless, if_pos (by decide), bailUnless, if_pos rfl]

/-! ## The fields of a node invite -/

/-- The value has no separator, plus sign or escape in it. -/
def Verbatim (value : String) : Prop :=
  '&' ∉ value.toList ∧ FormUrlencoded.IsLiteral value.toList

instance (value : String) : Decidable (Verbatim value) := inferInstanceAs (Decidable (_ ∧ _))

theorem transparent_iff_verbatim {value : String} :
    Query.Transparent FormUrlencoded.decode value.toList ↔ Verbatim value :=
  FormUrlencoded.transparent_iff

/-- The fields that are written as they are. -/
def plainFields (controlUrl controlPin sharedSecret relayAddr : String) : List (String × String) :=
  [("v", "1"), ("control", controlUrl), ("security", "pinned-tls"), ("control_pin", controlPin),
    ("shared_secret", sharedSecret)]
  ++ if relayAddr = "" then [] else [("relay", relayAddr)]

/-- The field that is encoded, with the value that it stands for. -/
def encodedFields (wssRelayUrl : String) : List (String × String) :=
  if wssRelayUrl = "" then [] else [("wss_relay", wssRelayUrl)]

def nodeKeys : List String :=
  ["v", "control", "security", "control_pin", "shared_secret", "relay", "wss_relay"]

theorem isKey_of_mem_nodeKeys : ∀ key ∈ nodeKeys,
    Query.IsKey FormUrlencoded.decode key.toList := by
  have hkeys : ∀ key ∈ nodeKeys,
      '=' ∉ key.toList ∧ '&' ∉ key.toList ∧ FormUrlencoded.IsLiteral key.toList := by
    decide
  intro key hkey
  obtain ⟨heq, hamp, hliteral⟩ := hkeys key hkey
  exact ⟨heq, hamp, FormUrlencoded.decode_of_isLiteral hliteral⟩

/-- Fields as the queries of the library have them. -/
def fieldChars (fields : List (String × String)) : List (List Char × List Char) :=
  fields.map (Prod.map String.toList String.toList)

theorem map_ofList_fieldChars (fields : List (String × String)) :
    (fieldChars fields).map (Prod.map String.ofList String.ofList) = fields := by
  rw [fieldChars, List.map_map]
  refine (List.map_congr_left fun field _ => ?_).trans (List.map_id fields)
  simp [Prod.map]

/-- A value that was found among texts is one among characters. -/
theorem lastValue_chars {key value : String} {pairs : List (List Char × List Char)}
    (h : Query.lastValue key (pairs.map (Prod.map String.ofList String.ofList)) = some value) :
    Query.lastValue key.toList pairs = some value.toList := by
  have hmap : Query.lastValue (String.ofList key.toList)
      (pairs.map (Prod.map String.ofList String.ofList)) = _ :=
    Query.lastValue_map (fun _ _ => String.ofList_injective) String.ofList
  rw [String.ofList_toList, h, eq_comm, Option.map_eq_some_iff] at hmap
  obtain ⟨found, hfound, rfl⟩ := hmap
  rw [hfound, String.toList_ofList]

/-- A field as it is written. -/
def fieldText (field : String × String) : List Char :=
  Query.field (field.1.toList, field.2.toList)

section

variable {controlUrl controlPin sharedSecret relayAddr wssRelayUrl text : String}

theorem forall_mem_plainFields {P : String × String → Prop} :
    (∀ field ∈ plainFields controlUrl controlPin sharedSecret relayAddr, P field) ↔
      P ("v", "1") ∧ P ("control", controlUrl) ∧ P ("security", "pinned-tls") ∧
        P ("control_pin", controlPin) ∧ P ("shared_secret", sharedSecret) ∧
        (relayAddr ≠ "" → P ("relay", relayAddr)) := by
  unfold plainFields
  by_cases hrelay : relayAddr = "" <;> simp [hrelay]

theorem verbatim_plainFields_iff :
    (∀ field ∈ plainFields controlUrl controlPin sharedSecret relayAddr, Verbatim field.2) ↔
      Verbatim controlUrl ∧ Verbatim controlPin ∧ Verbatim sharedSecret ∧ Verbatim relayAddr := by
  have hversion : Verbatim "1" := by decide
  have hsecurity : Verbatim "pinned-tls" := by decide
  have hrelay : (relayAddr ≠ "" → Verbatim relayAddr) ↔ Verbatim relayAddr := by
    refine ⟨fun h => ?_, fun h _ => h⟩
    by_cases hempty : relayAddr = ""
    · rw [hempty]
      decide
    · exact h hempty
  rw [forall_mem_plainFields, hrelay]
  simp only [hversion, hsecurity, true_and]

theorem formatNodeInvite_eq_ok
    (h : formatNodeInvite parseUrl controlUrl controlPin sharedSecret relayAddr wssRelayUrl
      = .ok text) :
    (∃ base, ClientApi.formatJoinInvite parseUrl controlUrl controlPin = .ok base) ∧
    sharedSecret ≠ "" ∧
    text = "medium://node?" ++ .ofList (['&'].intercalate
      ((plainFields controlUrl controlPin sharedSecret relayAddr).map fieldText
        ++ (encodedFields wssRelayUrl).map fun field =>
          fieldText (field.1, urlQueryValue field.2))) := by
  unfold formatNodeInvite at h
  split at h
  next => cases h
  next base hbase =>
    by_cases hsecret : sharedSecret = ""
    · rw [if_pos hsecret] at h
      cases h
    rw [if_neg hsecret] at h
    refine ⟨⟨base, hbase⟩, hsecret, ?_⟩
    cases h
    rw [← String.toList_inj]
    by_cases hrelay : relayAddr = "" <;> by_cases hwss : wssRelayUrl = "" <;>
      simp [hrelay, hwss, plainFields, encodedFields, fieldText, Query.field,
        List.intercalate_cons_cons]

/-- The pairs of a node invite.  The encoded field is read back, the other ones are read
piece by piece. -/
theorem parse_nodeInvite (hquery : text = .ofList (['&'].intercalate
      ((plainFields controlUrl controlPin sharedSecret relayAddr).map fieldText
        ++ (encodedFields wssRelayUrl).map fun field =>
          fieldText (field.1, urlQueryValue field.2)))) :
    FormUrlencoded.parse text.toList
      = (fieldChars (plainFields controlUrl controlPin sharedSecret relayAddr)).flatMap
          (fun field => Query.pairs FormUrlencoded.readPiece (Query.field field))
        ++ fieldChars (encodedFields wssRelayUrl) := by
  have hencoded : ∀ field ∈ encodedFields wssRelayUrl,
      Query.pairs FormUrlencoded.readPiece (fieldText (field.1, urlQueryValue field.2))
        = [Prod.map String.toList String.toList field] := by
    intro field hfield
    have hkey : Query.IsKey FormUrlencoded.decode field.1.toList := by
      unfold encodedFields at hfield
      split at hfield
      next => cases hfield
      next =>
        rw [List.mem_singleton.mp hfield]
        exact isKey_of_mem_nodeKeys "wss_relay" (by decide)
    rw [fieldText, urlQueryValue, String.toList_ofList,
      Query.pairs_field FormUrlencoded.reads_readPiece hkey
        (FormUrlencoded.amp_notMem_byteSerialize _),
      FormUrlencoded.decode_byteSerialize]
    rfl
  rw [hquery, String.toList_ofList, FormUrlencoded.parse, plainFields, List.cons_append,
    List.map_cons, List.cons_append, Query.pairs_intercalate, ← List.cons_append, ← List.map_cons,
    List.flatMap_append, List.flatMap_map, List.flatMap_map, List.flatMap_congr hencoded,
    fieldChars, fieldChars, List.flatMap_map, List.map_eq_flatMap]
  rfl

/-- The keys of node invites, in the order in which they are written. -/
theorem keys_sublist_nodeKeys :
    ((plainFields controlUrl controlPin sharedSecret relayAddr
      ++ encodedFields wssRelayUrl).map Prod.fst).Sublist nodeKeys := by
  unfold plainFields encodedFields nodeKeys
  split <;> split <;> simp

theorem isKey_plainFields :
    ∀ field ∈ fieldChars (plainFields controlUrl controlPin sharedSecret relayAddr),
      Query.IsKey FormUrlencoded.decode field.1 := by
  intro chars hchars
  obtain ⟨field, hfield, rfl⟩ := List.mem_map.mp hchars
  have hkeys : ((plainFields controlUrl controlPin sharedSecret relayAddr
      ++ encodedFields "").map Prod.fst).Sublist nodeKeys := keys_sublist_nodeKeys
  refine isKey_of_mem_nodeKeys field.1 (hkeys.subset ?_)
  exact List.mem_map_of_mem (List.mem_append_left _ hfield)

/-- The plain fields are read back only if they are verbatim. -/
theorem verbatim_of_parse {invite : NodeInvite}
    (hpairs : FormUrlencoded.parse text.toList
      = (fieldChars (plainFields controlUrl controlPin sharedSecret relayAddr)).flatMap
          (fun field => Query.pairs FormUrlencoded.readPiece (Query.field field))
        ++ fieldChars (encodedFields wssRelayUrl))
    (hparse : parseNodeInvite parseUrl ("medium://node?" ++ text) = .ok invite)
    (hurl : invite.controlUrl = controlUrl) (hpin : invite.controlPin = controlPin)
    (hsecret : invite.sharedSecret = sharedSecret)
    (hrelay : relayAddr ≠ "" → invite.relayAddr = some relayAddr) :
    ∀ field ∈ plainFields controlUrl controlPin sharedSecret relayAddr, Verbatim field.2 := by
  rw [parseNodeInvite_append] at hparse
  obtain ⟨query, hfold, hfinish⟩ := bind_eq_ok_iff.mp hparse
  obtain ⟨-, -, hurl', hpin', hsecret', -, -, -, hrelay', -⟩ :=
    NodeInviteQuery.finish_eq_ok_iff.mp hfinish
  obtain ⟨hlastUrl, hlastPin, hlastSecret, hlastRelay⟩ := NodeInviteQuery.foldlM_set hfold
  have hvalues : ∀ field ∈ fieldChars (plainFields controlUrl controlPin sharedSecret relayAddr),
      Query.Transparent FormUrlencoded.decode field.2 ∨
        Query.lastValue field.1 (FormUrlencoded.parse text.toList) = some field.2 := by
    refine List.forall_mem_map.mpr (forall_mem_plainFields.mpr ⟨?_, ?_, ?_, ?_, ?_, fun hne => ?_⟩)
    · exact .inl (transparent_iff_verbatim.mpr (by decide))
    · exact .inr (lastValue_chars (by rw [← formUrlencodedParse, ← hlastUrl, hurl', hurl]))
    · exact .inl (transparent_iff_verbatim.mpr (by decide))
    · exact .inr (lastValue_chars (by rw [← formUrlencodedParse, ← hlastPin, hpin', hpin]))
    · exact .inr (lastValue_chars (by rw [← formUrlencodedParse, ← hlastSecret, hsecret', hsecret]))
    · refine .inr (lastValue_chars ?_)
      rw [← formUrlencodedParse, ← hlastRelay, hrelay', hrelay hne]
  rw [hpairs] at hvalues
  have hkeys : ((plainFields controlUrl controlPin sharedSecret relayAddr
      ++ encodedFields wssRelayUrl).map Prod.fst).Sublist nodeKeys := keys_sublist_nodeKeys
  have hnodup : ((fieldChars (plainFields controlUrl controlPin sharedSecret relayAddr)).map
      Prod.fst ++ (fieldChars (encodedFields wssRelayUrl)).map Prod.fst).Nodup := by
    have hnodeKeys : nodeKeys.Nodup := by decide
    have hmap := (hkeys.nodup hnodeKeys).map fun _ _ => String.toList_injective
    rw [List.map_append, List.map_append, List.map_map, List.map_map] at hmap
    rw [fieldChars, fieldChars, List.map_map, List.map_map]
    exact hmap
  rw [List.nodup_append] at hnodup
  have hall := Query.transparent_of_lastValue FormUrlencoded.reads_readPiece isKey_plainFields
    hnodup.1 (fun field hfield other hother heq => hnodup.2.2 _ (List.mem_map_of_mem hfield) _
      (List.mem_map_of_mem hother) heq.symm) hvalues
  intro field hfield
  exact transparent_iff_verbatim.mp (hall _ (List.mem_map_of_mem hfield))

/-- Verbatim fields are read back. -/
theorem formUrlencodedParse_of_verbatim
    (hpairs : FormUrlencoded.parse text.toList
      = (fieldChars (plainFields controlUrl controlPin sharedSecret relayAddr)).flatMap
          (fun field => Query.pairs FormUrlencoded.readPiece (Query.field field))
        ++ fieldChars (encodedFields wssRelayUrl))
    (h : ∀ field ∈ plainFields controlUrl controlPin sharedSecret relayAddr, Verbatim field.2) :
    formUrlencodedParse text
      = plainFields controlUrl controlPin sharedSecret relayAddr ++ encodedFields wssRelayUrl := by
  have htransparent :
      ∀ field ∈ fieldChars (plainFields controlUrl controlPin sharedSecret relayAddr),
        Query.Transparent FormUrlencoded.decode field.2 := by
    intro chars hchars
    obtain ⟨field, hfield, rfl⟩ := List.mem_map.mp hchars
    exact transparent_iff_verbatim.mpr (h field hfield)
  rw [formUrlencodedParse, hpairs,
    Query.pairs_fields FormUrlencoded.reads_readPiece isKey_plainFields htransparent,
    List.map_append, map_ofList_fieldChars, map_ofList_fieldChars]

theorem foldlM_set_fields :
    (plainFields controlUrl controlPin sharedSecret relayAddr ++ encodedFields wssRelayUrl).foldlM
        NodeInviteQuery.set {}
      = .ok { version := some 1, controlUrl := some controlUrl, security := some "pinned-tls",
              controlPin := some controlPin, sharedSecret := some sharedSecret,
              relayAddr := if relayAddr = "" then none else some relayAddr,
              wssRelayUrl := if wssRelayUrl = "" then none else some wssRelayUrl } := by
  unfold plainFields encodedFields
  split <;> split <;> rfl

end

/-- What comes back of the values of a node invite is what was written, exactly if those
that are not encoded have nothing to decode in them. -/
theorem node_invite_round_trip_iff
    (controlUrl controlPin sharedSecret relayAddr wssRelayUrl text : String)
    (hformat : formatNodeInvite parseUrl controlUrl controlPin sharedSecret relayAddr wssRelayUrl
      = .ok text)
    (hwss : wssRelayUrl = "" ∨ validateWssRelayUrl parseUrl wssRelayUrl = .ok ()) :
    (∃ invite, parseNodeInvite parseUrl text = .ok invite ∧
      invite.controlUrl = controlUrl ∧ invite.controlPin = controlPin ∧
      invite.sharedSecret = sharedSecret ∧
      invite.relayAddr = (if relayAddr = "" then none else some relayAddr) ∧
      invite.wssRelayUrl = if wssRelayUrl = "" then none else some wssRelayUrl) ↔
    Verbatim controlUrl ∧ Verbatim controlPin ∧ Verbatim sharedSecret ∧ Verbatim relayAddr := by
  obtain ⟨hbase, hne, htext⟩ := formatNodeInvite_eq_ok hformat
  obtain ⟨query, hquery, htext⟩ : ∃ query : String, query = _ ∧ text = "medium://node?" ++ query :=
    ⟨_, rfl, htext⟩
  have hpairs := parse_nodeInvite hquery
  rw [← verbatim_plainFields_iff]
  constructor
  · rintro ⟨invite, hparse, hurl, hpin, hsecret, hrelay, -⟩
    rw [htext] at hparse
    refine verbatim_of_parse hpairs hparse hurl hpin hsecret fun hne => ?_
    rw [hrelay, if_neg hne]
  · intro hverbatim
    refine ⟨⟨controlUrl, controlPin, sharedSecret, if relayAddr = "" then none else some relayAddr,
      if wssRelayUrl = "" then none else some wssRelayUrl, none, none, none⟩, ?_, rfl, rfl, rfl,
      rfl, rfl⟩
    rw [htext, parseNodeInvite_append, formUrlencodedParse_of_verbatim hpairs hverbatim,
      foldlM_set_fields]
    refine bind_eq_ok_iff.mpr ⟨_, rfl, NodeInviteQuery.finish_eq_ok_iff.mpr
      ⟨rfl, rfl, rfl, rfl, rfl, hne, fun url hurl => ?_, hbase, rfl, rfl, rfl, rfl, rfl⟩⟩
    dsimp only at hurl
    split at hurl
    next => cases hurl
    next hwssNe =>
      cases hurl
      exact hwss.resolve_left hwssNe

/-- A parser that knows one control URL. -/
def sampleParseUrl (raw : String) : Option Url :=
  if raw = "https://control" then some ⟨"https", some "control", "https://control/"⟩ else none

theorem node_invite_round_trip_iff_sample :
    formatNodeInvite sampleParseUrl "https://control" "sha256:ab" "secret" "relay:7001" ""
        = .ok ("medium://node?v=1&control=https://control&security=pinned-tls"
          ++ "&control_pin=sha256:ab&shared_secret=secret&relay=relay:7001") ∧
    ∃ invite, parseNodeInvite sampleParseUrl
        ("medium://node?v=1&control=https://control&security=pinned-tls"
          ++ "&control_pin=sha256:ab&shared_secret=secret&relay=relay:7001") = .ok invite ∧
      invite.sharedSecret = "secret" := by
  have hformat : formatNodeInvite sampleParseUrl "https://control" "sha256:ab" "secret"
      "relay:7001" "" = .ok ("medium://node?v=1&control=https://control&security=pinned-tls"
        ++ "&control_pin=sha256:ab&shared_secret=secret&relay=relay:7001") := by
    decide +kernel
  obtain ⟨invite, hparse, -, -, hsecret, -⟩ := (node_invite_round_trip_iff "https://control"
    "sha256:ab" "secret" "relay:7001" "" _ hformat (.inl rfl)).mpr (by decide +kernel)
  exact ⟨hformat, invite, hparse, hsecret⟩

/-- A plus sign in the shared secret comes back as a space. -/
theorem node_invite_loses_plus :
    ∃ text, formatNodeInvite sampleParseUrl "https://control" "sha256:ab" "a+b" "" "" = .ok text ∧
      parseNodeInvite sampleParseUrl text
        = .ok ⟨"https://control", "sha256:ab", "a b", none, none, none, none, none⟩ :=
  ⟨"medium://node?v=1&control=https://control&security=pinned-tls&control_pin=sha256:ab"
    ++ "&shared_secret=a+b", by decide +kernel, by decide +kernel⟩

end MediumOverlay
