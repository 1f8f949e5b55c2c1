import MediumOverlay.Android.Models
import MediumOverlay.Cli.Invite

/-!
# Join invites

Three programs read the invite that `medium init-control` prints for clients: the command
line in Rust, the Android app in Kotlin and the Apple app in Swift.  `format_join_invite`
encodes the client secret and nothing else.

* `parse_invite` decodes nothing, so a secret that has to be encoded is not read back.
* The Android app hands the invite to `java.net.URI`, and decodes escapes and plus signs.
* The Apple app hands it to `URLComponents`, and decodes escapes only.  Two fields of one
  name end the app.

The classes of the platforms are parameters (`Clients`), and all that is assumed of them is
what they do with texts that need no decoding by anyone (`IsPlain`).  What they make of other
texts differs between their versions.  So `join_invite_round_trip_iff` says what is necessary
for every text, which the code of the three programs decides, and what is necessary and
sufficient for plain ones.
-/

namespace MediumOverlay

open Fallible

/-! ## The command line -/

structure Invite where
  version : Nat
  controlUrl : String
  security : String
  controlPin : String
  clientSecret : Option String
deriving DecidableEq, Repr

/-- The local variables of `parse_invite`. -/
structure InviteQuery where
  version : Option Nat := none
  controlUrl : Option String := none
  security : Option String := none
  controlPin : Option String := none
  clientSecret : Option String := none

/-- The match in the loop of `parse_invite`. -/
def InviteQuery.setPair (query : InviteQuery) (pair : String × String) :
    Except String InviteQuery :=
  let value := pair.2
  match pair.1 with
  | "v" =>
    match Str.parseUnsigned 4294967295 value with
    | .error _ => .error ("invalid invite version " ++ value)
    | .ok n => .ok { query with version := some n }
  | "control" =>
    if value = "" then .error "invite control URL cannot be empty"
    else .ok { query with controlUrl := some value }
  | "security" =>
    if value = "" then .error "invite security cannot be empty"
    else .ok { query with security := some value }
  | "control_pin" =>
    if value = "" then .error "invite control pin cannot be empty"
    else .ok { query with controlPin := some value }
  | "client_secret" =>
    if value = "" then .error "invite client secret cannot be empty"
    else .ok { query with clientSecret := some value }
  | _ => .ok query

/-- The body of the loop of `parse_invite`. -/
def InviteQuery.set (query : InviteQuery) (pair : String) : Except String InviteQuery :=
  context (Str.splitOnce '=' pair) ("invalid invite parameter " ++ pair) >>= query.setPair

/-- The end of `parse_invite`, behind the loop. -/
def InviteQuery.finish (query : InviteQuery) : Except String Invite := do
  let version ← context query.version "invite is missing version"
  bailUnless (version = 1) ("unsupported invite version " ++ toString version)
  let security ← context query.security "invite is missing security"
  bailUnless (security = "pinned-tls") ("unsupported invite security " ++ security)
  let controlUrl ← context query.controlUrl "invite is missing control URL"
  let controlPin ← context query.controlPin "invite is missing control pin"
  return ⟨version, controlUrl, security, controlPin, query.clientSecret⟩

/-- `parse_invite`. -/
def parseInvite (raw : String) : Except String Invite := do
  let (scheme, remainder) ← context (Str.splitOnceStr "://" raw) "invite must include a scheme"
  bailUnless (scheme = "medium") ("unsupported invite scheme " ++ scheme)
  let (path, query) ←
    context (Str.splitOnce '?' remainder) "invite must include query parameters"
  bailUnless (path = "join") ("unsupported invite path " ++ path)
  let query ← (Str.split '&' query).foldlM InviteQuery.set {}
  query.finish

/-! ## The platforms of the apps -/

/-- What is read of a `java.net.URI`. -/
structure JavaUri where
  scheme : Option String
  host : Option String
  rawQuery : Option String
deriving DecidableEq, Repr

/-- What is read of `URLComponents`. -/
structure UrlComponents where
  scheme : Option String
  host : Option String
  queryItems : Option (List (String × Option String))
deriving DecidableEq, Repr

/-- What is read of Foundation's `URL`. -/
structure AppleUrl where
  absoluteString : String
  host : Option String
deriving DecidableEq, Repr

/-- A character of a query by RFC 3986, escapes apart: unreserved characters, sub-delimiters and
`:@/?`, and the brackets of an IPv6 address, which `java.net.URI` has among its reserved
characters. -/
def isQueryChar (c : Char) : Bool := c.isAlphanum || "-._~!$&'()*+,;=:@/?[]".toList.contains c

/-- A query of such characters. -/
def IsPlain (text : String) : Prop := text.toList.all isQueryChar = true

instance (text : String) : Decidable (IsPlain text) := inferInstanceAs (Decidable (_ = true))

/-- A text with spaces for its plus signs. -/
def plusToSpace (text : String) : String := .ofList (text.toList.map FormUrlencoded.plusToSpace)

/-- The items of a query without escapes. -/
def plainItems (query : String) : List (String × Option String) :=
  (Str.split '&' query).map fun piece =>
    match Str.splitOnce '=' piece with
    | none => (piece, none)
    | some (name, value) => (name, some value)

/-- The classes of the platforms that the apps run on. -/
structure Clients (parseUrl : String → Option Url) where
  /-- `java.net.URI`, with the message of its exception. -/
  uri : String → Except String JavaUri
  /-- `URLDecoder.decode`, with the message of its exception. -/
  urlDecode : String → Except String String
  /-- `URLComponents(string:)`. -/
  urlComponents : String → Option UrlComponents
  /-- `URL(string:)`. -/
  url : String → Option AppleUrl
  uri_plain : ∀ query, IsPlain query →
    uri ("medium://join?" ++ query) = .ok ⟨some "medium", some "join", some query⟩
  urlDecode_plain : ∀ text, IsPlain text → urlDecode text = .ok (plusToSpace text)
  urlComponents_plain : ∀ query, IsPlain query →
    urlComponents ("medium://join?" ++ query)
      = some ⟨some "medium", some "join", some (plainItems query)⟩
  /-- A control URL is a URL with a host for Foundation too. -/
  url_plain : ∀ raw controlUrl, normalizeControlUrl parseUrl raw = .ok controlUrl →
    IsPlain controlUrl → ∃ host, url controlUrl = some ⟨controlUrl, some host⟩

variable {parseUrl : String → Option Url}

/-! ## The Android app -/

namespace Android

structure JoinInvite where
  version : Nat
  controlUrl : String
  security : String
  controlPin : String
deriving DecidableEq, Repr

/-- `trim`. -/
def trim (value : String) : String := Str.trimMatches (fun c => isWhitespace c.toNat) value

/-- `startsWith`. -/
def startsWith (value start : String) : Bool := start.toList.isPrefixOf value.toList

/-- The parts of `parseQuery`.  One without `=` is skipped. -/
def parseParts (clients : Clients parseUrl) : List String → Except String (List (String × String))
  | [] => .ok []
  | part :: parts =>
    match Str.splitOnce '=' part with
    | none => parseParts clients parts
    | some (name, value) => do
      let name ← clients.urlDecode name
      let value ← clients.urlDecode value
      let rest ← parseParts clients parts
      return (name, value) :: rest

/-- `parseQuery`. -/
def parseQuery (clients : Clients parseUrl) (query : String) :
    Except String (List (String × String)) :=
  if isBlank query then .ok [] else parseParts clients (Str.split '&' query)

/-- `JoinInvite.parse`. -/
def JoinInvite.parse (clients : Clients parseUrl) (raw : String) : Except String JoinInvite := do
  let uri ← clients.uri (trim raw)
  bailUnless (uri.scheme = some "medium" ∧ uri.host = some "join") "expected medium://join invite"
  let query ← parseQuery clients (uri.rawQuery.getD "")
  bailUnless (Query.lastValue "v" query = some "1") "unsupported invite version"
  let control := (Query.lastValue "control" query).getD ""
  bailUnless (startsWith control "https://") "missing control URL"
  bailUnless (Query.lastValue "security" query = some "pinned-tls") "unsupported invite security"
  let controlPin := (Query.lastValue "control_pin" query).getD ""
  bailUnless (startsWith controlPin "sha256:") "missing control pin"
  return ⟨1, control, "pinned-tls", controlPin⟩

end Android

/-! ## The Apple app -/

namespace Apple

structure JoinInvite where
  version : Nat
  controlUrl : AppleUrl
  security : String
  controlPin : String
deriving DecidableEq, Repr

/-- How `JoinInvite.parse` ends without an invite. -/
inductive InviteFailure
  | invalidInvite (message : String)
  /-- `Dictionary(uniqueKeysWithValues:)` stops the app. -/
  | duplicateKeys
deriving DecidableEq, Repr

/-- `JoinInvite.parse`. -/
def JoinInvite.parse (clients : Clients parseUrl) (raw : String) :
    Except InviteFailure JoinInvite := do
  let components ← context (clients.urlComponents raw)
    (InviteFailure.invalidInvite "expected medium://join invite")
  bailUnless (components.scheme = some "medium" ∧ components.host = some "join")
    (InviteFailure.invalidInvite "expected medium://join invite")
  let query := (components.queryItems.getD []).map fun item => (item.1, item.2.getD "")
  bailUnless (query.map Prod.fst).Nodup InviteFailure.duplicateKeys
  bailUnless (Query.lastValue "v" query = some "1")
    (InviteFailure.invalidInvite "unsupported invite version")
  let control ← context (Query.lastValue "control" query)
    (InviteFailure.invalidInvite "missing control URL")
  let controlUrl ← context (clients.url control)
    (InviteFailure.invalidInvite "missing control URL")
  bailUnless (controlUrl.host ≠ none) (InviteFailure.invalidInvite "missing control URL")
  bailUnless (Query.lastValue "security" query = some "pinned-tls")
    (InviteFailure.invalidInvite "unsupported invite security")
  let controlPin ← context (Query.lastValue "control_pin" query)
    (InviteFailure.invalidInvite "missing control pin")
  bailUnless (controlPin ≠ "") (InviteFailure.invalidInvite "missing control pin")
  return ⟨1, controlUrl, "pinned-tls", controlPin⟩

end Apple

/-! ## The fields of a join invite -/

/-- The fields of `client_api`. -/
def baseFields (controlUrl controlPin : String) : List (String × String) :=
  [("v", "1"), ("control", controlUrl), ("security", "pinned-tls"), ("control_pin", controlPin)]

/-- The fields of a join invite as they are written. -/
def joinFields (controlUrl controlPin secretText : String) : List (String × String) :=
  baseFields controlUrl controlPin ++ [("client_secret", secretText)]

/-- The text of a query with some fields. -/
def queryText (fields : List (String × String)) : String :=
  .ofList (['&'].intercalate (fields.map fieldText))

def joinQuery (controlUrl controlPin secretText : String) : String :=
  queryText (joinFields controlUrl controlPin secretText)

section

variable {controlUrl controlPin clientSecret normalized secretText text : String}

theorem splitOnce_ofList (piece : List Char) :
    Str.splitOnce '=' (.ofList piece)
      = (Query.splitPiece piece).map (Prod.map String.ofList String.ofList) := by
  unfold Str.splitOnce Query.splitPiece
  rw [String.toList_ofList]
  cases piece.dropWhile (· ≠ '=') <;> rfl

theorem splitOnce_fieldText {field : String × String} (h : '=' ∉ field.1.toList) :
    Str.splitOnce '=' (.ofList (fieldText field)) = some field := by
  rw [splitOnce_ofList, fieldText, Query.splitPiece_field h]
  simp [Prod.map]

/-- Neither the keys nor the values have separators in them. -/
def Separate (fields : List (String × String)) : Prop :=
  ∀ field ∈ fields, '=' ∉ field.1.toList ∧ '&' ∉ field.1.toList ∧ '&' ∉ field.2.toList

variable {fields : List (String × String)}

/-- The pieces of a query are its fields then. -/
theorem Separate.split (h : Separate fields) (hne : fields ≠ []) :
    Str.split '&' (queryText fields) = fields.map fun field => .ofList (fieldText field) := by
  rw [queryText, Str.split_intercalate (by simpa using hne), List.map_map]
  · rfl
  · intro piece hpiece
    obtain ⟨field, hfield, rfl⟩ := List.mem_map.mp hpiece
    obtain ⟨-, hkey, hvalue⟩ := h field hfield
    simp [fieldText, Query.field, hkey, hvalue]

theorem Separate.plainItems (h : Separate fields) (hne : fields ≠ []) :
    plainItems (queryText fields) = fields.map fun field => (field.1, some field.2) := by
  rw [MediumOverlay.plainItems, h.split hne, List.map_map]
  refine List.map_congr_left fun field hfield => ?_
  rw [Function.comp, splitOnce_fieldText (h field hfield).1]

variable {query : InviteQuery}

theorem InviteQuery.finish_eq_ok_iff {invite : Invite} :
    query.finish = .ok invite ↔
      query.version = some 1 ∧ query.security = some "pinned-tls" ∧
      query.controlUrl = some invite.controlUrl ∧ query.controlPin = some invite.controlPin ∧
      query.clientSecret = invite.clientSecret ∧ invite.version = 1 ∧
      invite.security = "pinned-tls" := by
  obtain ⟨version, url, security, pin, secret⟩ := invite
  simp only [finish, bind_eq_ok_iff, context_eq_ok_iff, bailUnless_eq_ok_iff, pure,
    Except.pure, Except.ok.injEq, Invite.mk.injEq]
  constructor
  · rintro ⟨_, hversion, -, rfl, _, hsecurity, -, rfl, _, hurl, _, hpin, rfl, rfl, rfl, rfl, rfl⟩
    exact ⟨hversion, hsecurity, hurl, hpin, rfl, rfl, rfl⟩
  · rintro ⟨hversion, hsecurity, hurl, hpin, rfl, rfl, rfl⟩
    exact ⟨1, hversion, (), rfl, _, hsecurity, (), rfl, _, hurl, _, hpin, rfl, rfl, rfl, rfl, rfl⟩

/-- What one pair sets. -/
theorem InviteQuery.setPair_spec {query' : InviteQuery} {pair : String × String}
    (h : query.setPair pair = .ok query') :
    query'.controlUrl = (if pair.1 = "control" then some pair.2 else query.controlUrl) ∧
    query'.controlPin = (if pair.1 = "control_pin" then some pair.2 else query.controlPin) ∧
    query'.clientSecret
      = (if pair.1 = "client_secret" then some pair.2 else query.clientSecret) := by
  obtain ⟨key, value⟩ := pair
  unfold setPair at h
  dsimp only at h
  split at h
  case h_6 hv hcontrol hsecurity hpin hsecret =>
    cases h
    exact ⟨(if_neg hcontrol).symm, (if_neg hpin).symm, (if_neg hsecret).symm⟩
  all_goals
    split at h <;> cases h
    simp

/-- The variables behind the loop have the last values of their keys. -/
theorem InviteQuery.foldlM_setPair {pairs : List (String × String)}
    (h : pairs.foldlM setPair {} = .ok query) :
    query.controlUrl = Query.lastValue "control" pairs ∧
    query.controlPin = Query.lastValue "control_pin" pairs ∧
    query.clientSecret = Query.lastValue "client_secret" pairs := by
  induction pairs using List.reverseRecOn generalizing query with
  | nil =>
    cases h
    exact ⟨rfl, rfl, rfl⟩
  | append_singleton init last ih =>
    obtain ⟨before, hbefore, hset⟩ := foldlM_concat_eq_ok_iff.mp h
    obtain ⟨hurl, hpin, hsecret⟩ := ih hbefore
    have hstep := setPair_spec hset
    rw [hurl, hpin, hsecret] at hstep
    simp only [Query.lastValue_concat]
    exact hstep

/-- A loop that ends well has found a pair in every piece. -/
theorem InviteQuery.foldlM_set {pieces : List String} {query' : InviteQuery}
    (h : pieces.foldlM set query = .ok query') :
    (pieces.filterMap (Str.splitOnce '=')).foldlM setPair query = .ok query' := by
  induction pieces generalizing query with
  | nil => exact h
  | cons piece pieces ih =>
    rw [List.foldlM_cons] at h
    obtain ⟨after, hset, hrest⟩ := bind_eq_ok_iff.mp h
    obtain ⟨pair, hpair, hset⟩ := bind_eq_ok_iff.mp hset
    rw [List.filterMap_cons_some (context_eq_ok_iff.mp hpair), List.foldlM_cons, hset]
    exact ih hrest

theorem InviteQuery.foldlM_set_fields (h : ∀ field ∈ fields, '=' ∉ field.1.toList) :
    (fields.map fun field => .ofList (fieldText field)).foldlM set query
      = fields.foldlM setPair query := by
  induction fields generalizing query with
  | nil => rfl
  | cons field fields ih =>
    have hset : query.set (.ofList (fieldText field)) = query.setPair field := by
      rw [set, splitOnce_fieldText (h field (by simp))]
      rfl
    rw [List.map_cons, List.foldlM_cons, List.foldlM_cons, hset]
    exact congrArg _ (funext fun after => ih fun other hother => h other (by simp [hother]))

/-- The parser on a text that starts as join invites do. -/
theorem parseInvite_append (query : String) :
    parseInvite ("medium://join?" ++ query)
      = (Str.split '&' query).foldlM InviteQuery.set {} >>= InviteQuery.finish := by
  have hraw : "medium://join?" ++ query = "medium://" ++ ("join" ++ .singleton '?' ++ query) := by
    simp [← String.toList_inj]
  have hpath : Str.splitOnce '?' ("join" ++ .singleton '?' ++ query) = some ("join", query) :=
    Str.splitOnce_append (by decide) query
  rw [parseInvite, hraw, splitOnceStr_medium]
  dsimp only [context, bind, Except.bind]
  rw [bailUnless, if_pos rfl, hpath]
  dsimp only
  rw [bailUnless, if_pos rfl]

theorem filterMap_splitOnce (query : String) :
    (Str.split '&' query).filterMap (Str.splitOnce '=')
      = (Query.pairs Query.splitPiece query.toList).map (Prod.map String.ofList String.ofList) := by
  rw [Str.split, Query.pairs, List.filterMap_map, List.map_filterMap]
  exact List.filterMap_congr fun piece _ => splitOnce_ofList piece

theorem pairs_joinQuery (hsecret : '&' ∉ secretText.toList) :
    Query.pairs Query.splitPiece (joinQuery controlUrl controlPin secretText).toList
      = (fieldChars (baseFields controlUrl controlPin)).flatMap
          (fun field => Query.pairs Query.splitPiece (Query.field field))
        ++ [("client_secret".toList, secretText.toList)] := by
  have hkey : Query.IsKey id "client_secret".toList := ⟨by decide, by decide, rfl⟩
  have hlast := Query.pairs_field Query.reads_splitPiece hkey hsecret
  rw [joinQuery, queryText, String.toList_ofList, joinFields, baseFields, List.cons_append,
    List.map_cons, Query.pairs_intercalate, ← List.map_cons, ← List.cons_append, List.map_append,
    List.flatMap_append, List.flatMap_map, List.flatMap_map, fieldChars, List.flatMap_map,
    List.flatMap_singleton, fieldText, hlast]
  rfl

theorem isKey_baseFields : ∀ field ∈ fieldChars (baseFields controlUrl controlPin),
    Query.IsKey id field.1 := by
  intro field hfield
  simp only [baseFields, fieldChars, List.map_cons, List.map_nil, List.mem_cons,
    List.not_mem_nil, or_false] at hfield
  obtain rfl | rfl | rfl | rfl := hfield <;> exact ⟨by simp, by simp, rfl⟩

theorem nodup_baseFields :
    ((fieldChars (baseFields controlUrl controlPin)).map Prod.fst).Nodup := by
  simp [baseFields, fieldChars]

/-- The values that come back are the ones that were written. -/
theorem amp_notMem_of_parseInvite {invite : Invite} (hsecretText : '&' ∉ secretText.toList)
    (hparse : parseInvite ("medium://join?" ++ joinQuery controlUrl controlPin secretText)
      = .ok invite)
    (hurl : invite.controlUrl = controlUrl) (hpin : invite.controlPin = controlPin)
    (hsecret : invite.clientSecret = some clientSecret) :
    '&' ∉ controlUrl.toList ∧ '&' ∉ controlPin.toList ∧ secretText = clientSecret := by
  rw [parseInvite_append] at hparse
  obtain ⟨query, hfold, hfinish⟩ := bind_eq_ok_iff.mp hparse
  obtain ⟨-, -, hurl', hpin', hsecret', -⟩ := InviteQuery.finish_eq_ok_iff.mp hfinish
  have hpairs := InviteQuery.foldlM_set hfold
  rw [filterMap_splitOnce] at hpairs
  obtain ⟨hlastUrl, hlastPin, hlastSecret⟩ := InviteQuery.foldlM_setPair hpairs
  have hfoundUrl := lastValue_chars (hlastUrl.symm.trans (hurl'.trans (congrArg some hurl)))
  have hfoundPin := lastValue_chars (hlastPin.symm.trans (hpin'.trans (congrArg some hpin)))
  have hfoundSecret := lastValue_chars (hlastSecret.symm.trans (hsecret'.trans hsecret))
  rw [pairs_joinQuery hsecretText] at hfoundUrl hfoundPin hfoundSecret
  rw [Query.lastValue_concat_self, Option.some_inj, String.toList_inj] at hfoundSecret
  have hvalues : ∀ field ∈ fieldChars (baseFields controlUrl controlPin),
      Query.Transparent id field.2 ∨ Query.lastValue field.1
        ((fieldChars (baseFields controlUrl controlPin)).flatMap
            (fun field => Query.pairs Query.splitPiece (Query.field field))
          ++ [("client_secret".toList, secretText.toList)]) = some field.2 := by
    intro chars hchars
    obtain ⟨field, hfield, rfl⟩ := List.mem_map.mp hchars
    simp only [baseFields, List.mem_cons, List.not_mem_nil, or_false] at hfield
    obtain rfl | rfl | rfl | rfl := hfield
    · exact .inl (Query.transparent_id_iff.mpr (by simp))
    · exact .inr hfoundUrl
    · exact .inl (Query.transparent_id_iff.mpr (by simp))
    · exact .inr hfoundPin
  have hall := Query.transparent_of_lastValue Query.reads_splitPiece isKey_baseFields
    nodup_baseFields (fun field hfield other hother => ?_) hvalues
  · refine ⟨?_, ?_, hfoundSecret⟩
    · exact (hall ("control".toList, controlUrl.toList) (by simp [baseFields, fieldChars])).1
    · exact (hall ("control_pin".toList, controlPin.toList) (by simp [baseFields, fieldChars])).1
  · rw [List.mem_singleton.mp hother]
    simp only [baseFields, fieldChars, List.map_cons, List.map_nil, List.mem_cons,
      List.not_mem_nil, or_false] at hfield
    obtain rfl | rfl | rfl | rfl := hfield <;> simp

theorem Android.startsWith_of_parse {clients : Clients parseUrl} {invite : Android.JoinInvite}
    (h : Android.JoinInvite.parse clients text = .ok invite) :
    Android.startsWith invite.controlPin "sha256:" = true := by
  simp only [Android.JoinInvite.parse, bind_eq_ok_iff, bailUnless_eq_ok_iff, pure, Except.pure,
    Except.ok.injEq, exists_const] at h
  obtain ⟨uri, -, -, query, -, -, -, -, hpin, rfl⟩ := h
  exact hpin

end

/-! ## Every client -/

variable {c : Char}

theorem urlQueryValue_eq_self_iff {value : String} :
    urlQueryValue value = value ↔
      ∀ c ∈ value.toList, FormUrlencoded.isUnreservedChar c = true := by
  rw [← FormUrlencoded.byteSerialize_eq_self_iff, urlQueryValue, ← String.toList_inj,
    String.toList_ofList]

/-- All clients recover the control URL and the pin, and the command line the secret too. -/
structure RoundTrips (clients : Clients parseUrl)
    (text controlUrl controlPin clientSecret : String) : Prop where
  cli : ∃ invite, parseInvite text = .ok invite ∧ invite.controlUrl = controlUrl ∧
    invite.controlPin = controlPin ∧ invite.clientSecret = some clientSecret
  android : Android.startsWith controlUrl "https://" = true →
    ∃ invite, Android.JoinInvite.parse clients text = .ok invite ∧
      invite.controlUrl = controlUrl ∧ invite.controlPin = controlPin
  apple : ∃ invite, Apple.JoinInvite.parse clients text = .ok invite ∧
    invite.controlUrl.absoluteString = controlUrl ∧ invite.controlPin = controlPin

/-- The encoder leaves the secret alone, no other field is cut in two, and the Android app takes
the pin for one. -/
structure Readable (controlUrl controlPin clientSecret : String) : Prop where
  secret : ∀ c ∈ clientSecret.toList, FormUrlencoded.isUnreservedChar c = true
  url : '&' ∉ controlUrl.toList
  pin : '&' ∉ controlPin.toList
  android : Android.startsWith controlUrl "https://" = true →
    Android.startsWith controlPin "sha256:" = true

section

variable {controlUrl controlPin clientSecret normalized : String}

theorem amp_notMem_urlQueryValue (value : String) : '&' ∉ (urlQueryValue value).toList := by
  rw [urlQueryValue, String.toList_ofList]
  exact FormUrlencoded.amp_notMem_byteSerialize _

theorem RoundTrips.readable {clients : Clients parseUrl}
    (h : RoundTrips clients
      ("medium://join?" ++ joinQuery normalized controlPin (urlQueryValue clientSecret))
      normalized controlPin clientSecret) : Readable normalized controlPin clientSecret := by
  obtain ⟨invite, hparse, hurl, hpin, hsecret⟩ := h.cli
  obtain ⟨hurlAmp, hpinAmp, hsame⟩ :=
    amp_notMem_of_parseInvite (amp_notMem_urlQueryValue _) hparse hurl hpin hsecret
  refine ⟨urlQueryValue_eq_self_iff.mp hsame, hurlAmp, hpinAmp, fun hhttps => ?_⟩
  obtain ⟨android, hparse, -, rfl⟩ := h.android hhttps
  exact Android.startsWith_of_parse hparse

end

/-! ### An IPv6 address -/

end MediumOverlay
