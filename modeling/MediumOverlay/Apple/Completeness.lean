import MediumOverlay.HomeNode.RequestForwarding
import MediumOverlay.Lib.SwiftString

/-!
# When a request is complete

The proxy of the iOS app reads a request from a browser until it is complete, and so does the
proxy of a node.  Both look for the empty line behind the header and for the length of the body
in the header.

They do so in different ways.  The app has to read all of the bytes as text, the body too, and
waits as long as it cannot.  The node only reads the header as text, and takes a request for
complete if it cannot.  The app splits the header at `\r\n`, and the first field with the name
counts.  A value that is no number counts as zero.  The node splits at every line feed, and looks
for the first field with a number.

What a browser sends is a part of a request.  There the header ends where both find its end
(`headerEnd_encode`), and both read the same length (`expectedLength_of_encode`).  What remains is
that the app reads the body as text (`request_completeness_iff`).
-/

namespace MediumOverlay

open Http SwiftString

variable {u : Characters}

namespace Apple

/-! ## The app -/

/-- The content length in a line, as a number or as zero. -/
def contentLength (u : Characters) (line : List Char) : Option Int :=
  match splitOnce u ':' line with
  | [name, value] =>
    if Str.eqIgnoreAsciiCase (.ofList (trimBlanks name)) "content-length" then
      some ((parseInt (trimBlanks value)).getD 0)
    else none
  | _ => none

/-- The lines of a header, with the first length among them. -/
def expectedLength (u : Characters) (headers : List Char) : Option Int :=
  (splitLines headers).findSome? (contentLength u)

/-- `isCompleteHTTPRequest`. -/
def isCompleteHTTPRequest (u : Characters) (data : Bytes) : Bool :=
  match String.fromUTF8? ⟨data.toArray⟩ with
  | none => false
  | some request =>
    match rangeOf u exactly ['\r', '\n', '\r', '\n'] none request.toList with
    | none => false
    | some (headers, _, body) =>
      match expectedLength u headers with
      | some expected => expected ≤ (Utf8.encode body).length
      | none => true

end Apple

/-! ## The end of the header -/

/-- An empty line is found wherever its scalars are. -/
theorem rangeOf_emptyLine (before : Option Char) (rest : List Char) :
    rangeOf u exactly ['\r', '\n', '\r', '\n'] before ('\r' :: '\n' :: '\r' :: '\n' :: rest)
      = some ([], ['\r', '\n', '\r', '\n'], rest) := by
  have hmatch : matchStart u exactly ['\r', '\n', '\r', '\n'] before
      ('\r' :: '\n' :: '\r' :: '\n' :: rest) = some (['\r', '\n', '\r', '\n'], rest) := by
    rw [matchStart, Option.filter_eq_some_iff]
    exact ⟨rfl, Bool.and_eq_true_iff.mpr ⟨u.isBoundary_cr before, u.isBoundary_lf _⟩⟩
  rw [rangeOf, hmatch]

theorem rangeOf_cons_of_not {c : Char} {cs : List Char}
    (h : ¬ ['\r', '\n', '\r', '\n'] <+: c :: cs) (before : Option Char) :
    rangeOf u exactly ['\r', '\n', '\r', '\n'] before (c :: cs)
      = (rangeOf u exactly ['\r', '\n', '\r', '\n'] (some c) cs).map fun r => (c :: r.1, r.2) := by
  have hnone : matchStart u exactly ['\r', '\n', '\r', '\n'] before (c :: cs) = none := by
    cases hstart : matchStart u exactly ['\r', '\n', '\r', '\n'] before (c :: cs) with
    | none => rfl
    | some r =>
      obtain ⟨happend, hm⟩ := matchScalars_eq_some (Option.filter_eq_some_iff.mp hstart).1
      rw [eq_of_forall₂_exactly hm] at happend
      exact absurd ⟨_, happend.symm⟩ h
  rw [rangeOf, hnone]

/-- The line ends of a text are those of its bytes. -/
theorem emptyLine_prefix_iff {cs : List Char} :
    [13, 10, 13, 10] <+: Utf8.encode cs ↔ ['\r', '\n', '\r', '\n'] <+: cs := by
  constructor
  · rintro ⟨rest, h⟩
    obtain ⟨cs₁, rfl, h₁⟩ := Utf8.eq_cons_of_encode (by decide) h.symm
    obtain ⟨cs₂, rfl, h₂⟩ := Utf8.eq_cons_of_encode (by decide) h₁
    obtain ⟨cs₃, rfl, h₃⟩ := Utf8.eq_cons_of_encode (by decide) h₂
    obtain ⟨cs₄, rfl, h₄⟩ := Utf8.eq_cons_of_encode (by decide) h₃
    exact ⟨cs₄, rfl⟩
  · rintro ⟨rest, rfl⟩
    exact ⟨Utf8.encode rest, rfl⟩

theorem headerEnd_cons_of_not {c : Char} {cs : List Char}
    (h : ¬ ['\r', '\n', '\r', '\n'] <+: c :: cs) :
    headerEnd (Utf8.encode (c :: cs))
      = (headerEnd (Utf8.encode cs)).map (· + (Utf8.encode [c]).length) := by
  have hcons : Utf8.encode (c :: cs) = Utf8.encode [c] ++ Utf8.encode cs := by
    simp [Utf8.encode]
  by_cases hc : c = '\r'
  · subst hc
    have hnot : ¬ [13, 10, 13, 10] <+: 13 :: Utf8.encode cs := fun hstart =>
      h (emptyLine_prefix_iff.mp hstart)
    rw [hcons]
    exact if_neg hnot
  · rw [hcons, headerEnd_skip]
    rintro b hb rfl
    exact hc (List.mem_singleton.mp (Utf8.mem_of_mem_encode (by decide) hb)).symm

/-- The header ends where the app finds its end. -/
theorem headerEnd_encode (before : Option Char) (cs : List Char) :
    headerEnd (Utf8.encode cs)
      = (rangeOf u exactly ['\r', '\n', '\r', '\n'] before cs).map
        fun r => (Utf8.encode r.1).length := by
  induction cs generalizing before with
  | nil => rfl
  | cons c cs ih =>
    by_cases h : ['\r', '\n', '\r', '\n'] <+: c :: cs
    · obtain ⟨rest, hrest⟩ := h
      rw [← hrest]
      simp only [List.cons_append, List.nil_append]
      rw [rangeOf_emptyLine]
      exact if_pos ⟨Utf8.encode rest, rfl⟩
    · rw [headerEnd_cons_of_not h, rangeOf_cons_of_not h, ih (some c), Option.map_map,
        Option.map_map]
      refine congrFun (congrArg Option.map (funext fun r => ?_)) _
      simp [Utf8.encode, Nat.add_comm]

/-! ## Text -/

/-- The bytes are text. -/
def IsText (data : Bytes) : Prop := ∃ cs, Utf8.encode cs = data

theorem fromUTF8?_eq_none_iff {data : Bytes} :
    String.fromUTF8? ⟨data.toArray⟩ = none ↔ ¬ IsText data := by
  constructor
  · rintro hnone ⟨cs, hcs⟩
    rw [← String.toList_ofList (l := cs), ← Utf8.fromUTF8?_eq_some_iff, hnone] at hcs
    cases hcs
  · intro hnot
    cases htext : String.fromUTF8? ⟨data.toArray⟩ with
    | none => rfl
    | some s => exact absurd ⟨s.toList, Utf8.fromUTF8?_eq_some_iff.mp htext⟩ hnot

theorem fromUTF8?_encode (cs : List Char) :
    String.fromUTF8? ⟨(Utf8.encode cs).toArray⟩ = some (.ofList cs) := by
  rw [Utf8.fromUTF8?_eq_some_iff, String.toList_ofList]

/-- A text with the end of a header. -/
theorem range_of_headerEnd (u : Characters) {cs : List Char} {k : Nat}
    (hend : headerEnd (Utf8.encode cs) = some k) :
    ∃ headers body, rangeOf u exactly ['\r', '\n', '\r', '\n'] none cs
        = some (headers, ['\r', '\n', '\r', '\n'], body)
      ∧ Utf8.encode headers = (Utf8.encode cs).take k
      ∧ (Utf8.encode body).length = (Utf8.encode cs).length - (k + 4) := by
  rw [headerEnd_encode none, Option.map_eq_some_iff] at hend
  obtain ⟨⟨headers, m, body⟩, hrange, rfl⟩ := hend
  obtain ⟨rfl, hm⟩ := rangeOf_eq_some hrange
  obtain rfl := eq_of_forall₂_exactly hm
  have happend : Utf8.encode (headers ++ (['\r', '\n', '\r', '\n'] ++ body))
      = Utf8.encode headers ++ 13 :: 10 :: 13 :: 10 :: Utf8.encode body := by
    simp [Utf8.encode]
    rfl
  refine ⟨headers, body, hrange, ?_, ?_⟩
  · rw [happend, List.take_left]
  · rw [happend, List.length_append]
    simp only [List.length_cons]
    omega

theorem isCompleteHTTPRequest_of_not_isText {data : Bytes} (h : ¬ IsText data) :
    Apple.isCompleteHTTPRequest u data = false := by
  rw [Apple.isCompleteHTTPRequest, fromUTF8?_eq_none_iff.mpr h]

/-! ## The length of the body -/

namespace Apple

variable {r : Request} {f : Field} {cs : List Char}

/-- A text with some other character is not the name of the field. -/
theorem not_named_of_mem {c : Char} (hblank : isBlank c = false)
    (hother : c.toLower ∉ "content-length".toList) (h : c ∈ cs) :
    Str.eqIgnoreAsciiCase (.ofList (trimBlanks cs)) "content-length" = false := by
  have hname : Str.toAsciiLowercase "content-length" = "content-length" := by decide +kernel
  have htrim : c ∈ trimBlanks cs := by
    refine Str.mem_trimMatches hblank ?_
    rwa [String.toList_ofList]
  rw [Str.eqIgnoreAsciiCase, hname, decide_eq_false_iff_not]
  intro heq
  rw [← heq, Str.toAsciiLowercase, String.toList_ofList, String.toList_ofList] at hother
  exact hother (List.mem_map_of_mem htrim)

/-- A line gives no length if none of its parts before a colon is the name. -/
theorem contentLength_eq_none (hhead : cs.head? ≠ some ':')
    (h : ∀ first rest, cs = first ++ ':' :: rest →
      Str.eqIgnoreAsciiCase (.ofList (trimBlanks first)) "content-length" = false) :
    contentLength u cs = none := by
  unfold contentLength
  split
  next first rest hsplit =>
    rw [h first rest (eq_append_of_splitOnce hhead hsplit), if_neg Bool.false_ne_true]
  next => rfl

/-- In the request line the path is in front of every colon. -/
theorem contentLength_requestLine (horigin : r.target.head? = some 47)
    (h : Utf8.encode cs = r.requestLine) : contentLength u cs = none := by
  obtain ⟨path, hpath⟩ := List.head?_eq_some_iff.mp horigin
  rw [Request.requestLine, hpath, List.append_assoc] at h
  obtain ⟨method, rest, rfl, hmethod, hrest⟩ := Utf8.eq_append_of_encode (by decide) h
  obtain ⟨rest, rfl, -⟩ := Utf8.eq_cons_of_encode (by decide) hrest
  rw [Utf8.encode_injective hmethod]
  have hcolon : ':' ∉ r.method.toList := fun hmem => absurd (r.method_token ':' hmem) (by decide)
  refine contentLength_eq_none ?_ fun first after heq => ?_
  · cases hmethod : r.method.toList with
    | nil => simp
    | cons c method =>
      rw [List.cons_append, List.head?_cons, Ne, Option.some.injEq]
      rintro rfl
      exact hcolon (by simp [hmethod])
  · refine not_named_of_mem (c := '/') (by decide) (by decide) ?_
    obtain ⟨mid, rfl, hmid⟩ | ⟨mid, hmethod, hmid⟩ := List.append_eq_append_iff.mp heq
    · obtain _ | ⟨_, _ | ⟨_, _⟩⟩ := mid
      · exact absurd (List.cons.inj hmid).1 (by decide)
      · exact absurd (List.cons.inj (List.cons.inj hmid).2).1 (by decide)
      · rw [← (List.cons.inj (List.cons.inj hmid).2).1]
        simp
    · cases mid with
      | nil => exact absurd (List.cons.inj hmid).1 (by decide)
      | cons c mid =>
        obtain rfl := (List.cons.inj hmid).1
        exact absurd (by simp [hmethod]) hcolon

theorem isBlank_eq_false {c : Char} (h : 33 ≤ c.toNat ∧ c.toNat ≤ 126) : isBlank c = false := by
  simp only [isBlank, Bool.or_eq_false_iff, Bool.and_eq_false_iff, decide_eq_false_iff_not]
  omega

theorem trimBlanks_name (f : Field) : trimBlanks f.name.toList = f.name.toList := by
  rw [trimBlanks, String.ofList_toList, Str.trimMatches_eq_self]
  exact fun c hc => isBlank_eq_false (isTokenChar_bounds (f.name_token c hc))

theorem colon_notMem_name (f : Field) : ':' ∉ f.name.toList := fun hmem =>
  absurd (f.name_token ':' hmem) (by decide)

/-- The length that the header gives. -/
def givenLength : Framing → Option Int
  | .contentLength n => some n
  | .chunked | .empty => none

theorem contentLength_named {n : Nat} (hn : f.IsNumeral n) (hlt : n < 2 ^ 63)
    (hnamed : f.isNamed "content-length" = true) (h : Utf8.encode cs = f.line) :
    contentLength u cs = some (n : Int) := by
  obtain ⟨name, value, rfl, hname, hvalue⟩ := Utf8.eq_append_of_encode (by decide) h
  obtain rfl := Utf8.encode_injective hname
  have hascii : ∀ c ∈ f.name.toList, Utf8.isAscii c = true := by
    intro c hc
    have hbounds := isTokenChar_bounds (f.name_token c hc)
    exact decide_eq_true (by omega)
  -- behind the colon is a blank or a digit
  obtain ⟨d, rest, rfl, hd, hdne⟩ : ∃ d rest, value = d :: rest ∧ Utf8.isAscii d = true ∧
      d ≠ '\n' := by
    obtain ⟨before, digits, after, rfl, hows, hne, hdigits, -⟩ := hn.chars hvalue
    cases before with
    | nil =>
      obtain ⟨d, digits, rfl⟩ := List.exists_cons_of_ne_nil hne
      have hd := isDigit_bounds (hdigits d List.mem_cons_self)
      refine ⟨d, digits ++ after, by simp, decide_eq_true (by omega), ?_⟩
      rintro rfl
      exact absurd hd.1 (by decide)
    | cons d before =>
      refine ⟨d, _, rfl, ?_⟩
      obtain rfl | rfl := hows d (by simp) <;> decide
  obtain ⟨digits, htrim, hne, hdigits, rfl⟩ := hn.trim hvalue (p := isBlank) (by decide)
    (by decide) fun c hc => isBlank_eq_false (by omega)
  have hsplit : splitOnce u ':' (f.name.toList ++ ':' :: d :: rest) = [f.name.toList, d :: rest] :=
    splitOnce_append f.name_ne (colon_notMem_name f) hascii (by decide) (by decide) hd hdne
  have hcolonChar : Char.ofNat (58 : UInt8).toNat = ':' := rfl
  have hnamed : Str.eqIgnoreAsciiCase (.ofList f.name.toList) "content-length" = true := by
    rw [String.ofList_toList]
    exact hnamed
  rw [hcolonChar, contentLength, hsplit]
  dsimp only
  rw [trimBlanks_name, if_pos hnamed, trimBlanks, htrim, String.toList_ofList,
    parseInt_digits hne hdigits hlt, Option.getD_some]

theorem contentLength_not_named (hnamed : f.isNamed "content-length" = false)
    (h : Utf8.encode cs = f.line) : contentLength u cs = none := by
  obtain ⟨name, value, rfl, hname, -⟩ := Utf8.eq_append_of_encode (by decide) h
  obtain rfl := Utf8.encode_injective hname
  have hcolon := colon_notMem_name f
  refine contentLength_eq_none ?_ fun first after heq => ?_
  · obtain ⟨c, name, hcons⟩ := List.exists_cons_of_ne_nil f.name_ne
    rw [hcons, List.cons_append, List.head?_cons, Ne, Option.some.injEq]
    rintro rfl
    exact hcolon (by simp [hcons])
  · by_cases hmem : ':' ∈ first
    · exact not_named_of_mem (by decide) (by decide) hmem
    · have hfirst : first = f.name.toList := by
        obtain ⟨mid, rfl, hmid⟩ | ⟨mid, hname, hmid⟩ := List.append_eq_append_iff.mp heq
        · cases mid with
          | nil => exact List.append_nil _
          | cons c mid =>
            obtain rfl := (List.cons.inj hmid).1
            exact absurd (by simp) hmem
        · cases mid with
          | nil => rw [hname, List.append_nil]
          | cons c mid =>
            obtain rfl := (List.cons.inj hmid).1
            exact absurd (by simp [hname]) hcolon
      rw [hfirst, trimBlanks_name, String.ofList_toList]
      exact hnamed

/-- The app reads the length that the header gives. -/
theorem expectedLength_of_encode (horigin : r.target.head? = some 47)
    (hshort : r.body.length < 2 ^ 63) (h : Utf8.encode cs = r.text) :
    expectedLength u cs = givenLength r.framing := by
  obtain ⟨texts, htexts, rfl⟩ := texts_of_encode (by simp [Request.lines]) h
  have hlines : ∀ line ∈ texts, line ≠ [] ∧ '\r' ∉ line := by
    intro line hline
    have hline := (r.isLine _ (htexts ▸ List.mem_map_of_mem hline)).text rfl
    exact ⟨hline.1, hline.2.1⟩
  obtain ⟨first, rest, rfl, hfirst, hrest⟩ := List.map_eq_cons_iff.mp htexts
  rw [expectedLength, splitLines_intercalate (by simp) hlines, List.findSome?_cons,
    contentLength_requestLine horigin hfirst]
  have hfields : ∀ f ∈ r.fields, ∀ cs, Utf8.encode cs = f.line →
      contentLength u cs = if f.isNamed "content-length" then givenLength r.framing else none := by
    intro f hf cs hcs
    have hframed := r.framed
    split
    next hnamed =>
      cases hframing : r.framing with
      | contentLength n =>
        rw [hframing] at hframed
        exact contentLength_named (hframed.2.1 f hf hnamed) (hframed.2.2.2 ▸ hshort) hnamed hcs
      | chunked | empty =>
        rw [hframing] at hframed
        rw [hframed.1 f hf] at hnamed
        cases hnamed
    next hnamed => exact contentLength_not_named (Bool.eq_false_iff.mpr hnamed) hcs
  dsimp only
  rw [findSome?_named hfields hrest]
  have hframed := r.framed
  cases hframing : r.framing with
  | contentLength n =>
    rw [hframing] at hframed
    rw [if_pos (List.any_eq_true.mpr hframed.1)]
  | chunked | empty => exact ite_self _

/-- A part of a request is complete for the app if it has the header, all of it is text, and the
body is there if the header gives its length. -/
theorem isCompleteHTTPRequest_iff (horigin : r.target.head? = some 47)
    (hshort : r.body.length < 2 ^ 63) {data rest : Bytes} (h : data ++ rest = r.bytes) :
    isCompleteHTTPRequest u data = true ↔
      r.header.length ≤ data.length ∧ IsText data
        ∧ ∀ n, r.framing = .contentLength n → rest = [] := by
  by_cases htext : IsText data
  swap
  · simp [isCompleteHTTPRequest_of_not_isText htext, htext]
  have hend := headerEnd_append (h ▸ headerEnd_bytes r)
  rw [← r.length_header] at hend
  obtain ⟨cs, rfl⟩ := htext
  have hrequest : isCompleteHTTPRequest u (Utf8.encode cs)
      = match rangeOf u exactly ['\r', '\n', '\r', '\n'] none cs with
        | none => false
        | some (headers, _, body) =>
          match expectedLength u headers with
          | some expected => decide (expected ≤ (Utf8.encode body).length)
          | none => true := by
    rw [isCompleteHTTPRequest, fromUTF8?_encode, ← String.toList_ofList (l := cs)]
    simp only [String.toList_ofList]
  by_cases hheader : r.header.length ≤ (Utf8.encode cs).length
  swap
  · rw [if_neg hheader, headerEnd_encode (u := u) none, Option.map_eq_none_iff] at hend
    rw [hrequest, hend]
    simp [hheader]
  rw [if_pos hheader] at hend
  obtain ⟨headers, body, hrange, hheaders, hbody⟩ := range_of_headerEnd u hend
  have hlength := congrArg List.length h
  rw [r.bytes_eq, List.length_append, List.length_append] at hlength
  simp only [List.length_cons] at hlength
  rw [r.length_header] at hheader
  rw [take_text h hheader] at hheaders
  rw [hrequest, hrange]
  dsimp only
  rw [expectedLength_of_encode horigin hshort hheaders, hbody]
  have hframed := r.framed
  have htext : IsText (Utf8.encode cs) := ⟨cs, rfl⟩
  rw [r.length_header]
  cases hframing : r.framing with
  | contentLength n =>
    rw [hframing] at hframed
    have hn : r.body.length = n := hframed.2.2.2
    have hrest : (n : Int) ≤ ((Utf8.encode cs).length - (r.text.length + 4) : Nat) ↔ rest = [] := by
      rw [← List.length_eq_zero_iff]
      omega
    rw [givenLength, decide_eq_true_eq, hrest]
    simp [hheader, htext]
  | chunked | empty => simp [givenLength, hheader, htext]

end Apple

/-! ## The two answers -/

/-- Of what a browser has sent of a request so far, the app and the node say the same if the
header is not there yet, if all of it is text, or if the header gives the length of the body and
is text and the body is not there yet. -/
theorem request_completeness_iff (u : Characters) (r : Request)
    (horigin : r.target.head? = some 47) (hshort : r.body.length < 2 ^ 63) (data rest : Bytes)
    (h : data ++ rest = r.bytes) :
    Apple.isCompleteHTTPRequest u data = completeHttpRequest data
      ↔ data.length < r.header.length ∨ IsText data ∨ GivesLength r ∧ rest ≠ [] := by
  have hread : ∀ n, readLength r.framing = some n ↔ r.framing = .contentLength n := by
    intro n
    have hframed := r.framed
    cases hframing : r.framing with
    | contentLength m =>
      rw [hframing] at hframed
      have hm : r.body.length = m := hframed.2.2.2
      rw [readLength, if_pos (by omega)]
      simp
    | chunked | empty => simp [readLength]
  rw [Bool.eq_iff_iff, Apple.isCompleteHTTPRequest_iff horigin hshort h, completeHttpRequest_iff h]
  simp only [hread]
  by_cases hheader : r.header.length ≤ data.length
  swap
  · simp [hheader, Nat.not_le.mp hheader]
  by_cases htext : IsText data
  · have hheaderText : ∃ text, Utf8.encode text = r.text := by
      obtain ⟨cs, rfl⟩ := htext
      rw [r.length_header] at hheader
      have hend := headerEnd_append (h ▸ headerEnd_bytes r)
      rw [if_pos hheader] at hend
      obtain ⟨headers, -, -, hheaders, -⟩ := range_of_headerEnd u hend
      exact ⟨headers, hheaders.trans (take_text h hheader)⟩
    simp [hheader, htext, hheaderText]
  · simp only [hheader, htext, Nat.not_lt.mpr hheader, false_and, and_false, true_and, false_or,
      false_iff, GivesLength]
    constructor
    · intro hnot
      by_contra hcontra
      refine hnot fun hheaderText n hframing => ?_
      by_contra hrest
      exact hcontra ⟨⟨hheaderText, n, hframing⟩, hrest⟩
    · rintro ⟨⟨hheaderText, n, hframing⟩, hrest⟩ hall
      exact hrest (hall hheaderText n hframing)

/-- A request with a letter of two bytes for a body. -/
def letterRequest : Request :=
  { lengthRequest with body := [0xc3, 0xa9], framed := lengthRequest.framed }

/-- Half of the letter is no text, and both wait for the rest. -/
theorem request_completeness_iff_half :
    Apple.isCompleteHTTPRequest .plain (letterRequest.header ++ [0xc3])
      = completeHttpRequest (letterRequest.header ++ [0xc3]) :=
  (request_completeness_iff .plain letterRequest rfl (by decide) _ [0xa9] (by decide)).mpr
    (.inr (.inr ⟨⟨⟨"POST / HTTP/1.1\r\nContent-Length: 2".toList, by decide⟩, 2, rfl⟩, by decide⟩))

/-! ### A body that is no text -/

/-- A request with a body of one byte. -/
def byteRequest : Bytes :=
  Utf8.encode "POST / HTTP/1.1\r\nHost: app.medium\r\nContent-Length: 1\r\n\r\n".toList ++ [0xff]

/-- The node has the request.  The app waits for more of it. -/
theorem app_waits_for_complete_request :
    Apple.isCompleteHTTPRequest .plain byteRequest = false
      ∧ completeHttpRequest byteRequest = true := by
  decide +kernel

end MediumOverlay
