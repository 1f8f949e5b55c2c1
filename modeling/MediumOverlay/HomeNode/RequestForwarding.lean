import MediumOverlay.Lib.Trace
import MediumOverlay.HomeNode.ServiceProxy

/-!
# Forwarding an HTTP request

The proxy of an HTTP service reads a request, sends it to the target and waits 12 s for
the first bytes of the response.  It only reads on while it waits for nothing.  So the
part of the request that it has not read by then is not forwarded, and a target that
answers behind the whole request does not answer.

`read_http_request_for_proxy` stops in front of the end of a request if that is longer
than the buffer may get, or if `complete_http_request` takes a part for the whole.  It
does so as soon as it has the header, unless the header is text and gives the length of
the body (`request_forwarded_iff`).
-/

namespace MediumOverlay

open Trace Http

/-! ## The end of the header -/

theorem headerEnd_bytes (r : Request) : headerEnd r.bytes = some r.text.length := by
  rw [r.bytes_eq]
  exact headerEnd_intercalate (by simp [Request.lines]) r.isLine r.body

/-- A part of a request with the header has its text. -/
theorem take_text {r : Request} {data rest : Bytes} (h : data ++ rest = r.bytes)
    (hheader : r.text.length + 4 ≤ data.length) : data.take r.text.length = r.text := by
  have hle : r.text.length ≤ data.length := by omega
  have htake := congrArg (List.take r.text.length) h
  rwa [List.take_append_of_le_length hle, r.bytes_eq, List.take_left] at htake

/-! ## The length of the body -/

/-- A text with a point in it is no length. -/
theorem parseUnsigned_point {s : String} (h : '.' ∈ s.toList) :
    (Str.parseUnsigned (2 ^ 64 - 1) (Str.trim s)).toOption = none := by
  cases hparse : Str.parseUnsigned (2 ^ 64 - 1) (Str.trim s) with
  | error message => rfl
  | ok n =>
    have hmem : '.' ∈ (Str.trim s).toList := Str.mem_trimMatches (by decide) h
    exact absurd (Str.isDigit_of_parseUnsigned hparse '.' hmem) (by decide)

variable {r : Request} {cs : List Char}

/-- The request line gives no length, since the version is behind every colon. -/
theorem contentLength_requestLine (h : Utf8.encode cs = r.requestLine) :
    contentLength (.ofList cs) = none := by
  obtain ⟨before, version, rfl, -, hversion⟩ := Utf8.eq_append_of_encode (by decide) h
  rw [Utf8.encode_injective hversion, contentLength, Option.bind_eq_none_iff]
  rintro ⟨name, value⟩ hsplit
  have heq := congrArg String.toList (Str.eq_append_of_splitOnce hsplit)
  rw [String.toList_ofList, String.toList_append, String.toList_append, String.toList_singleton,
    List.append_assoc, List.singleton_append] at heq
  have hpoint : '.' ∈ value.toList := by
    obtain ⟨mid, -, hmid⟩ | ⟨mid, -, hmid⟩ := List.append_eq_append_iff.mp heq
    · have hcolon : ':' ∈ mid ++ ':' :: value.toList := by simp
      rw [← hmid] at hcolon
      exact absurd hcolon (by decide)
    · have hmem : '.' ∈ ':' :: value.toList := by
        rw [hmid]
        exact List.mem_append_right mid (by decide)
      exact (List.mem_cons.mp hmem).resolve_left (by decide)
  dsimp only
  rw [parseUnsigned_point hpoint, ite_self]

variable {f : Field}

/-- A field gives a length only if it is named for it. -/
theorem contentLength_line (h : Utf8.encode cs = f.line) :
    ∃ value, Utf8.encode value = f.value ∧ contentLength (.ofList cs) =
      if f.isNamed "content-length" then
        (Str.parseUnsigned (2 ^ 64 - 1) (Str.trim (.ofList value))).toOption
      else none := by
  obtain ⟨name, value, rfl, hname, hvalue⟩ := Utf8.eq_append_of_encode (by decide) h
  obtain rfl := Utf8.encode_injective hname
  refine ⟨value, hvalue, ?_⟩
  have hcolon : ':' ∉ f.name.toList := fun hmem => absurd (f.name_token ':' hmem) (by decide)
  have hlist : String.ofList (f.name.toList ++ .ofNat (58 : UInt8).toNat :: value)
      = f.name ++ .singleton ':' ++ .ofList value := by
    rw [← String.toList_inj]
    simp
  have htrim : Str.trim f.name = f.name :=
    Str.trimMatches_eq_self fun c hc =>
      isWhitespace_eq_false (isTokenChar_bounds (f.name_token c hc))
  rw [hlist, contentLength, Str.splitOnce_append hcolon, Option.bind_some]
  dsimp only
  rw [htrim]
  rfl

variable {n : Nat}

/-- The proxy reads a numeral, if it is not too large. -/
theorem parse_numeral {value : List Char} (hn : f.IsNumeral n) (h : Utf8.encode value = f.value) :
    (Str.parseUnsigned (2 ^ 64 - 1) (Str.trim (.ofList value))).toOption
      = if n ≤ 2 ^ 64 - 1 then some n else none := by
  obtain ⟨digits, htrim, hne, hdigits, rfl⟩ := hn.trim h (p := Str.isWhitespace) (by decide)
    (by decide) fun c hc => isWhitespace_eq_false (by omega)
  rw [Str.trim, htrim, Str.parseUnsigned_toOption hne hdigits]

/-- What the proxy takes for the length of the body. -/
def readLength : Framing → Option Nat
  | .contentLength n => if n ≤ 2 ^ 64 - 1 then some n else none
  | .chunked | .empty => none

theorem contentLength_fields (hf : f ∈ r.fields) (h : Utf8.encode cs = f.line) :
    contentLength (.ofList cs) =
      if f.isNamed "content-length" then readLength r.framing else none := by
  obtain ⟨value, hvalue, hread⟩ := contentLength_line h
  rw [hread]
  split
  next hnamed =>
    have hframed := r.framed
    cases hframing : r.framing with
    | contentLength n =>
      rw [hframing] at hframed
      exact parse_numeral (hframed.2.1 f hf hnamed) hvalue
    | chunked | empty =>
      rw [hframing] at hframed
      rw [hframed.1 f hf] at hnamed
      cases hnamed
  next => rfl

/-- The lines that give a length give that of the request. -/
theorem findSome?_contentLength {texts : List (List Char)} (h : texts.map Utf8.encode = r.lines) :
    (texts.map String.ofList).findSome? contentLength = readLength r.framing := by
  obtain ⟨first, rest, rfl, hfirst, hrest⟩ := List.map_eq_cons_iff.mp h
  rw [List.map_cons, List.findSome?_cons, contentLength_requestLine hfirst]
  dsimp only
  have hfields : rest.findSome? (contentLength ∘ String.ofList)
      = if r.fields.any (·.isNamed "content-length") then readLength r.framing else none :=
    findSome?_named (fun f hf cs hcs => contentLength_fields hf hcs) hrest
  rw [List.findSome?_map, hfields]
  have hframed := r.framed
  cases hframing : r.framing with
  | contentLength n =>
    rw [hframing] at hframed
    rw [if_pos (List.any_eq_true.mpr hframed.1)]
  | chunked | empty => exact ite_self _

/-! ## The test on a part of the request -/

/-- The header is text and gives the length of the body. -/
def GivesLength (r : Request) : Prop :=
  (∃ text, Utf8.encode text = r.text) ∧ ∃ n, r.framing = .contentLength n

theorem length_body (h : readLength r.framing = some n) : r.body.length = n := by
  have hframed := r.framed
  cases hframing : r.framing with
  | contentLength m =>
    rw [hframing] at hframed h
    rw [readLength] at h
    split at h
    next =>
      cases h
      exact hframed.2.2.2
    next => cases h
  | chunked | empty =>
    rw [hframing] at h
    cases h

/-- A part of the request is taken for the whole when it has the header, unless the proxy
can read the length of the body.  Then it has to have the body too. -/
theorem completeHttpRequest_iff {data rest : Bytes} (h : data ++ rest = r.bytes) :
    completeHttpRequest data = true ↔
      r.header.length ≤ data.length ∧
        ((∃ text, Utf8.encode text = r.text) → ∀ n, readLength r.framing = some n → rest = []) := by
  have hend := headerEnd_append (h ▸ headerEnd_bytes r)
  have hlength := congrArg List.length h
  rw [r.bytes_eq, List.length_append, List.length_append] at hlength
  rw [r.length_header]
  unfold completeHttpRequest
  by_cases hheader : r.text.length + 4 ≤ data.length
  · rw [hend, if_pos hheader]
    dsimp only
    rw [take_text h hheader]
    cases htext : String.fromUTF8? ⟨r.text.toArray⟩ with
    | none =>
      refine iff_of_true rfl ⟨hheader, fun ⟨text, hencode⟩ => ?_⟩
      rw [← String.toList_ofList (l := text), ← Utf8.fromUTF8?_eq_some_iff, htext] at hencode
      cases hencode
    | some s =>
      have hencode := Utf8.fromUTF8?_eq_some_iff.mp htext
      obtain ⟨texts, htexts, hlines⟩ :=
        lines_of_encode (by simp [Request.lines]) r.isLine hencode
      rw [String.ofList_toList] at hlines
      dsimp only
      rw [hlines, findSome?_contentLength htexts]
      cases hread : readLength r.framing with
      | none => simp [hheader]
      | some n =>
        have hbody := length_body hread
        simp only [decide_eq_true_eq, List.length_cons] at hlength ⊢
        have hrest : n ≤ data.length - (r.text.length + 4) ↔ rest = [] := by
          rw [← List.length_eq_zero_iff]
          omega
        rw [hrest]
        constructor
        · exact fun hnil => ⟨hheader, fun _ _ _ => hnil⟩
        · exact fun hall => hall.2 ⟨_, hencode⟩ n rfl
  · rw [hend, if_neg hheader]
    simp [hheader]

/-! ## Runs of the proxy -/

/-- The stages behind the wait, and those of an error. -/
def Stage.isLate : Stage → Bool
  | .forward _ | .respond _ | .closing | .copy _ _ | .done _ => true
  | _ => false

def TargetEffect.bytes : TargetEffect → Bytes
  | .connect _ => []
  | .write _ bytes => bytes

namespace ServiceProxy

/-- The bytes that the target has got. -/
def sent (p : ServiceProxy) : Bytes := p.effects.flatMap TargetEffect.bytes

def Event.pieces : Event → List Bytes
  | .read bytes => [bytes]
  | _ => []

/-- What the reads of the inbound side have returned. -/
def delivered (es : List Event) : List Bytes := es.flatMap Event.pieces

/-- The proxy gets the reads, and no others. -/
def Runs (service : ProxyService) (reads : List Bytes) (es : List Event) (p : ServiceProxy) :
    Prop :=
  exec step (start service) es = some p ∧ delivered es <+: reads

/-- The request is forwarded in front of the wait for the response.  With all of it the
proxy stops reading.  When it waits, the target has got all of it, and so the target is
not blamed for what it has not got. -/
structure Forwarded (service : ProxyService) (reads : List Bytes) : Prop where
  ends : ∀ es p, Runs service reads es p → delivered es = reads →
    ∀ buffer, p.stage ≠ .request buffer
  whole : ∀ es p, Runs service reads es p → p.stage = .first → p.sent = reads.flatten
  noTimeout : ∀ es p q, Runs service reads es p → p.step .timeout = some q →
    q.stage = .respond service.timeoutResponse → p.sent = reads.flatten

/-- `read_http_request_for_proxy` stops reading. -/
def stops (buffer : Bytes) : Bool := completeHttpRequest buffer || 64 * 1024 < buffer.length

/-- What a step of an HTTP service can do. -/
inductive Rule (p : ServiceProxy) : Event → Stage → Bytes → Prop where
  | raw (e : Event) (hpieces : e.pieces = []) : Rule p e p.stage []
  | accept (hstage : p.stage = .accept) : Rule p .accepted (.request []) []
  | read (buffer bytes : Bytes) (hstage : p.stage = .request buffer) :
      Rule p (.read bytes) (afterRequestRead buffer bytes) []
  | connect (request : Bytes) (hstage : p.stage = .connect (some request)) :
      Rule p .connected (sending request) []
  | send (rest : Bytes) (n : Nat) (hstage : p.stage = .send rest) :
      Rule p (.targetWrite n) (sending (rest.drop n)) (rest.take n)
  | late (e : Event) (stage : Stage) (bytes : Bytes) (hlate : stage.isLate = true) :
      Rule p e stage bytes

variable {e : Event}

theorem touches_eq_nil (p : ServiceProxy) (he : ∀ n, e ≠ .targetWrite n) (stage : Stage) :
    (p.touches e stage).flatMap TargetEffect.bytes = [] := by
  unfold touches
  split
  next => exact absurd rfl (he _)
  next => exact absurd rfl (he _)
  next => split <;> rfl

variable {p : ServiceProxy}

theorem touches_send {rest : Bytes} (h : p.stage = .send rest) (n : Nat) (stage : Stage) :
    (p.touches (.targetWrite n) stage).flatMap TargetEffect.bytes = rest.take n := by
  unfold touches
  rw [h]
  simp [TargetEffect.bytes]

theorem isLate_copying (toTarget toInbound : CopyDirection) :
    (copying toTarget toInbound).isLate = true := by
  unfold copying
  split <;> rfl

variable {stage : Stage}

theorem isLate_of_map {α : Type} {o : Option α} {f : α → Stage} (hf : ∀ a, (f a).isLate = true)
    (h : o.map f = some stage) : stage.isLate = true := by
  obtain ⟨a, -, rfl⟩ := Option.map_eq_some_iff.mp h
  exact hf a

theorem isLate_of_ite {c : Prop} [Decidable c] {s : Stage} (hs : s.isLate = true)
    (h : (if c then some s else none) = some stage) : stage.isLate = true := by
  split at h
  next =>
    cases h
    exact hs
  next => cases h

variable {q : ServiceProxy}

theorem step_rule (hmode : p.service.tlsMode = .http) (h : p.step e = some q) :
    ∃ bytes, q.sent = p.sent ++ bytes ∧ Rule p e q.stage bytes := by
  obtain ⟨stage, hnext, rfl⟩ := Option.map_eq_some_iff.mp h
  refine ⟨(p.touches e stage).flatMap TargetEffect.bytes, by simp [sent], ?_⟩
  dsimp only
  unfold next at hnext
  split at hnext
  -- Errors first, and then the steps behind the wait.
  all_goals try contradiction
  all_goals try (cases hnext; exact .late _ _ _ rfl)
  all_goals try exact .late _ _ _ (isLate_of_map (fun _ => rfl) hnext)
  all_goals try exact .late _ _ _ (isLate_of_map (fun _ => isLate_copying _ _) hnext)
  all_goals try exact .late _ _ _ (isLate_of_ite rfl hnext)
  next bytes _ =>
    obtain ⟨-, hnext⟩ := Option.ite_none_right_eq_some.mp hnext
    cases hnext
    rw [touches_eq_nil p (by simp)]
    exact .raw _ rfl
  next bytes _ =>
    obtain ⟨-, hnext⟩ := Option.ite_none_right_eq_some.mp hnext
    cases hnext
    rw [touches_eq_nil p (by simp)]
    exact .raw _ rfl
  next hstage =>
    rw [hmode] at hnext
    cases hnext
    rw [touches_eq_nil p (by simp)]
    exact .accept hstage
  next buffer bytes hstage =>
    obtain ⟨-, hnext⟩ := Option.ite_none_right_eq_some.mp hnext
    cases hnext
    rw [touches_eq_nil p (by simp)]
    exact .read buffer bytes hstage
  next request hstage =>
    cases hnext
    rw [touches_eq_nil p (by simp)]
    exact .connect request hstage
  next rest n hstage =>
    obtain ⟨-, hnext⟩ := Option.ite_none_right_eq_some.mp hnext
    cases hnext
    rw [touches_send hstage]
    exact .send rest n hstage
  next bytes hstage =>
    split at hnext
    next => cases hnext
    next =>
      split at hnext <;>
        cases hnext <;> exact .late _ _ _ rfl

/-! ### What is sent -/

/-- Up to the wait, the proxy sends what it has read, and it has read until it stops. -/
def Follows (seen : List Bytes) (sent : Bytes) : Stage → Prop
  | .accept => sent = [] ∧ seen = []
  | .request buffer => sent = [] ∧ buffer = seen.flatten ∧ stops buffer = false
  | .connect request => sent = [] ∧ request = some seen.flatten ∧ stops seen.flatten = true
  | .send rest => sent ++ rest = seen.flatten ∧ stops seen.flatten = true
  | .first => sent = seen.flatten ∧ stops seen.flatten = true
  | _ => True

theorem follows_of_isLate (h : stage.isLate = true) (seen : List Bytes) (sent : Bytes) :
    Follows seen sent stage := by
  cases stage <;> trivial

theorem afterRequestRead_eq (buffer : Bytes) {bytes : Bytes} (h : bytes ≠ []) :
    afterRequestRead buffer bytes =
      if stops (buffer ++ bytes) then .connect (some (buffer ++ bytes))
      else .request (buffer ++ bytes) := by
  rw [afterRequestRead, if_neg (by simpa using h)]
  rfl

variable {seen : List Bytes}

/-- The stage behind the connection, or behind a write. -/
theorem follows_sending {sent rest : Bytes} (hsent : sent ++ rest = seen.flatten)
    (hstops : stops seen.flatten = true) : Follows seen sent (sending rest) := by
  unfold sending
  split
  next hrest =>
    rw [List.isEmpty_iff.mp hrest, List.append_nil] at hsent
    exact ⟨hsent, hstops⟩
  next => exact ⟨hsent, hstops⟩

theorem follows_step (hmode : p.service.tlsMode = .http) (hp : Follows seen p.sent p.stage)
    (h : p.step e = some q) (hpieces : ∀ piece ∈ e.pieces, piece ≠ []) :
    Follows (seen ++ e.pieces) q.sent q.stage := by
  obtain ⟨bytes, hsent, hrule⟩ := step_rule hmode h
  rw [hsent]
  generalize q.stage = stage at hrule
  cases hrule with
  | raw e hraw =>
    rw [hraw, List.append_nil, List.append_nil]
    exact hp
  | accept hbefore =>
    rw [hbefore] at hp
    obtain ⟨hnone, rfl⟩ := hp
    exact ⟨by rw [hnone]; rfl, rfl, rfl⟩
  | read buffer piece hbefore =>
    rw [hbefore] at hp
    obtain ⟨hnone, rfl, -⟩ := hp
    have hne : piece ≠ [] := hpieces piece (List.mem_singleton_self piece)
    have hflatten : seen.flatten ++ piece = (seen ++ [piece]).flatten := by simp
    rw [afterRequestRead_eq _ hne, hflatten, hnone]
    split
    next hstops => exact ⟨rfl, rfl, hstops⟩
    next hstops => exact ⟨rfl, rfl, Bool.eq_false_iff.mpr hstops⟩
  | connect request hbefore =>
    rw [hbefore] at hp
    obtain ⟨hnone, hrequest, hstops⟩ := hp
    cases hrequest
    rw [hnone, show Event.connected.pieces = [] from rfl, List.append_nil]
    exact follows_sending rfl hstops
  | send rest n hbefore =>
    rw [hbefore] at hp
    rw [show (Event.targetWrite n).pieces = [] from rfl, List.append_nil]
    refine follows_sending ?_ hp.2
    rw [List.append_assoc, List.take_append_drop]
    exact hp.1
  | late e stage bytes hlate => exact follows_of_isLate hlate _ _

theorem delivered_append (es : List Event) (e : Event) :
    delivered (es ++ [e]) = delivered es ++ e.pieces := by
  simp [delivered]

section

variable {service : ProxyService} {reads : List Bytes} (htls : service.tlsConfig.isSome = true)
  (hmode : service.tlsMode = .http) (hne : ∀ piece ∈ reads, piece ≠ [])

include htls in
theorem start_eq : start service = ⟨service, .accept, [], [], []⟩ := by
  rw [start, if_pos htls]

include htls hmode hne in
theorem follows_run {es : List Event} (h : Runs service reads es p) :
    p.service = service ∧ Follows (delivered es) p.sent p.stage := by
  obtain ⟨hrun, hdelivered⟩ := h
  induction es using List.reverseRecOn generalizing p with
  | nil =>
    cases hrun
    rw [start_eq htls]
    exact ⟨rfl, rfl, rfl⟩
  | append_singleton es e ih =>
    rw [delivered_append] at hdelivered ⊢
    obtain ⟨q, hq, hstep⟩ := exec_append_eq_some.mp hrun
    obtain ⟨r, hstep, hr⟩ := exec_cons_eq_some.mp hstep
    cases hr
    obtain ⟨hservice, hfollows⟩ := ih hq ((List.prefix_append _ _).trans hdelivered)
    have hpieces : ∀ piece ∈ e.pieces, piece ≠ [] := fun piece hpiece =>
      hne piece (hdelivered.subset (List.mem_append_right _ hpiece))
    refine ⟨(step_eq_some hstep).1.trans hservice, ?_⟩
    exact follows_step (hservice ▸ hmode) hfollows hstep hpieces

/-! ### Where it stops -/

theorem delivered_reads (pieces : List Bytes) :
    delivered (.accepted :: pieces.map .read) = pieces := by
  induction pieces with
  | nil => rfl
  | cons piece pieces ih => exact congrArg (piece :: ·) ih

include htls hmode in
/-- The proxy reads as long as it does not stop. -/
theorem exec_reads {pieces : List Bytes}
    (hpieces : ∀ piece ∈ pieces, piece ≠ [] ∧ piece.length ≤ 1024)
    (hstops : ∀ seen, seen <+: pieces → stops seen.flatten = false) :
    exec step (start service) (.accepted :: pieces.map .read)
      = some ⟨service, .request pieces.flatten, [], [], []⟩ := by
  induction pieces using List.reverseRecOn with
  | nil =>
    rw [start_eq htls, List.map_nil, exec_cons_eq_some]
    refine ⟨_, ?_, rfl⟩
    simp [step, next, hmode, takes, puts, touches, Stage.isConnect]
  | append_singleton pieces piece ih =>
    obtain ⟨hbefore, hpiece⟩ := List.forall_mem_append.mp hpieces
    obtain ⟨hne, hlength⟩ := hpiece piece (List.mem_singleton_self piece)
    have hrun := ih hbefore fun seen hseen => hstops seen (hseen.trans (List.prefix_append _ _))
    have hstop := hstops (pieces ++ [piece]) (List.prefix_refl _)
    rw [List.map_append, ← List.cons_append, exec_append_eq_some]
    refine ⟨_, hrun, ?_⟩
    rw [List.map_singleton, exec_cons_eq_some]
    refine ⟨_, ?_, rfl⟩
    have hflatten : (pieces ++ [piece]).flatten = pieces.flatten ++ piece := by simp
    rw [hflatten] at hstop ⊢
    simp [step, next, hlength, afterRequestRead_eq _ hne, hstop, takes, puts, touches, tls, htls,
      Stage.isConnect]

theorem exists_step (h : p.next e = some stage) :
    ∃ q, p.step e = some q ∧ q.stage = stage ∧
      q.sent = p.sent ++ (p.touches e stage).flatMap TargetEffect.bytes := by
  rw [step, h]
  exact ⟨_, rfl, rfl, by simp [sent]⟩

/-- And then it goes on to the wait. -/
theorem exec_first {buffer piece : Bytes} (hstage : p.stage = .request buffer) (hne : piece ≠ [])
    (hlength : piece.length ≤ 1024) (hstops : stops (buffer ++ piece) = true) :
    ∃ q, exec step p [.read piece, .connected, .targetWrite (buffer ++ piece).length] = some q ∧
      q.stage = .first ∧ q.sent = p.sent ++ (buffer ++ piece) := by
  have hdata : (buffer ++ piece).isEmpty = false := by simp [hne]
  have hpos : 0 < (buffer ++ piece).length :=
    List.length_pos_of_ne_nil (List.append_ne_nil_of_right_ne_nil _ hne)
  have hread : p.next (.read piece) = some (.connect (some (buffer ++ piece))) := by
    simp [next, hstage, hlength, afterRequestRead_eq _ hne, hstops]
  obtain ⟨p₁, hstep₁, hstage₁, hsent₁⟩ := exists_step hread
  have hconnected : p₁.next .connected = some (.send (buffer ++ piece)) := by
    simp [next, hstage₁, sending, hdata]
  obtain ⟨p₂, hstep₂, hstage₂, hsent₂⟩ := exists_step hconnected
  have hwrite : p₂.next (.targetWrite (buffer ++ piece).length) = some .first := by
    unfold next
    rw [hstage₂]
    simp only [hpos, le_refl, and_self, if_true, List.drop_length]
    rfl
  obtain ⟨p₃, hstep₃, hstage₃, hsent₃⟩ := exists_step hwrite
  refine ⟨p₃, ?_, hstage₃, ?_⟩
  · rw [exec_cons_eq_some]
    refine ⟨p₁, hstep₁, ?_⟩
    rw [exec_cons_eq_some]
    refine ⟨p₂, hstep₂, ?_⟩
    rw [exec_cons_eq_some]
    exact ⟨p₃, hstep₃, rfl⟩
  · rw [hsent₃, touches_send hstage₂, List.take_length, hsent₂, touches_eq_nil _ (by simp),
      hsent₁, touches_eq_nil _ (by simp), List.append_nil, List.append_nil]

/-- A start with all of the bytes is the whole. -/
theorem eq_of_flatten_eq {reads : List Bytes} (hne : ∀ piece ∈ reads, piece ≠ [])
    (h : seen <+: reads) (hflatten : seen.flatten = reads.flatten) : seen = reads := by
  obtain ⟨rest, rfl⟩ := h
  rw [List.flatten_append, List.self_eq_append_right] at hflatten
  have hrest : rest = [] := by
    refine List.eq_nil_iff_forall_not_mem.mpr fun piece hpiece => ?_
    exact hne piece (List.mem_append_right _ hpiece) (List.flatten_eq_nil_iff.mp hflatten _ hpiece)
  rw [hrest, List.append_nil]

/-- A property of a start of a list holds first of one of them. -/
theorem exists_shortest {α : Type} {P : List α → Prop} (hnil : ¬ P []) {l : List α}
    (h : ∃ seen, seen <+: l ∧ P seen) :
    ∃ before x, before ++ [x] <+: l ∧ P (before ++ [x]) ∧ ∀ seen, seen <+: before → ¬ P seen := by
  induction l using List.reverseRecOn with
  | nil =>
    obtain ⟨seen, hseen, hP⟩ := h
    rw [List.prefix_nil.mp hseen] at hP
    exact absurd hP hnil
  | append_singleton l x ih =>
    by_cases hbefore : ∃ seen, seen <+: l ∧ P seen
    · obtain ⟨before, y, hy, hP, hnone⟩ := ih hbefore
      exact ⟨before, y, hy.trans (List.prefix_append _ _), hP, hnone⟩
    · obtain ⟨seen, hseen, hP⟩ := h
      obtain rfl | hseen := List.prefix_concat_iff.mp hseen
      · exact ⟨l, x, List.prefix_refl _, hP, fun seen hseen hP => hbefore ⟨seen, hseen, hP⟩⟩
      · exact absurd ⟨seen, hseen, hP⟩ hbefore

theorem timeout_first {response : Bytes} (h : p.step .timeout = some q)
    (hq : q.stage = .respond response) : p.stage = .first := by
  obtain ⟨stage, hnext, rfl⟩ := Option.map_eq_some_iff.mp h
  cases hstage : p.stage <;> simp_all [next, fails]

include htls hmode in
/-- If the proxy stops behind some of the reads, it waits behind the first of these. -/
theorem exists_wait (hreads : ∀ piece ∈ reads, piece ≠ [] ∧ piece.length ≤ 1024)
    (hseen : seen <+: reads) (hstops : stops seen.flatten = true) :
    ∃ es q before, Runs service reads es q ∧ q.stage = .first ∧ before <+: seen ∧
      q.sent = before.flatten := by
  obtain ⟨before, piece, hstart, hstops, hnone⟩ :=
    exists_shortest (P := fun seen => stops seen.flatten = true) (by decide)
      ⟨seen, List.prefix_refl _, hstops⟩
  have hpieces : ∀ p ∈ before ++ [piece], p ≠ [] ∧ p.length ≤ 1024 :=
    fun p hp => hreads p ((hstart.trans hseen).subset hp)
  obtain ⟨hbefore, hpiece⟩ := List.forall_mem_append.mp hpieces
  obtain ⟨hpiece, hlength⟩ := hpiece piece (List.mem_singleton_self piece)
  have hflatten : (before ++ [piece]).flatten = before.flatten ++ piece := by simp
  rw [hflatten] at hstops
  have hrun := exec_reads htls hmode hbefore fun seen hseen =>
    Bool.eq_false_iff.mpr (hnone seen hseen)
  obtain ⟨q, hq, hstage, hsent⟩ :=
    exec_first (p := ⟨service, .request before.flatten, [], [], []⟩) rfl hpiece hlength hstops
  refine ⟨_, q, before ++ [piece], ⟨exec_append_eq_some.mpr ⟨_, hrun, hq⟩, ?_⟩, hstage, hstart, ?_⟩
  · have hdelivered := delivered_reads before
    rw [delivered] at hdelivered ⊢
    rw [List.flatMap_append, hdelivered]
    exact hstart.trans hseen
  · rw [hsent, hflatten]
    rfl

include htls hmode in
/-- The request is forwarded exactly if the proxy stops behind the last read, and not
behind another. -/
theorem forwarded_iff (hreads : ∀ piece ∈ reads, piece ≠ [] ∧ piece.length ≤ 1024) :
    Forwarded service reads ↔
      stops reads.flatten = true ∧
        ∀ seen, seen <+: reads → stops seen.flatten = true → seen = reads := by
  have hne : ∀ piece ∈ reads, piece ≠ [] := fun piece hpiece => (hreads piece hpiece).1
  constructor
  · intro h
    have hfirst : ∀ seen, seen <+: reads → stops seen.flatten = true → seen = reads := by
      intro seen hseen hstops
      obtain ⟨es, q, before, hrun, hstage, hbefore, hsent⟩ :=
        exists_wait htls hmode hreads hseen hstops
      have hwhole := hsent.symm.trans (h.whole es q hrun hstage)
      have hall := eq_of_flatten_eq hne (hbefore.trans hseen) hwhole
      rw [hall] at hbefore
      exact hseen.eq_of_length_le hbefore.length_le
    refine ⟨?_, hfirst⟩
    by_contra hstops
    have hnone : ∀ seen, seen <+: reads → stops seen.flatten = false := by
      intro seen hseen
      rw [Bool.eq_false_iff]
      intro hseenStops
      rw [hfirst seen hseen hseenStops] at hseenStops
      exact hstops hseenStops
    have hrun := exec_reads htls hmode hreads hnone
    exact h.ends _ _ ⟨hrun, by rw [delivered_reads]⟩ (delivered_reads reads) reads.flatten rfl
  · rintro ⟨hstops, hlast⟩
    have hwhole : ∀ es p, Runs service reads es p → p.stage = .first → p.sent = reads.flatten := by
      intro es p hrun hstage
      have hfollows := (follows_run htls hmode hne hrun).2
      rw [hstage] at hfollows
      rw [hfollows.1, hlast _ hrun.2 hfollows.2]
    refine ⟨?_, hwhole, ?_⟩
    · intro es p hrun hall buffer hstage
      have hfollows := (follows_run htls hmode hne hrun).2
      rw [hstage, hall] at hfollows
      obtain ⟨-, rfl, hgo⟩ := hfollows
      rw [hstops] at hgo
      cases hgo
    · intro es p q hrun hstep hq
      exact hwhole es p hrun (timeout_first hstep hq)

end

end ServiceProxy

/-! ## Requests -/

/-- The reads of a request: no more than the buffer at once. -/
structure Splits (reads : List Bytes) (r : Request) : Prop where
  pieces : ∀ piece ∈ reads, piece ≠ [] ∧ piece.length ≤ 1024
  whole : reads.flatten = r.bytes

/-- What the proxy has before the last read. -/
def beforeLast (reads : List Bytes) : Nat := reads.dropLast.flatten.length

theorem Splits.exists_last {reads : List Bytes} (h : Splits reads r) :
    ∃ last, reads = reads.dropLast ++ [last] ∧ last ≠ [] ∧ last.length ≤ 1024 := by
  have hne : reads ≠ [] := by
    rintro rfl
    have hwhole := h.whole
    rw [r.bytes_eq] at hwhole
    simp at hwhole
  have hlast := h.pieces _ (List.getLast_mem hne)
  exact ⟨_, (List.dropLast_append_getLast hne).symm, hlast⟩

theorem GivesLength.of_readLength (htext : ∃ text, Utf8.encode text = r.text)
    (hread : readLength r.framing = some n) : GivesLength r := by
  refine ⟨htext, ?_⟩
  cases hframing : r.framing with
  | contentLength m => exact ⟨m, rfl⟩
  | chunked | empty =>
    rw [hframing] at hread
    cases hread

/-- The length of the body can be read, if it is given and the request is not too long. -/
theorem GivesLength.readLength_eq (h : GivesLength r) (hshort : r.bytes.length < 2 ^ 64) :
    readLength r.framing = some r.body.length := by
  obtain ⟨-, n, hframing⟩ := h
  have hframed := r.framed
  rw [hframing] at hframed ⊢
  have hbody : r.body.length = n := hframed.2.2.2
  rw [r.bytes_eq, List.length_append] at hshort
  simp only [List.length_cons] at hshort
  rw [readLength, if_pos (by omega), hbody]

theorem not_stops_iff {buffer : Bytes} :
    ServiceProxy.stops buffer = false ↔
      completeHttpRequest buffer = false ∧ buffer.length ≤ 64 * 1024 := by
  rw [ServiceProxy.stops, Bool.or_eq_false_iff, decide_eq_false_iff_not, Nat.not_lt]

theorem stops_bytes (r : Request) : ServiceProxy.stops r.bytes = true := by
  have hcomplete : completeHttpRequest r.bytes = true := by
    rw [completeHttpRequest_iff (List.append_nil r.bytes)]
    exact ⟨by simp [Request.bytes], fun _ _ _ => rfl⟩
  rw [ServiceProxy.stops, hcomplete, Bool.true_or]

/-- A request is forwarded in front of the wait for the response exactly if all but its
last read fit in 64 KiB, and the header gives the length of the body or is itself complete
with the last read only. -/
theorem request_forwarded_iff (service : ProxyService) (htls : service.tlsConfig.isSome = true)
    (hmode : service.tlsMode = .http) (r : Request) (reads : List Bytes)
    (hreads : Splits reads r) :
    ServiceProxy.Forwarded service reads ↔
      beforeLast reads ≤ 64 * 1024 ∧
        (GivesLength r ∨ beforeLast reads < r.header.length) := by
  have hne : ∀ piece ∈ reads, piece ≠ [] := fun piece hpiece => (hreads.pieces piece hpiece).1
  obtain ⟨last, hlast, hlastne, hlength⟩ := hreads.exists_last
  have hwhole : reads.dropLast.flatten ++ last = r.bytes := by
    rw [← hreads.whole]
    conv_rhs => rw [hlast]
    simp
  rw [ServiceProxy.forwarded_iff htls hmode hreads.pieces, hreads.whole]
  constructor
  · rintro ⟨-, hstop⟩
    have hgo : ServiceProxy.stops reads.dropLast.flatten = false := by
      rw [Bool.eq_false_iff]
      intro hstops
      have hall := hstop _ (List.dropLast_prefix reads) hstops
      rw [hall, List.self_eq_append_right] at hlast
      cases hlast
    obtain ⟨hcomplete, hshort⟩ := not_stops_iff.mp hgo
    refine ⟨hshort, or_iff_not_imp_right.mpr fun hheader => ?_⟩
    by_contra hgives
    rw [Bool.eq_false_iff, Ne, completeHttpRequest_iff hwhole] at hcomplete
    refine hcomplete ⟨Nat.not_lt.mp hheader, fun htext n hread => ?_⟩
    exact absurd (.of_readLength htext hread) hgives
  · rintro ⟨hshort, hgives⟩
    refine ⟨stops_bytes r, fun seen hseen hstops => ?_⟩
    by_contra hnot
    have hbefore : seen <+: reads.dropLast := by
      rw [hlast] at hseen hnot
      exact (List.prefix_concat_iff.mp hseen).resolve_left hnot
    have hle : seen.flatten.length ≤ beforeLast reads := hbefore.flatten.length_le
    obtain ⟨rest, hrest⟩ := hseen.flatten
    rw [hreads.whole] at hrest
    have hcomplete : completeHttpRequest seen.flatten = true := by
      by_contra hcomplete
      rw [not_stops_iff.mpr ⟨Bool.eq_false_iff.mpr hcomplete, hle.trans hshort⟩] at hstops
      cases hstops
    obtain ⟨hheader, hbody⟩ := (completeHttpRequest_iff hrest).mp hcomplete
    obtain hgives | hsplit := hgives
    · -- The body is complete behind the last read only.
      have hbound : r.bytes.length < 2 ^ 64 := by
        have hsum := congrArg List.length hwhole
        rw [List.length_append] at hsum
        unfold beforeLast at hshort
        omega
      have hnil := hbody hgives.1 _ (hgives.readLength_eq hbound)
      rw [hnil, List.append_nil, ← hreads.whole] at hrest
      exact hnot (ServiceProxy.eq_of_flatten_eq hne hseen hrest)
    · omega

/-! ## A chunked request -/

def chunkedField : Field where
  name := "Transfer-Encoding"
  value := Utf8.encode " chunked".toList
  name_ne := by decide
  name_token := List.all_eq_true.mp (by decide)
  value_line := encode_line (by decide)

/-- One chunk of one byte. -/
def chunkedRequest : Request where
  method := "POST"
  target := [47]
  fields := [chunkedField]
  body := [49, 13, 10, 97, 13, 10, 48, 13, 10, 13, 10]
  framing := .chunked
  method_token := List.all_eq_true.mp (by decide)
  target_line := by simp
  framed :=
    ⟨by simp [chunkedField]; decide, by decide +kernel,
      .chunk [49] [] [97] _ rfl (by decide) ⟨.inl rfl, by simp⟩
        (.last [48] [] [] rfl ⟨.inl rfl, by simp⟩)⟩

def lengthField : Field where
  name := "Content-Length"
  value := Utf8.encode " 2".toList
  name_ne := by decide
  name_token := List.all_eq_true.mp (by decide)
  value_line := encode_line (by decide)

/-- The same with a length. -/
def lengthRequest : Request where
  method := "POST"
  target := [47]
  fields := [lengthField]
  body := [97, 98]
  framing := .contentLength 2
  method_token := List.all_eq_true.mp (by decide)
  target_line := by simp
  framed := by
    refine ⟨⟨lengthField, by simp, by decide⟩, ?_, ?_, rfl⟩
    · intro f hf _
      obtain rfl := List.mem_singleton.mp hf
      exact ⟨[32], [50], [], by decide, by simp [isOws], by simp, by simp [isDigit], by decide⟩
    · intro f hf
      obtain rfl := List.mem_singleton.mp hf
      decide

def webService : ProxyService := ⟨"web", "http", "127.0.0.1:3000", some ⟨"cert", "key"⟩, .http⟩

theorem request_forwarded_iff_sample :
    ServiceProxy.Forwarded webService [lengthRequest.header, [97], [98]] := by
  refine (request_forwarded_iff webService rfl rfl lengthRequest _ ⟨?_, ?_⟩).mpr ⟨?_, .inl ⟨?_, ?_⟩⟩
  · decide
  · decide
  · decide
  · exact ⟨"POST / HTTP/1.1\r\nContent-Length: 2".toList, by decide⟩
  · exact ⟨2, rfl⟩

/-- The proxy waits with the header only, and then says that the target is late. -/
theorem chunked_request_times_out :
    Splits [chunkedRequest.header, chunkedRequest.body] chunkedRequest ∧
      ¬ ServiceProxy.Forwarded webService [chunkedRequest.header, chunkedRequest.body] ∧
      ∃ p q, exec ServiceProxy.step (.start webService)
          [.accepted, .read chunkedRequest.header, .connected,
            .targetWrite chunkedRequest.header.length] = some p ∧
        p.stage = .first ∧ p.sent = chunkedRequest.header ∧ p.sent ≠ chunkedRequest.bytes ∧
        p.step .timeout = some q ∧ q.stage = .respond webService.timeoutResponse := by
  have hreads : Splits [chunkedRequest.header, chunkedRequest.body] chunkedRequest :=
    ⟨by decide, by decide⟩
  have hne : ∀ piece ∈ [chunkedRequest.header, chunkedRequest.body], piece ≠ [] :=
    fun piece hpiece => (hreads.pieces piece hpiece).1
  have haccepted : exec ServiceProxy.step (.start webService) [.accepted]
      = some ⟨webService, .request [], [], [], []⟩ := rfl
  have hstops : ServiceProxy.stops ([] ++ chunkedRequest.header) = true := by decide +kernel
  obtain ⟨p, hp, hstage, hsent⟩ := ServiceProxy.exec_first
    (p := ⟨webService, .request [], [], [], []⟩) rfl (by decide) (by decide) hstops
  have hrun := exec_append_eq_some.mpr ⟨_, haccepted, hp⟩
  have hruns : ServiceProxy.Runs webService [chunkedRequest.header, chunkedRequest.body] _ p :=
    ⟨hrun, ⟨[chunkedRequest.body], rfl⟩⟩
  have hservice := (ServiceProxy.follows_run rfl rfl hne hruns).1
  have hpart : p.sent ≠ chunkedRequest.bytes := by
    rw [hsent]
    decide
  have htimeout : p.next .timeout = some (.respond webService.timeoutResponse) := by
    unfold ServiceProxy.next
    rw [hstage, hservice]
  obtain ⟨q, hq, hrespond, -⟩ := ServiceProxy.exists_step htimeout
  refine ⟨hreads, fun h => ?_, p, q, hrun, hstage, hsent, hpart, hq, hrespond⟩
  exact hpart ((h.whole _ p hruns hstage).trans hreads.whole)

end MediumOverlay
