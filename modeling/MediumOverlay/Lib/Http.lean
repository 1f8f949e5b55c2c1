import MediumOverlay.Lib.Str
import MediumOverlay.Lib.Utf8

/-!
# HTTP/1.1 requests

A request as its sender writes it: a request line, header fields, an empty line and a
body.  A field gives the length of the body, or the body is chunked, so that it says
itself where it ends, or there is none.

The lines of the header are bytes.  If they are text, its lines are theirs
(`lines_of_encode`).  A response says where it ends, so none goes on behind another one
(`Response.end_unique`).
-/

namespace Http

def CRLF : List UInt8 := [13, 10]

/-- A character of a token. -/
def isTokenChar (c : Char) : Bool :=
  c.isAlphanum || c ∈ "!#$%&*+-.^_|~".toList ++ [Char.ofNat 39, Char.ofNat 96]

/-- A character of optional whitespace. -/
def isOws (b : UInt8) : Bool := b = 32 || b = 9

def isDigit (b : UInt8) : Bool := 48 ≤ b && b ≤ 57

/-- The number that decimal digits stand for. -/
def decimal (digits : List UInt8) : Nat := Str.decimal 0 (Utf8.ascii digits)

def hexDigit (b : UInt8) : Option Nat :=
  if 48 ≤ b && b ≤ 57 then some (b.toNat - 48)
  else if 97 ≤ b && b ≤ 102 then some (b.toNat - 87)
  else if 65 ≤ b && b ≤ 70 then some (b.toNat - 55)
  else none

/-- The number that hexadecimal digits stand for. -/
def hexadecimal (digits : List UInt8) : Option Nat :=
  if digits.isEmpty then none
  else digits.foldlM (fun n b => (hexDigit b).map (n * 16 + ·)) 0

/-! ## The header -/

structure Field where
  name : String
  value : List UInt8
  name_ne : name.toList ≠ []
  name_token : ∀ c ∈ name.toList, isTokenChar c = true
  value_line : ∀ b ∈ value, b ≠ 13 ∧ b ≠ 10

namespace Field

def line (f : Field) : List UInt8 := Utf8.encode f.name.toList ++ 58 :: f.value

def isNamed (f : Field) (name : String) : Bool := Str.eqIgnoreAsciiCase f.name name

/-- The value is a number, with optional whitespace around it. -/
def IsNumeral (f : Field) (n : Nat) : Prop :=
  ∃ before digits after, f.value = before ++ digits ++ after ∧
    (∀ b ∈ before ++ after, isOws b = true) ∧ digits ≠ [] ∧
    (∀ b ∈ digits, isDigit b = true) ∧ decimal digits = n

/-- The elements of a value that is a list, in lower case. -/
def elements (f : Field) : List String :=
  (Str.split ',' (.ofList (Utf8.ascii f.value))).map fun s =>
    Str.toAsciiLowercase (Str.trimMatches (fun c => c = ' ' || c = '\t') s)

end Field

/-- The lines, each with its end. -/
def block (lines : List (List UInt8)) : List UInt8 := lines.flatMap (· ++ CRLF)

/-! ## The body -/

/-- An extension of a chunk. -/
def IsExtension (ext : List UInt8) : Prop :=
  (ext = [] ∨ ext.head? = some 59) ∧ ∀ b ∈ ext, b ≠ 13 ∧ b ≠ 10

/-- The chunked coding: chunks, a last one of size zero, and trailer fields. -/
inductive IsChunked : List UInt8 → Prop where
  | last (size ext : List UInt8) (trailers : List Field) (zero : hexadecimal size = some 0)
      (extension : IsExtension ext) :
      IsChunked (size ++ ext ++ CRLF ++ block (trailers.map Field.line) ++ CRLF)
  | chunk (size ext data rest : List UInt8) (length : hexadecimal size = some data.length)
      (data_ne : data ≠ []) (extension : IsExtension ext) (more : IsChunked rest) :
      IsChunked (size ++ ext ++ CRLF ++ data ++ CRLF ++ rest)

inductive Framing where
  | contentLength (n : Nat)
  | chunked
  | empty
deriving DecidableEq

/-- The fields say how long the body is. -/
def Framed (fields : List Field) (body : List UInt8) : Framing → Prop
  | .contentLength n =>
    (∃ f ∈ fields, f.isNamed "content-length" = true) ∧
    (∀ f ∈ fields, f.isNamed "content-length" = true → f.IsNumeral n) ∧
    (∀ f ∈ fields, f.isNamed "transfer-encoding" = false) ∧ body.length = n
  | .chunked =>
    (∀ f ∈ fields, f.isNamed "content-length" = false) ∧
    ((fields.filter (·.isNamed "transfer-encoding")).flatMap Field.elements).getLast?
      = some "chunked" ∧
    IsChunked body
  | .empty =>
    (∀ f ∈ fields, f.isNamed "content-length" = false) ∧
    (∀ f ∈ fields, f.isNamed "transfer-encoding" = false) ∧ body = []

/-! ## The request -/

structure Request where
  method : String
  target : List UInt8
  fields : List Field
  body : List UInt8
  framing : Framing
  method_token : ∀ c ∈ method.toList, isTokenChar c = true
  target_line : ∀ b ∈ target, b ≠ 32 ∧ b ≠ 13 ∧ b ≠ 10
  framed : Framed fields body framing

namespace Request

def requestLine (r : Request) : List UInt8 :=
  Utf8.encode r.method.toList ++ 32 :: r.target ++ 32 :: Utf8.encode "HTTP/1.1".toList

def lines (r : Request) : List (List UInt8) := r.requestLine :: r.fields.map Field.line

/-- The lines and the line ends between them. -/
def text (r : Request) : List UInt8 := CRLF.intercalate r.lines

/-- All up to the empty line and with it. -/
def header (r : Request) : List UInt8 := block r.lines ++ CRLF

def bytes (r : Request) : List UInt8 := r.header ++ r.body

end Request

/-! ## The response -/

/-- A response with the length of its body in the header. -/
structure Response where
  version : UInt8 × UInt8
  code : List UInt8
  reason : List UInt8
  fields : List Field
  body : List UInt8
  version_digits : isDigit version.1 = true ∧ isDigit version.2 = true
  code_digits : code.length = 3 ∧ ∀ b ∈ code, isDigit b = true
  reason_line : ∀ b ∈ reason, b ≠ 13 ∧ b ≠ 10
  framed : Framed fields body (.contentLength body.length)

namespace Response

/-- `HTTP/` and the version. -/
def protocol (r : Response) : List UInt8 :=
  Utf8.encode "HTTP/".toList ++ [r.version.1, 46, r.version.2]

def statusLine (r : Response) : List UInt8 := r.protocol ++ 32 :: (r.code ++ 32 :: r.reason)

def lines (r : Response) : List (List UInt8) := r.statusLine :: r.fields.map Field.line

/-- The lines and the line ends between them. -/
def text (r : Response) : List UInt8 := CRLF.intercalate r.lines

/-- All up to the empty line and with it. -/
def header (r : Response) : List UInt8 := block r.lines ++ CRLF

def bytes (r : Response) : List UInt8 := r.header ++ r.body

/-- A response with a status of the class of success. -/
def IsSuccess (r : Response) : Prop := r.code.head? = some 50

end Response

/-! ## Characters -/

variable {c : Char}

theorem isTokenChar_bounds (h : isTokenChar c = true) : 33 ≤ c.toNat ∧ c.toNat ≤ 126 := by
  have hlist : ("!#$%&*+-.^_|~".toList ++ [Char.ofNat 39, Char.ofNat 96]).all
      (fun c => 33 ≤ c.toNat ∧ c.toNat ≤ 126) = true := by decide
  rw [isTokenChar, Bool.or_eq_true, decide_eq_true_eq] at h
  obtain h | h := h
  · simp only [Char.isAlphanum, Char.isAlpha, Char.isUpper, Char.isLower, Char.isDigit,
      Bool.or_eq_true, Bool.and_eq_true, decide_eq_true_eq, UInt32.le_iff_toNat_le,
      ge_iff_le] at h
    have hnat : c.toNat = c.val.toNat := rfl
    simp only [Char.reduceVal, UInt32.reduceToNat] at h
    omega
  · exact of_decide_eq_true (List.all_eq_true.mp hlist c h)

/-- Between the exclamation mark and the tilde there is no whitespace. -/
theorem isWhitespace_eq_false (h : 33 ≤ c.toNat ∧ c.toNat ≤ 126) : Str.isWhitespace c = false := by
  simp only [Str.isWhitespace, Bool.or_eq_false_iff, Bool.and_eq_false_iff, decide_eq_false_iff_not]
  omega

theorem isOws_lt {b : UInt8} (h : isOws b = true) : b < 128 := by
  rw [isOws, Bool.or_eq_true, decide_eq_true_eq, decide_eq_true_eq] at h
  obtain rfl | rfl := h <;> decide

/-- A digit as a character. -/
theorem isDigit_ofNat {b : UInt8} (h : isDigit b = true) :
    (Char.ofNat b.toNat).isDigit = true ∧ b < 128 := by
  rw [isDigit, Bool.and_eq_true, decide_eq_true_eq, decide_eq_true_eq,
    UInt8.le_iff_toNat_le, UInt8.le_iff_toNat_le] at h
  have hbounds : 48 ≤ b.toNat ∧ b.toNat ≤ 57 := h
  have hnat : (Char.ofNat b.toNat).toNat = b.toNat := by
    rw [Char.toNat_ofNat, if_pos (by simp [Nat.isValidChar]; omega)]
  refine ⟨?_, UInt8.lt_iff_toNat_lt.mpr (by simp; omega)⟩
  simp only [Char.isDigit, Bool.and_eq_true, decide_eq_true_eq, UInt32.le_iff_toNat_le, ge_iff_le]
  have hval : (Char.ofNat b.toNat).val.toNat = b.toNat := hnat
  rw [hval]
  exact hbounds

/-- The characters of a numeral. -/
theorem Field.IsNumeral.chars {f : Field} {n : Nat} {value : List Char} (hn : f.IsNumeral n)
    (h : Utf8.encode value = f.value) :
    ∃ before digits after, value = before ++ digits ++ after ∧
      (∀ c ∈ before ++ after, c = ' ' ∨ c = '\t') ∧ digits ≠ [] ∧
      (∀ c ∈ digits, c.isDigit = true) ∧ Str.decimal 0 digits = n := by
  obtain ⟨before, digits, after, hvalue, hows, hne, hdigits, hdecimal⟩ := hn
  rw [hvalue] at h
  have hascii : ∀ b ∈ before ++ digits ++ after, b < 128 := by
    obtain ⟨hbefore, hafter⟩ := List.forall_mem_append.mp hows
    simp only [List.forall_mem_append]
    exact ⟨⟨fun b hb => isOws_lt (hbefore b hb), fun b hb => (isDigit_ofNat (hdigits b hb)).2⟩,
      fun b hb => isOws_lt (hafter b hb)⟩
  refine ⟨Utf8.ascii before, Utf8.ascii digits, Utf8.ascii after, ?_, ?_,
    by simpa [Utf8.ascii] using hne, ?_, hdecimal⟩
  · rw [Utf8.eq_ascii_of_encode hascii h]
    simp [Utf8.ascii]
  · rw [Utf8.ascii, Utf8.ascii, ← List.map_append]
    refine List.forall_mem_map.mpr fun b hb => ?_
    have hb := hows b hb
    rw [isOws, Bool.or_eq_true, decide_eq_true_eq, decide_eq_true_eq] at hb
    obtain rfl | rfl := hb
    · exact .inl rfl
    · exact .inr rfl
  · exact List.forall_mem_map.mpr fun b hb => (isDigit_ofNat (hdigits b hb)).1

theorem isDigit_bounds (h : c.isDigit = true) : 48 ≤ c.toNat ∧ c.toNat ≤ 57 := by
  simp only [Char.isDigit, Bool.and_eq_true, decide_eq_true_eq, UInt32.le_iff_toNat_le,
    ge_iff_le] at h
  exact h

/-- What is left of a numeral without the whitespace around it. -/
theorem Field.IsNumeral.trim {f : Field} {n : Nat} {value : List Char} (hn : f.IsNumeral n)
    (h : Utf8.encode value = f.value) {p : Char → Bool} (hspace : p ' ' = true)
    (htab : p '\t' = true) (hdigit : ∀ c, 48 ≤ c.toNat ∧ c.toNat ≤ 57 → p c = false) :
    ∃ digits, Str.trimMatches p (.ofList value) = .ofList digits ∧ digits ≠ [] ∧
      (∀ c ∈ digits, c.isDigit = true) ∧ Str.decimal 0 digits = n := by
  obtain ⟨before, digits, after, rfl, hows, hne, hdigits, hdecimal⟩ := hn.chars h
  have hp : ∀ c ∈ before ++ after, p c = true := by
    intro c hc
    obtain rfl | rfl := hows c hc
    · exact hspace
    · exact htab
  obtain ⟨hbefore, hafter⟩ := List.forall_mem_append.mp hp
  refine ⟨digits, ?_, hne, hdigits, hdecimal⟩
  exact Str.trimMatches_append hbefore hafter hne
    fun c hc => hdigit c (isDigit_bounds (hdigits c hc))

/-! ## Lines -/

/-- A line of a header: not empty, and without line ends. -/
def IsLine (line : List UInt8) : Prop := line ≠ [] ∧ ∀ b ∈ line, b ≠ 13 ∧ b ≠ 10

variable {cs : List Char}

theorem encode_line (h : '\r' ∉ cs ∧ '\n' ∉ cs) : ∀ b ∈ Utf8.encode cs, b ≠ 13 ∧ b ≠ 10 := by
  intro b hb
  constructor
  · rintro rfl
    exact h.1 (Utf8.mem_of_mem_encode (by decide) hb)
  · rintro rfl
    exact h.2 (Utf8.mem_of_mem_encode (by decide) hb)

theorem token_line (h : ∀ c ∈ cs, isTokenChar c = true) : ∀ b ∈ Utf8.encode cs, b ≠ 13 ∧ b ≠ 10 :=
  encode_line ⟨fun hmem => absurd (h _ hmem) (by decide), fun hmem => absurd (h _ hmem) (by decide)⟩

theorem Field.isLine (f : Field) : IsLine f.line := by
  refine ⟨by simp [line], fun b hb => ?_⟩
  rw [line, List.mem_append, List.mem_cons] at hb
  obtain hname | rfl | hvalue := hb
  · exact token_line f.name_token b hname
  · decide
  · exact f.value_line b hvalue

theorem Request.isLine (r : Request) : ∀ line ∈ r.lines, IsLine line := by
  refine List.forall_mem_cons.mpr ⟨⟨by simp [requestLine], fun b hb => ?_⟩, ?_⟩
  · rw [requestLine, List.append_assoc, List.mem_append, List.cons_append, List.mem_cons,
      List.mem_append, List.mem_cons] at hb
    obtain hmethod | rfl | htarget | rfl | hversion := hb
    · exact token_line r.method_token b hmethod
    · decide
    · exact (r.target_line b htarget).2
    · decide
    · exact encode_line (by decide) b hversion
  · intro line hline
    obtain ⟨f, -, rfl⟩ := List.mem_map.mp hline
    exact f.isLine

/-- The characters of the protocol and of the code. -/
theorem Response.visible (r : Response) :
    ∀ b ∈ r.protocol ++ r.code, 33 ≤ b.toNat ∧ b.toNat ≤ 126 := by
  have hdigit : ∀ {b}, isDigit b = true → 33 ≤ b.toNat ∧ b.toNat ≤ 126 := by
    intro b hb
    simp only [isDigit, Bool.and_eq_true, decide_eq_true_eq, UInt8.le_iff_toNat_le,
      UInt8.reduceToNat] at hb
    omega
  have hname : ∀ b ∈ Utf8.encode "HTTP/".toList, 33 ≤ b.toNat ∧ b.toNat ≤ 126 := by
    decide +kernel
  intro b hb
  simp only [protocol, List.mem_append, List.mem_cons, List.not_mem_nil, or_false] at hb
  obtain (hb | rfl | rfl | rfl) | hb := hb
  · exact hname b hb
  · exact hdigit r.version_digits.1
  · decide
  · exact hdigit r.version_digits.2
  · exact hdigit (r.code_digits.2 b hb)

theorem Response.isLine (r : Response) : ∀ line ∈ r.lines, IsLine line := by
  have hvisible : ∀ b ∈ r.protocol ++ r.code, b ≠ 13 ∧ b ≠ 10 := by
    intro b hb
    have hbounds := r.visible b hb
    constructor
    · rintro rfl
      exact absurd hbounds.1 (by decide)
    · rintro rfl
      exact absurd hbounds.1 (by decide)
  refine List.forall_mem_cons.mpr ⟨⟨by simp [statusLine], fun b hb => ?_⟩, ?_⟩
  · rw [statusLine, List.mem_append, List.mem_cons, List.mem_append, List.mem_cons] at hb
    obtain hprotocol | rfl | hcode | rfl | hreason := hb
    · exact hvisible b (List.mem_append_left _ hprotocol)
    · decide
    · exact hvisible b (List.mem_append_right _ hcode)
    · decide
    · exact r.reason_line b hreason
  · intro line hline
    obtain ⟨f, -, rfl⟩ := List.mem_map.mp hline
    exact f.isLine

/-- The first of several lines. -/
theorem intercalate_cons_cons (line next : List UInt8) (lines : List (List UInt8)) :
    CRLF.intercalate (line :: next :: lines)
      = line ++ 13 :: 10 :: CRLF.intercalate (next :: lines) := by
  simp [List.intercalate, CRLF]

variable {lines : List (List UInt8)}

/-- A header is its text and an empty line. -/
theorem block_eq (h : lines ≠ []) : block lines = CRLF.intercalate lines ++ CRLF := by
  induction lines with
  | nil => exact absurd rfl h
  | cons line lines ih =>
    match lines with
    | [] => simp [block, List.intercalate]
    | next :: lines =>
      have hrest := ih (by simp)
      rw [intercalate_cons_cons, List.append_assoc, List.cons_append, List.cons_append, ← hrest]
      simp [block, CRLF]

theorem block_append_crlf (h : lines ≠ []) :
    block lines ++ CRLF = CRLF.intercalate lines ++ [13, 10, 13, 10] := by
  rw [block_eq h, List.append_assoc]
  rfl

namespace Request

theorem header_eq (r : Request) : r.header = r.text ++ [13, 10, 13, 10] :=
  block_append_crlf (by simp [lines])

theorem length_header (r : Request) : r.header.length = r.text.length + 4 := by
  rw [header_eq, List.length_append]
  rfl

theorem bytes_eq (r : Request) : r.bytes = r.text ++ 13 :: 10 :: 13 :: 10 :: r.body := by
  rw [bytes, header_eq, List.append_assoc]
  rfl

end Request

namespace Response

theorem header_eq (r : Response) : r.header = r.text ++ [13, 10, 13, 10] :=
  block_append_crlf (by simp [lines])

theorem length_header (r : Response) : r.header.length = r.text.length + 4 := by
  rw [header_eq, List.length_append]
  rfl

theorem bytes_eq (r : Response) : r.bytes = r.text ++ 13 :: 10 :: 13 :: 10 :: r.body := by
  rw [bytes, header_eq, List.append_assoc]
  rfl

end Response

/-- A character that ends no line. -/
theorem linesFrom_cons (h : c ≠ '\n') (acc cs : List Char) :
    Str.linesFrom acc (c :: cs) = Str.linesFrom (c :: acc) cs :=
  Str.linesFrom.eq_5 acc c cs h fun _ _ hc => h hc

theorem linesFrom_append {line : List Char} (h : '\n' ∉ line) (acc rest : List Char) :
    Str.linesFrom acc (line ++ '\r' :: '\n' :: rest)
      = .ofList (acc.reverse ++ line) :: Str.linesFrom [] rest := by
  induction line generalizing acc with
  | nil =>
    rw [List.nil_append, linesFrom_cons (by decide), Str.linesFrom, List.append_nil]
  | cons c line ih =>
    obtain ⟨hc, hline⟩ := not_or.mp (List.mem_cons.not.mp h)
    rw [List.cons_append, linesFrom_cons (Ne.symm hc), ih hline]
    simp

theorem linesFrom_last {line : List Char} (h : '\n' ∉ line) (acc : List Char)
    (hne : acc.reverse ++ line ≠ []) :
    Str.linesFrom acc line = [.ofList (acc.reverse ++ line)] := by
  induction line generalizing acc with
  | nil =>
    match acc with
    | [] => exact absurd rfl hne
    | _ :: _ => simp [Str.linesFrom]
  | cons c line ih =>
    obtain ⟨hc, hline⟩ := not_or.mp (List.mem_cons.not.mp h)
    rw [linesFrom_cons (Ne.symm hc), ih hline _ (by simp)]
    simp

/-- If a header is text, so are its lines. -/
theorem texts_of_encode {text : List Char} (hne : lines ≠ [])
    (h : Utf8.encode text = CRLF.intercalate lines) :
    ∃ texts : List (List Char), texts.map Utf8.encode = lines ∧
      text = ['\r', '\n'].intercalate texts := by
  induction lines generalizing text with
  | nil => exact absurd rfl hne
  | cons line lines ih =>
    match lines with
    | [] =>
      have htext : Utf8.encode text = line := by simpa [List.intercalate] using h
      exact ⟨[text], by simp [htext], by simp [List.intercalate]⟩
    | next :: lines =>
      rw [intercalate_cons_cons] at h
      obtain ⟨cs, rest, rfl, hcs, hrest⟩ := Utf8.eq_append_of_encode (by decide) h
      obtain ⟨rest, rfl, hnext⟩ := Utf8.eq_cons_of_encode (by decide) hrest
      obtain ⟨texts, htexts, rfl⟩ := ih (by simp) hnext
      refine ⟨cs :: texts, by rw [List.map_cons, hcs, htexts], ?_⟩
      cases texts with
      | nil => cases htexts
      | cons _ _ => simp [List.intercalate]

/-- The line ends of a line that is text would be its own. -/
theorem IsLine.text {line : List UInt8} (h : IsLine line) (hcs : Utf8.encode cs = line) :
    cs ≠ [] ∧ '\r' ∉ cs ∧ '\n' ∉ cs := by
  subst hcs
  refine ⟨?_, fun hmem => ?_, fun hmem => ?_⟩
  · rintro rfl
    exact h.1 rfl
  · exact (h.2 13 (List.mem_flatMap.mpr ⟨'\r', hmem, by decide⟩)).1 rfl
  · exact (h.2 10 (List.mem_flatMap.mpr ⟨'\n', hmem, by decide⟩)).2 rfl

/-- If a header is text, the lines of the text are its own. -/
theorem lines_of_encode {text : List Char} (hne : lines ≠ []) (hlines : ∀ line ∈ lines, IsLine line)
    (h : Utf8.encode text = CRLF.intercalate lines) :
    ∃ texts : List (List Char), texts.map Utf8.encode = lines ∧
      Str.lines (.ofList text) = texts.map .ofList := by
  obtain ⟨texts, rfl, rfl⟩ := texts_of_encode hne h
  refine ⟨texts, rfl, ?_⟩
  rw [Str.lines, String.toList_ofList]
  clear h hne
  induction texts with
  | nil => rfl
  | cons cs texts ih =>
    rw [List.map_cons, List.forall_mem_cons] at hlines
    obtain ⟨hcs, -, hfeed⟩ := hlines.1.text rfl
    match texts with
    | [] =>
      rw [List.intercalate_singleton, linesFrom_last hfeed [] hcs]
      rfl
    | next :: texts =>
      rw [List.intercalate_cons_cons, List.append_assoc]
      simp only [List.cons_append, List.nil_append]
      rw [linesFrom_append hfeed, ih hlines.2]
      rfl

/-- What a reader finds in the fields of a header, if it reads those with a name. -/
theorem findSome?_named {β : Type*} {g : List Char → Option β} {read : Option β} {name : String}
    {fields : List Field}
    (hg : ∀ f ∈ fields, ∀ cs, Utf8.encode cs = f.line →
      g cs = if f.isNamed name then read else none)
    {texts : List (List Char)} (h : texts.map Utf8.encode = fields.map Field.line) :
    texts.findSome? g = if fields.any (·.isNamed name) then read else none := by
  induction fields generalizing texts with
  | nil =>
    obtain rfl := List.map_eq_nil_iff.mp h
    rfl
  | cons f fields ih =>
    obtain ⟨hf, hfields⟩ := List.forall_mem_cons.mp hg
    obtain ⟨cs, texts, rfl, hcs, htexts⟩ := List.map_eq_cons_iff.mp h
    rw [List.findSome?_cons, hf cs hcs, ih hfields htexts, List.any_cons]
    cases f.isNamed name <;> cases read <;> simp

/-- Visible characters are a word. -/
theorem word_of_encode {bytes : List UInt8} (h : Utf8.encode cs = bytes)
    (hvisible : ∀ b ∈ bytes, 33 ≤ b.toNat ∧ b.toNat ≤ 126) :
    cs = Utf8.ascii bytes ∧ ∀ c ∈ cs, Str.isWhitespace c = false := by
  have hascii : cs = Utf8.ascii bytes := by
    refine Utf8.eq_ascii_of_encode (fun b hb => ?_) h
    have hbounds := hvisible b hb
    show b.toNat < 128
    omega
  refine ⟨hascii, fun c hc => ?_⟩
  rw [hascii] at hc
  obtain ⟨b, hb, rfl⟩ := List.mem_map.mp hc
  have hbounds := hvisible b hb
  refine isWhitespace_eq_false ?_
  rwa [Char.toNat_ofNat, if_pos (by simp only [Nat.isValidChar]; omega)]

/-- The second word of a status line is the code. -/
theorem Response.splitWhitespace_statusLine (r : Response) (h : Utf8.encode cs = r.statusLine) :
    (Str.splitWhitespace (.ofList cs))[1]? = some (.ofList (Utf8.ascii r.code)) := by
  have hvisible := List.forall_mem_append.mp r.visible
  obtain ⟨protocol, after, rfl, hprotocol, hafter⟩ := Utf8.eq_append_of_encode (by decide) h
  obtain ⟨code, reason, rfl, hcode, -⟩ := Utf8.eq_append_of_encode (by decide) hafter
  have hprotocol_word := (word_of_encode hprotocol hvisible.1).2
  obtain ⟨hcode_ascii, hcode_word⟩ := word_of_encode hcode hvisible.2
  have hprotocol_ne : protocol ≠ [] := by
    rintro rfl
    exact absurd (congrArg List.length hprotocol) (by simp [Response.protocol, Utf8.encode])
  have hcode_ne : code ≠ [] := by
    rintro rfl
    exact absurd (congrArg List.length hcode) (by simp [Utf8.encode, r.code_digits.1])
  have hspace : Str.isWhitespace (Char.ofNat (UInt8.toNat 32)) = true := by decide
  rw [Str.splitWhitespace_append hprotocol_ne hprotocol_word hspace,
    Str.splitWhitespace_append hcode_ne hcode_word hspace, hcode_ascii]
  rfl

end Http
