import MediumOverlay.Lib.Str
import MediumOverlay.Lib.Utf8

/-!
# Diagnostic lines

`p2p_diag` writes what happens on the way to a peer as lines of fields.  Values come from packets
of anyone, so a value with a blank, a quote or anything else that is not a plain character is put
in quotes with escapes.  `decode` reads phase, result and fields back, so no value can pass for a
field or for another line (`line_unambiguous`).
-/

namespace MediumOverlay.P2pDiag

/-! ## The source -/

/-- A byte that needs no quotes: `is_ascii_graphic`, and neither a quote nor a backslash. -/
def isPlainByte (byte : UInt8) : Bool := 33 ≤ byte && byte ≤ 126 && byte ≠ 34 && byte ≠ 92

def escapeChar : Char → List Char
  | '\\' => ['\\', '\\']
  | '"' => ['\\', '"']
  | '\n' => ['\\', 'n']
  | '\r' => ['\\', 'r']
  | '\t' => ['\\', 't']
  | c => [c]

/-- `format_value`. -/
def formatValue (value : String) : List Char :=
  if value ≠ "" ∧ (Utf8.encode value.toList).all isPlainByte then value.toList
  else '"' :: value.toList.flatMap escapeChar ++ ['"']

def formatField (field : String × String) : List Char :=
  ' ' :: field.1.toList ++ '=' :: formatValue field.2

/-- `line`. -/
def line (phase result : String) (fields : List (String × String)) : String :=
  .ofList ("p2p_diag phase=".toList ++ formatValue phase ++ " result=".toList
    ++ formatValue result ++ fields.flatMap formatField)

/-! ## Reading a line -/

def unescape : Char → Char
  | 'n' => '\n'
  | 'r' => '\r'
  | 't' => '\t'
  | c => c

/-- The value up to the closing quote, and what follows it. -/
def readQuoted : List Char → Option (List Char × List Char)
  | [] => none
  | '"' :: cs => some ([], cs)
  | '\\' :: c :: cs => (readQuoted cs).map (Prod.map (unescape c :: ·) id)
  | c :: cs => (readQuoted cs).map (Prod.map (c :: ·) id)

/-- A value and what follows it. -/
def readValue : List Char → Option (List Char × List Char)
  | '"' :: cs => readQuoted cs
  | cs => some (cs.takeWhile (· ≠ ' '), cs.dropWhile (· ≠ ' '))

/-- The fields of a text, at most `fuel`. -/
def readFields : Nat → List Char → Option (List (String × String))
  | _, [] => some []
  | fuel + 1, ' ' :: cs =>
    match cs.dropWhile (· ≠ '=') with
    | [] => none
    | _ :: rest => do
      let (value, rest) ← readValue rest
      let fields ← readFields fuel rest
      return (.ofList (cs.takeWhile (· ≠ '=')), .ofList value) :: fields
  | _, _ => none

/-- The phase, the result and the fields of a line. -/
def decode (line : String) : Option (String × String × List (String × String)) :=
  match (Str.stripPrefix "p2p_diag" line).bind fun s => readFields s.length s.toList with
  | some (("phase", phase) :: ("result", result) :: fields) => some (phase, result, fields)
  | _ => none

/-! ## Values -/

variable {value : String} {rest : List Char} {c : Char}

/-- A character that would need quotes is not in a plain value. -/
theorem notMem_of_plain (h : (Utf8.encode value.toList).all isPlainByte = true)
    (hascii : Utf8.isAscii c = true) (hc : isPlainByte (.ofNat c.toNat) = false) :
    c ∉ value.toList := by
  intro hmem
  have hbyte : .ofNat c.toNat ∈ Utf8.encode value.toList := by
    refine List.mem_flatMap.mpr ⟨c, hmem, ?_⟩
    rw [Utf8.utf8EncodeChar_of_isAscii hascii]
    exact List.mem_singleton_self _
  rw [List.all_eq_true.mp h _ hbyte] at hc
  cases hc

/-- What is read of one character between quotes. -/
theorem readQuoted_escapeChar (c : Char) (cs : List Char) :
    readQuoted (escapeChar c ++ cs) = (readQuoted cs).map (Prod.map (c :: ·) id) := by
  unfold escapeChar
  split
  case h_6 hbackslash hquote _ _ _ =>
    exact readQuoted.eq_4 c cs hquote fun _ _ heq _ => hbackslash heq
  all_goals rfl

theorem readQuoted_flatMap (cs : List Char) :
    readQuoted (cs.flatMap escapeChar ++ '"' :: rest) = some (cs, rest) := by
  induction cs with
  | nil => rfl
  | cons c cs ih =>
    rw [List.flatMap_cons, List.append_assoc, readQuoted_escapeChar, ih]
    rfl

/-- A value is read back if it is the last or a blank follows. -/
theorem readValue_formatValue (value : String) (hrest : rest.head?.all (· = ' ') = true) :
    readValue (formatValue value ++ rest) = some (value.toList, rest) := by
  unfold formatValue
  split
  next hplain =>
    obtain ⟨hne, hbytes⟩ := hplain
    have hquote := notMem_of_plain hbytes (c := '"') rfl rfl
    have hblank := notMem_of_plain hbytes (c := ' ') rfl rfl
    have hword : ∀ c ∈ value.toList, decide (c ≠ ' ') = true := by
      intro c hc
      exact decide_eq_true fun heq => hblank (heq ▸ hc)
    have hstart : ∀ cs, value.toList ++ rest ≠ '"' :: cs := by
      intro cs hcs
      cases htext : value.toList with
      | nil => exact hne (String.toList_eq_nil_iff.mp htext)
      | cons c tail =>
        rw [htext, List.cons_append, List.cons.injEq] at hcs
        exact hquote (by rw [htext, hcs.1]; exact List.mem_cons_self)
    rw [readValue.eq_2 _ hstart, List.takeWhile_append_of_pos hword,
      List.dropWhile_append_of_pos hword]
    cases rest with
    | nil => simp
    | cons c rest =>
      obtain rfl : c = ' ' := by simpa using hrest
      simp
  next =>
    rw [List.cons_append, List.cons_append, List.append_assoc]
    exact readQuoted_flatMap _

theorem notMem_formatValue (hc : c = '\n' ∨ c = '\r') (value : String) : c ∉ formatValue value := by
  have hescape : ∀ d, c ∉ escapeChar d := by
    intro d
    unfold escapeChar
    split
    case h_6 _ _ hlf hcr _ =>
      rw [List.mem_singleton]
      rintro rfl
      exact hc.elim hlf hcr
    all_goals obtain rfl | rfl := hc <;> decide
  unfold formatValue
  split
  next hplain =>
    obtain rfl | rfl := hc
    · exact notMem_of_plain hplain.2 rfl rfl
    · exact notMem_of_plain hplain.2 rfl rfl
  next =>
    have hquote : c ≠ '"' := by obtain rfl | rfl := hc <;> decide
    simp [hquote, hescape]

/-! ## Lines -/

/-- The keys that are used. -/
def IsKey (key : String) : Prop := key ≠ "" ∧ ∀ c ∈ key.toList, c.isLower = true ∨ c = '_'

variable {fields : List (String × String)}

theorem readFields_formatField (hkeys : ∀ f ∈ fields, IsKey f.1) {fuel : Nat}
    (hfuel : fields.length ≤ fuel) :
    readFields fuel (fields.flatMap formatField) = some fields := by
  induction fields generalizing fuel with
  | nil => cases fuel <;> rfl
  | cons f fields ih =>
    cases fuel with
    | zero => cases hfuel
    | succ fuel =>
      obtain ⟨hkey, hkeys⟩ := List.forall_mem_cons.mp hkeys
      have hword : ∀ c ∈ f.1.toList, decide (c ≠ '=') = true := by
        intro c hc
        refine decide_eq_true ?_
        rintro rfl
        exact absurd (hkey.2 _ hc) (by decide)
      have hnext : (fields.flatMap formatField).head?.all (· = ' ') = true := by
        cases fields <;> rfl
      rw [List.flatMap_cons, formatField, List.cons_append, List.cons_append, List.append_assoc,
        List.cons_append, readFields, List.takeWhile_append_of_pos hword,
        List.dropWhile_append_of_pos hword]
      simp [readValue_formatValue _ hnext, ih hkeys (Nat.le_of_succ_le_succ hfuel)]

theorem length_le_flatMap_formatField (fields : List (String × String)) :
    fields.length ≤ (fields.flatMap formatField).length := by
  induction fields with
  | nil => exact le_rfl
  | cons f fields ih =>
    rw [List.flatMap_cons, List.length_append, List.length_cons, formatField, List.cons_append,
      List.length_cons]
    omega

/-- Phase and result are the first two fields. -/
theorem line_eq (phase result : String) (fields : List (String × String)) :
    line phase result fields = "p2p_diag" ++ .ofList
      ((("phase", phase) :: ("result", result) :: fields).flatMap formatField) := by
  have hphase : "p2p_diag phase=".toList = "p2p_diag".toList ++ ' ' :: "phase".toList ++ ['='] := by
    decide +kernel
  have hresult : " result=".toList = ' ' :: "result".toList ++ ['='] := by decide +kernel
  have hstart : ∀ cs, "p2p_diag" ++ String.ofList cs = .ofList ("p2p_diag".toList ++ cs) := by
    intro cs
    rw [String.ofList_append, String.ofList_toList]
  unfold line
  rw [hstart, hphase, hresult, List.flatMap_cons, List.flatMap_cons]
  simp only [formatField, List.append_assoc, List.cons_append, List.nil_append]

theorem decode_line (phase result : String) (hkeys : ∀ f ∈ fields, IsKey f.1) :
    decode (line phase result fields) = some (phase, result, fields) := by
  have hall : ∀ f ∈ ("phase", phase) :: ("result", result) :: fields, IsKey f.1 := by
    refine List.forall_mem_cons.mpr ⟨?_, List.forall_mem_cons.mpr ⟨?_, hkeys⟩⟩
    all_goals simp [IsKey, Char.isLower]
  have hread := readFields_formatField hall (length_le_flatMap_formatField _)
  rw [decode, Str.stripPrefix_eq_some_iff.mpr (line_eq phase result fields), Option.bind_some,
    String.toList_ofList, ← String.length_toList, String.toList_ofList, hread]
  rfl

theorem notMem_line (hc : c = '\n' ∨ c = '\r') (phase result : String)
    (hkeys : ∀ f ∈ fields, IsKey f.1) : c ∉ (line phase result fields).toList := by
  have hfixed : ∀ s ∈ ["p2p_diag phase=", " result="], c ∉ s.toList := by
    obtain rfl | rfl := hc <;> decide +kernel
  have hfield : ∀ f ∈ fields, c ∉ formatField f := by
    intro f hf hmem
    rw [formatField, List.mem_append, List.mem_cons, List.mem_cons] at hmem
    obtain (rfl | hkey) | rfl | hvalue := hmem
    · exact absurd hc (by decide)
    · obtain h | rfl := (hkeys f hf).2 c hkey
      · obtain rfl | rfl := hc <;> cases h
      · exact absurd hc (by decide)
    · exact absurd hc (by decide)
    · exact notMem_formatValue hc f.2 hvalue
  unfold line
  simp only [String.toList_ofList, List.mem_append, List.mem_flatMap, not_or, not_exists, not_and]
  exact ⟨⟨⟨⟨hfixed _ (by simp), notMem_formatValue hc phase⟩, hfixed _ (by simp)⟩,
    notMem_formatValue hc result⟩, hfield⟩

/-- **Lines are unambiguous.**  Whatever the values are, a line is one line, and phase, result and
fields are read back from it. -/
theorem line_unambiguous (phase result : String) (fields : List (String × String))
    (hkeys : ∀ f ∈ fields, IsKey f.1) :
    ('\n' ∉ (line phase result fields).toList ∧ '\r' ∉ (line phase result fields).toList)
      ∧ decode (line phase result fields) = some (phase, result, fields)
      ∧ ∀ phase' result' fields', (∀ f ∈ fields', IsKey f.1) →
        line phase' result' fields' = line phase result fields →
        (phase', result', fields') = (phase, result, fields) := by
  have hdecode := decode_line phase result hkeys
  refine ⟨⟨notMem_line (.inl rfl) _ _ hkeys, notMem_line (.inr rfl) _ _ hkeys⟩, hdecode, ?_⟩
  intro phase' result' fields' hkeys' heq
  rw [← heq, decode_line phase' result' hkeys'] at hdecode
  exact Option.some.inj hdecode

/-- The value has a line end and a field in it. -/
theorem line_unambiguous_sample :
    decode (line "listen" "ok" [("service_id", "web\np2p_diag result=ok")])
      = some ("listen", "ok", [("service_id", "web\np2p_diag result=ok")]) :=
  (line_unambiguous _ _ _ (by simp [IsKey, Char.isLower])).2.1

end MediumOverlay.P2pDiag
