import MediumOverlay.Lib.Query

/-!
# Form encoding

`application/x-www-form-urlencoded`: pairs of a name and a value, joined by `&`, where
reserved bytes are escaped and a space is a plus sign.  An escape and the separators are
ASCII, so all of this can be said of the characters of a text.

A value that was escaped is read back (`decode_byteSerialize`).  One that was not comes
back exactly if it has no plus sign and no escape in it (`decode_eq_self_iff`): an escape
is three ASCII characters, and what it stands for is one at most.
-/

namespace FormUrlencoded

/-! ## Escapes -/

def hexValue (c : Char) : Option Nat :=
  if 48 ≤ c.toNat ∧ c.toNat ≤ 57 then some (c.toNat - 48)
  else if 65 ≤ c.toNat ∧ c.toNat ≤ 70 then some (c.toNat - 55)
  else if 97 ≤ c.toNat ∧ c.toNat ≤ 102 then some (c.toNat - 87)
  else none

/-- The byte of three characters that are an escape. -/
def escape (c h l : Char) : Option UInt8 :=
  if c = '%' then
    (hexValue h).bind fun high => (hexValue l).map fun low => .ofNat (high * 16 + low)
  else none

/-- `percent_decode`.  What is not an escape stands for itself. -/
def percentDecode : List Char → List UInt8
  | [] => []
  | [c] => String.utf8EncodeChar c
  | [c, d] => String.utf8EncodeChar c ++ String.utf8EncodeChar d
  | c :: h :: l :: rest =>
    match escape c h l with
    | some byte => byte :: percentDecode rest
    | none => String.utf8EncodeChar c ++ percentDecode (h :: l :: rest)

/-- There is an escape in the text. -/
def hasEscape : List Char → Bool
  | c :: h :: l :: rest => (escape c h l).isSome || hasEscape (h :: l :: rest)
  | _ => false

variable {c : Char}

theorem isAscii_of_hexValue {n : Nat} (h : hexValue c = some n) : Utf8.isAscii c = true := by
  rw [Utf8.isAscii, decide_eq_true_eq]
  unfold hexValue at h
  split_ifs at h <;> omega

theorem isAscii_of_escape {h l : Char} {byte : UInt8} (hescape : escape c h l = some byte) :
    Utf8.isAscii c = true ∧ Utf8.isAscii h = true ∧ Utf8.isAscii l = true := by
  unfold escape at hescape
  split at hescape
  next hc =>
    obtain ⟨high, hhigh, hlow⟩ := Option.bind_eq_some_iff.mp hescape
    obtain ⟨low, hlow, -⟩ := Option.map_eq_some_iff.mp hlow
    refine ⟨?_, isAscii_of_hexValue hhigh, isAscii_of_hexValue hlow⟩
    rw [hc]
    rfl
  next => cases hescape

variable {cs : List Char}

/-- Without escapes a text is its own bytes. -/
theorem percentDecode_eq_encode (h : hasEscape cs = false) : percentDecode cs = Utf8.encode cs := by
  induction cs using percentDecode.induct with
  | case1 => rfl
  | case2 c => simp [percentDecode, Utf8.encode]
  | case3 c d => simp [percentDecode, Utf8.encode]
  | case4 c high low rest byte hescape =>
    rw [hasEscape, hescape] at h
    cases h
  | case5 c high low rest hescape ih =>
    rw [hasEscape, hescape] at h
    rw [percentDecode, hescape]
    dsimp only
    rw [ih h, ← Utf8.encode_cons]

/-- An escape costs ASCII characters. -/
theorem countP_percentDecode (cs : List Char) :
    (percentDecode cs).countP (· < 128) + (if hasEscape cs then 1 else 0)
      ≤ cs.countP Utf8.isAscii := by
  induction cs using percentDecode.induct with
  | case1 => simp [percentDecode, hasEscape]
  | case2 c =>
    rw [percentDecode, Utf8.countP_utf8EncodeChar, List.countP_singleton]
    rfl
  | case3 c d =>
    rw [percentDecode, List.countP_append, Utf8.countP_utf8EncodeChar,
      Utf8.countP_utf8EncodeChar, List.countP_cons, List.countP_singleton, Nat.add_comm]
    simp [hasEscape, Nat.add_comm]
  | case4 c high low rest byte hescape ih =>
    obtain ⟨hc, hhigh, hlow⟩ := isAscii_of_escape hescape
    have hbyte : (byte :: percentDecode rest).countP (· < 128)
        ≤ (percentDecode rest).countP (· < 128) + 1 := by
      rw [List.countP_cons]
      split <;> omega
    rw [percentDecode, hasEscape, hescape, List.countP_cons_of_pos hc,
      List.countP_cons_of_pos hhigh, List.countP_cons_of_pos hlow]
    simp only [Option.isSome_some, Bool.true_or, if_true]
    omega
  | case5 c high low rest hescape ih =>
    rw [percentDecode, hasEscape, hescape, List.countP_cons]
    simp only [Option.isSome_none, Bool.false_or, List.countP_append,
      Utf8.countP_utf8EncodeChar]
    omega

/-- The text of an escaped text. -/
def unescape (cs : List Char) : List Char := Utf8.lossy (percentDecode cs)

theorem unescape_eq_self (h : hasEscape cs = false) : unescape cs = cs := by
  rw [unescape, percentDecode_eq_encode h, Utf8.lossy_encode]

theorem countP_unescape (cs : List Char) :
    (unescape cs).countP Utf8.isAscii + (if hasEscape cs then 1 else 0)
      ≤ cs.countP Utf8.isAscii := by
  rw [unescape, Utf8.countP_lossy]
  exact countP_percentDecode cs

/-! ## Values -/

def plusToSpace (c : Char) : Char := if c = '+' then ' ' else c

/-- The text of a name or a value. -/
def decode (cs : List Char) : List Char := unescape (cs.map plusToSpace)

/-- The text stands for itself. -/
def IsLiteral (cs : List Char) : Prop := '+' ∉ cs ∧ hasEscape cs = false

instance (cs : List Char) : Decidable (IsLiteral cs) := inferInstanceAs (Decidable (_ ∧ _))

theorem isAscii_plusToSpace (c : Char) : Utf8.isAscii (plusToSpace c) = Utf8.isAscii c := by
  unfold plusToSpace
  split
  next h =>
    rw [h]
    rfl
  next => rfl

theorem countP_map_plusToSpace (cs : List Char) :
    (cs.map plusToSpace).countP Utf8.isAscii = cs.countP Utf8.isAscii := by
  rw [List.countP_map]
  exact List.countP_congr fun c _ => by rw [Function.comp, isAscii_plusToSpace]

theorem map_plusToSpace_eq_self_iff : cs.map plusToSpace = cs ↔ '+' ∉ cs := by
  constructor
  · intro h hmem
    have hspace := List.map_eq_map_iff.mp (h.trans (List.map_id cs).symm) '+' hmem
    exact absurd hspace (by decide)
  · intro h
    refine (List.map_congr_left fun c hc => ?_).trans (List.map_id cs)
    rw [plusToSpace, if_neg, id]
    rintro rfl
    exact h hc

/-- A text has as many ASCII characters as its value, or more. -/
theorem countP_decode_le (cs : List Char) :
    (decode cs).countP Utf8.isAscii ≤ cs.countP Utf8.isAscii := by
  have hcount := countP_unescape (cs.map plusToSpace)
  rw [countP_map_plusToSpace] at hcount
  rw [decode]
  omega

theorem decode_of_isLiteral (h : IsLiteral cs) : decode cs = cs := by
  rw [decode, map_plusToSpace_eq_self_iff.mpr h.1, unescape_eq_self h.2]

theorem decode_eq_self_iff : decode cs = cs ↔ IsLiteral cs := by
  refine ⟨fun h => ?_, decode_of_isLiteral⟩
  have hcount := countP_unescape (cs.map plusToSpace)
  rw [countP_map_plusToSpace, ← decode, h] at hcount
  have hplain : hasEscape (cs.map plusToSpace) = false := by
    by_contra hescape
    rw [Bool.not_eq_false] at hescape
    rw [hescape, if_pos rfl] at hcount
    omega
  have hmap : cs.map plusToSpace = cs := by
    rw [decode, unescape_eq_self hplain] at h
    exact h
  rw [hmap] at hplain
  exact ⟨map_plusToSpace_eq_self_iff.mp hmap, hplain⟩

/-! ## Escaped texts -/

def hexDigit (n : Nat) : Char := .ofNat (if n < 10 then n + 48 else n + 55)

/-- The bytes that are not escaped: letters, digits and `*-._`. -/
def isUnreserved (b : UInt8) : Bool :=
  b = 42 || b = 45 || b = 46 || (48 ≤ b && b ≤ 57) || (65 ≤ b && b ≤ 90) || b = 95
    || (97 ≤ b && b ≤ 122)

def serializeByte (b : UInt8) : List Char :=
  if isUnreserved b then [.ofNat b.toNat]
  else if b = 32 then ['+']
  else ['%', hexDigit (b.toNat / 16), hexDigit (b.toNat % 16)]

/-- `byte_serialize`. -/
def byteSerialize (bytes : List UInt8) : List Char := bytes.flatMap serializeByte

theorem hexValue_hexDigit : ∀ n < 16, hexValue (hexDigit n) = some n := by decide

theorem percentDecode_cons (h : c ≠ '%') (cs : List Char) :
    percentDecode (c :: cs) = String.utf8EncodeChar c ++ percentDecode cs := by
  match cs with
  | [] => simp [percentDecode]
  | [d] => rfl
  | high :: low :: rest =>
    rw [percentDecode, escape, if_neg h]

theorem percentDecode_escape (b : UInt8) (cs : List Char) :
    percentDecode ('%' :: hexDigit (b.toNat / 16) :: hexDigit (b.toNat % 16) :: cs)
      = b :: percentDecode cs := by
  have hlt := b.toNat_lt
  have hhigh := hexValue_hexDigit (b.toNat / 16) (by omega)
  have hlow := hexValue_hexDigit (b.toNat % 16) (by omega)
  have hescape : escape '%' (hexDigit (b.toNat / 16)) (hexDigit (b.toNat % 16)) = some b := by
    rw [escape, if_pos rfl, hhigh, hlow, Option.bind_some, Option.map_some, Nat.div_add_mod',
      UInt8.ofNat_toNat]
  rw [percentDecode, hescape]

variable {b : UInt8}

theorem isUnreserved_bounds (h : isUnreserved b = true) :
    42 ≤ b.toNat ∧ b.toNat ≤ 122 ∧ b.toNat ≠ 43 := by
  simp only [isUnreserved, Bool.or_eq_true, Bool.and_eq_true, decide_eq_true_eq,
    UInt8.le_iff_toNat_le, ← UInt8.toNat_inj] at h
  simp only [UInt8.reduceToNat] at h
  omega

theorem toNat_ofNat_toNat (b : UInt8) : (Char.ofNat b.toNat).toNat = b.toNat := by
  have hlt := b.toNat_lt
  rw [Char.toNat_ofNat, if_pos (by simp only [Nat.isValidChar]; omega)]

/-- Separators, plus signs, escapes and spaces are reserved. -/
theorem ofNat_ne_of_isUnreserved (h : isUnreserved b = true) (hc : c.toNat < 42 ∨ c.toNat = 43) :
    Char.ofNat b.toNat ≠ c := by
  have hbounds := isUnreserved_bounds h
  have hcode := toNat_ofNat_toNat b
  rintro rfl
  omega

theorem hexDigit_spec : ∀ n < 16, Utf8.isAscii (hexDigit n) = true ∧ hexDigit n ≠ '&' ∧
    hexDigit n ≠ ' ' ∧ plusToSpace (hexDigit n) = hexDigit n := by
  decide

/-- The characters of an escaped text. -/
theorem mem_serializeByte (h : c ∈ serializeByte b) :
    Utf8.isAscii c = true ∧ c ≠ '&' ∧ c ≠ ' ' := by
  have hlt := b.toNat_lt
  have hcode := toNat_ofNat_toNat b
  unfold serializeByte at h
  split_ifs at h with hplain
  · have hbounds := isUnreserved_bounds hplain
    rw [List.mem_singleton.mp h, Utf8.isAscii, decide_eq_true_eq]
    refine ⟨by omega, ?_, ?_⟩
    all_goals
      refine ofNat_ne_of_isUnreserved hplain ?_
      decide
  · rw [List.mem_singleton.mp h]
    decide
  · have hhigh := hexDigit_spec (b.toNat / 16) (by omega)
    have hlow := hexDigit_spec (b.toNat % 16) (by omega)
    simp only [List.mem_cons, List.not_mem_nil, or_false] at h
    obtain rfl | rfl | rfl := h
    · decide
    · exact ⟨hhigh.1, hhigh.2.1, hhigh.2.2.1⟩
    · exact ⟨hlow.1, hlow.2.1, hlow.2.2.1⟩

theorem percentDecode_serializeByte (b : UInt8) (cs : List Char) :
    percentDecode ((serializeByte b).map plusToSpace ++ cs) = b :: percentDecode cs := by
  have hlt := b.toNat_lt
  have hcode := toNat_ofNat_toNat b
  unfold serializeByte
  split_ifs with hplain hspace
  · have hbounds := isUnreserved_bounds hplain
    have hplus : Char.ofNat b.toNat ≠ '+' := ofNat_ne_of_isUnreserved hplain (by decide)
    have hpercent : Char.ofNat b.toNat ≠ '%' := ofNat_ne_of_isUnreserved hplain (by decide)
    rw [List.map_singleton, plusToSpace, if_neg hplus, List.singleton_append,
      percentDecode_cons hpercent,
      Utf8.utf8EncodeChar_of_isAscii (decide_eq_true (by omega)), hcode, UInt8.ofNat_toNat,
      List.singleton_append]
  · rw [hspace]
    exact percentDecode_cons (by decide) cs
  · rw [List.map_cons, List.map_cons, List.map_singleton,
      (hexDigit_spec _ (by omega)).2.2.2, (hexDigit_spec _ (by omega)).2.2.2]
    exact percentDecode_escape b cs

theorem percentDecode_byteSerialize (bytes : List UInt8) :
    percentDecode ((byteSerialize bytes).map plusToSpace) = bytes := by
  induction bytes with
  | nil => rfl
  | cons b bytes ih =>
    rw [byteSerialize, List.flatMap_cons, List.map_append, percentDecode_serializeByte,
      ← byteSerialize, ih]

theorem decode_byteSerialize (cs : List Char) : decode (byteSerialize (Utf8.encode cs)) = cs := by
  rw [decode, unescape, percentDecode_byteSerialize, Utf8.lossy_encode]

theorem mem_byteSerialize {bytes : List UInt8} (h : c ∈ byteSerialize bytes) :
    Utf8.isAscii c = true ∧ c ≠ '&' ∧ c ≠ ' ' := by
  obtain ⟨b, -, hb⟩ := List.mem_flatMap.mp h
  exact mem_serializeByte hb

theorem amp_notMem_byteSerialize (bytes : List UInt8) : '&' ∉ byteSerialize bytes :=
  fun h => (mem_byteSerialize h).2.1 rfl

def isUnreservedChar (c : Char) : Bool := Utf8.isAscii c && isUnreserved (.ofNat c.toNat)

/-- A text that is its own image has only characters that are. -/
theorem flatMap_eq_self_iff {α : Type} {f : α → List α} (h : ∀ a, f a ≠ []) {as : List α} :
    as.flatMap f = as ↔ ∀ a ∈ as, f a = [a] := by
  have hlength : ∀ as : List α, as.length ≤ (as.flatMap f).length := by
    intro as
    induction as with
    | nil => simp
    | cons a as ih =>
      have hpos := List.length_pos_of_ne_nil (h a)
      rw [List.flatMap_cons, List.length_append, List.length_cons]
      omega
  constructor
  · intro heq
    induction as with
    | nil => simp
    | cons a as ih =>
      rw [List.flatMap_cons] at heq
      have hpos := List.length_pos_of_ne_nil (h a)
      have hsum := congrArg List.length heq
      rw [List.length_append, List.length_cons] at hsum
      have hrest := hlength as
      have hone : (f a).length = [a].length := by
        rw [List.length_singleton]
        omega
      obtain ⟨hfirst, htail⟩ := List.append_inj heq hone
      intro b hb
      obtain rfl | hb := List.mem_cons.mp hb
      · exact hfirst
      · exact ih htail b hb
  · intro heq
    rw [List.flatMap_congr heq, List.flatMap_singleton']

theorem serializeByte_ne_nil (b : UInt8) : serializeByte b ≠ [] := by
  unfold serializeByte
  split_ifs <;> simp

theorem byteSerialize_utf8EncodeChar :
    byteSerialize (String.utf8EncodeChar c) = [c] ↔ isUnreservedChar c = true := by
  rw [isUnreservedChar, Bool.and_eq_true]
  constructor
  · intro h
    obtain ⟨hascii, -, hspace⟩ := mem_byteSerialize (h ▸ List.mem_singleton_self c)
    refine ⟨hascii, ?_⟩
    rw [Utf8.utf8EncodeChar_of_isAscii hascii, byteSerialize, List.flatMap_singleton] at h
    unfold serializeByte at h
    split_ifs at h with hplain hblank
    · exact hplain
    · rw [← List.singleton_inj.mp h] at hblank
      exact absurd hblank (by decide)
    · simp at h
  · rintro ⟨hascii, hplain⟩
    have hlt : c.toNat < 128 := of_decide_eq_true hascii
    rw [Utf8.utf8EncodeChar_of_isAscii hascii, byteSerialize, List.flatMap_singleton,
      serializeByte, if_pos hplain, UInt8.toNat_ofNat_of_lt' (by simp [UInt8.size]; omega),
      Char.ofNat_toNat]

/-- A text that is not changed by escaping it. -/
theorem byteSerialize_eq_self_iff :
    byteSerialize (Utf8.encode cs) = cs ↔ ∀ c ∈ cs, isUnreservedChar c = true := by
  have hne : ∀ c, byteSerialize (String.utf8EncodeChar c) ≠ [] := by
    intro c h
    have hpos : 0 < (String.utf8EncodeChar c).length := by
      rw [String.length_utf8EncodeChar]
      exact c.utf8Size_pos
    obtain ⟨b, hb⟩ := List.exists_mem_of_length_pos hpos
    exact serializeByte_ne_nil b (List.flatMap_eq_nil_iff.mp h b hb)
  rw [byteSerialize, Utf8.encode, List.flatMap_assoc]
  exact (flatMap_eq_self_iff hne).trans
    (forall₂_congr fun c _ => byteSerialize_utf8EncodeChar)

/-! ## Queries -/

/-- How `parse` reads one piece of a query.  Empty pieces are skipped, and one without `=`
has no value. -/
def readPiece (piece : List Char) : Option (List Char × List Char) :=
  if piece = [] then none
  else
    match Query.splitPiece piece with
    | none => some (decode piece, [])
    | some (name, value) => some (decode name, decode value)

/-- `parse`. -/
def parse (query : List Char) : List (List Char × List Char) := Query.pairs readPiece query

theorem reads_readPiece : Query.Reads readPiece decode where
  read_field := by
    intro key value h
    rw [readPiece, if_neg (by simp [Query.field]), Query.splitPiece_field h]
  countP_read_le := by
    intro piece pair h
    unfold readPiece at h
    split at h
    next => cases h
    next =>
      cases hsplit : Query.splitPiece piece with
      | none =>
        rw [hsplit] at h
        cases h
        exact Nat.zero_le _
      | some parts =>
        rw [hsplit] at h
        cases h
        exact (countP_decode_le _).trans (Query.reads_splitPiece.countP_read_le _ _ hsplit)
  countP_dec_le := countP_decode_le

/-- A value is read back exactly if it has no separator, plus sign or escape in it. -/
theorem transparent_iff {value : List Char} :
    Query.Transparent decode value ↔ '&' ∉ value ∧ IsLiteral value :=
  and_congr_right' decode_eq_self_iff

end FormUrlencoded
