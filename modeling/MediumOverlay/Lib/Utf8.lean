import Mathlib

/-!
# Lossy UTF-8

Bytes that are not UTF-8 are read all the same, with a replacement character for each
ill-formed part.  Such a part is as long as it could be the start of a character.

A text is read back from its own bytes (`lossy_encode`).  Whatever the bytes are, the
ASCII characters that are read are the ASCII bytes (`countP_lossy`).
-/

namespace Utf8

def encode (cs : List Char) : List UInt8 := cs.flatMap String.utf8EncodeChar

/-- The character that the bytes start with. -/
def decodeChar (bytes : List UInt8) : Option Char := bytes.toByteArray.utf8DecodeChar? 0

def isContinuation (b : UInt8) : Bool := 0x80 ≤ b && b ≤ 0xbf

/-- The second byte can follow the first one in a character of three or four bytes. -/
def isSecond (first second : UInt8) : Bool :=
  if first = 0xe0 then 0xa0 ≤ second && second ≤ 0xbf
  else if first = 0xed then 0x80 ≤ second && second ≤ 0x9f
  else if first = 0xf0 then 0x90 ≤ second && second ≤ 0xbf
  else if first = 0xf4 then 0x80 ≤ second && second ≤ 0x8f
  else 0xe1 ≤ first && first ≤ 0xf3 && isContinuation second

/-- The length of the ill-formed part that the bytes start with. -/
def illFormedLength : List UInt8 → Nat
  | [] => 0
  | [_] => 1
  | [first, second] => if isSecond first second then 2 else 1
  | first :: second :: third :: _ =>
    if isSecond first second then
      if 0xf0 ≤ first && isContinuation third then 3 else 2
    else 1

/-- Read the bytes with some fuel.  Each turn takes one of them at least. -/
def lossyFrom : Nat → List UInt8 → List Char
  | 0, _ => []
  | _ + 1, [] => []
  | fuel + 1, b :: rest =>
    match decodeChar (b :: rest) with
    | some c => c :: lossyFrom fuel ((b :: rest).drop c.utf8Size)
    | none => '\uFFFD' :: lossyFrom fuel ((b :: rest).drop (illFormedLength (b :: rest)))

def lossy (bytes : List UInt8) : List Char := lossyFrom bytes.length bytes

/-! ## Characters -/

theorem encode_nil : encode [] = [] := rfl

theorem encode_cons (c : Char) (cs : List Char) :
    encode (c :: cs) = String.utf8EncodeChar c ++ encode cs := rfl

theorem length_le_encode (cs : List Char) : cs.length ≤ (encode cs).length := by
  induction cs with
  | nil => rfl
  | cons c cs ih =>
    have hpos := c.utf8Size_pos
    rw [encode_cons, List.length_append, String.length_utf8EncodeChar, List.length_cons]
    omega

theorem decodeChar_append (c : Char) (rest : List UInt8) :
    decodeChar (String.utf8EncodeChar c ++ rest) = some c := by
  rw [decodeChar, List.toByteArray_append]
  exact ByteArray.utf8DecodeChar?_utf8EncodeChar_append

variable {bytes : List UInt8}

theorem eq_append_of_decodeChar {c : Char} (h : decodeChar bytes = some c) :
    ∃ rest, bytes = String.utf8EncodeChar c ++ rest := by
  obtain ⟨rest, hrest⟩ := ByteArray.exists_of_utf8DecodeChar?_eq_some h
  refine ⟨rest.data.toList, ?_⟩
  have hdata := congrArg (fun b => b.data.toList) hrest
  simpa using hdata

theorem length_utf8EncodeChar_pos (c : Char) : 0 < (String.utf8EncodeChar c).length := by
  rw [String.length_utf8EncodeChar]
  exact c.utf8Size_pos

variable {cs : List Char}

/-- A text is read back from its own bytes. -/
theorem lossyFrom_encode {fuel : Nat} (h : (encode cs).length ≤ fuel) :
    lossyFrom fuel (encode cs) = cs := by
  induction cs generalizing fuel with
  | nil => cases fuel <;> rfl
  | cons c cs ih =>
    have hpos := length_utf8EncodeChar_pos c
    rw [encode_cons, List.length_append] at h
    obtain ⟨fuel, rfl⟩ := Nat.exists_eq_succ_of_ne_zero (n := fuel) (by omega)
    have hdecode := decodeChar_append c (encode cs)
    rw [encode_cons]
    obtain ⟨b, rest, hcons⟩ :=
      List.exists_cons_of_length_pos (l := String.utf8EncodeChar c ++ encode cs)
        (by rw [List.length_append]; omega)
    rw [hcons] at hdecode ⊢
    rw [lossyFrom, hdecode]
    dsimp only
    rw [← hcons, ← String.length_utf8EncodeChar, List.drop_left, ih (by omega)]

theorem lossy_encode (cs : List Char) : lossy (encode cs) = cs := lossyFrom_encode le_rfl

/-! ## ASCII -/

def isAscii (c : Char) : Bool := c.toNat < 128

theorem utf8EncodeChar_of_isAscii {c : Char} (h : isAscii c = true) :
    String.utf8EncodeChar c = [.ofNat c.toNat] := by
  have hle : c.val.toNat ≤ 127 := Nat.le_of_lt_succ (of_decide_eq_true h)
  simp only [String.utf8EncodeChar, if_pos hle]
  rfl

theorem countP_utf8EncodeChar (c : Char) :
    (String.utf8EncodeChar c).countP (· < 128) = if isAscii c then 1 else 0 := by
  have hbyte : ∀ n : Nat, n < 256 → 128 ≤ n → ¬ UInt8.ofNat n < 128 := by
    intro n hlt hle
    rw [UInt8.lt_iff_toNat_lt, UInt8.toNat_ofNat_of_lt' hlt]
    exact Nat.not_lt.mpr hle
  by_cases hascii : isAscii c = true
  · have hlt : c.toNat < 128 := of_decide_eq_true hascii
    have hsmall : UInt8.ofNat c.toNat < 128 := by
      rw [UInt8.lt_iff_toNat_lt, UInt8.toNat_ofNat_of_lt' (hlt.trans (by decide))]
      exact hlt
    rw [utf8EncodeChar_of_isAscii hascii, if_pos hascii, List.countP_cons_of_pos (by simpa)]
    rfl
  · have hbig : ¬ c.val.toNat ≤ 127 := by
      intro hle
      exact hascii (decide_eq_true (Nat.lt_succ_of_le hle))
    rw [if_neg hascii, List.countP_eq_zero]
    simp only [String.utf8EncodeChar, if_neg hbig, decide_eq_true_eq]
    intro b hb
    split_ifs at hb <;> simp only [List.mem_cons, List.not_mem_nil, or_false] at hb
    · rcases hb with rfl | rfl <;> exact hbyte _ (by omega) (by omega)
    · rcases hb with rfl | rfl | rfl <;> exact hbyte _ (by omega) (by omega)
    · rcases hb with rfl | rfl | rfl | rfl <;> exact hbyte _ (by omega) (by omega)

variable {b : UInt8}

theorem decodeChar_of_lt (h : b < 128) (rest : List UInt8) :
    (decodeChar (b :: rest)).isSome = true := by
  have hlt : b.toNat < 128 := h
  have hascii : isAscii (.ofNat b.toNat) = true := by
    rw [isAscii, Char.toNat_ofNat, if_pos (by simp [Nat.isValidChar]; omega)]
    exact decide_eq_true hlt
  have hencode := utf8EncodeChar_of_isAscii hascii
  rw [Char.toNat_ofNat, if_pos (by simp [Nat.isValidChar]; omega), UInt8.ofNat_toNat] at hencode
  have hdecode := decodeChar_append (.ofNat b.toNat) rest
  rw [hencode, List.singleton_append] at hdecode
  rw [hdecode]
  rfl

theorem not_lt_of_isContinuation (h : isContinuation b = true) : ¬ b < 128 := by
  rw [isContinuation, Bool.and_eq_true, decide_eq_true_eq, decide_eq_true_eq] at h
  exact UInt8.not_lt.mpr h.1

theorem not_lt_of_isSecond {first second : UInt8} (h : isSecond first second = true) :
    ¬ second < 128 := by
  rw [UInt8.not_lt]
  unfold isSecond at h
  split_ifs at h <;> simp only [Bool.and_eq_true, decide_eq_true_eq] at h
  · exact UInt8.le_trans (by decide) h.1
  · exact h.1
  · exact UInt8.le_trans (by decide) h.1
  · exact h.1
  · exact UInt8.not_lt.mp (not_lt_of_isContinuation h.2)

/-- There is no ASCII byte in an ill-formed part, and it is not empty. -/
theorem illFormedLength_spec {rest : List UInt8} (h : decodeChar (b :: rest) = none) :
    0 < illFormedLength (b :: rest)
      ∧ ((b :: rest).take (illFormedLength (b :: rest))).countP (· < 128) = 0 := by
  have hb : ¬ b < 128 := by
    intro hlt
    have hsome := decodeChar_of_lt hlt rest
    rw [h] at hsome
    cases hsome
  match rest with
  | [] => simp [illFormedLength, hb]
  | [second] =>
    rw [illFormedLength]
    split
    next hsecond => simp [hb, not_lt_of_isSecond hsecond]
    next => simp [hb]
  | second :: third :: _ =>
    rw [illFormedLength]
    split
    next hsecond =>
      have hsecond := not_lt_of_isSecond hsecond
      split
      next hthird =>
        rw [Bool.and_eq_true] at hthird
        simp [hb, hsecond, not_lt_of_isContinuation hthird.2]
      next => simp [hb, hsecond]
    next => simp [hb]

theorem countP_lossyFrom {fuel : Nat} (h : bytes.length ≤ fuel) :
    (lossyFrom fuel bytes).countP isAscii = bytes.countP (· < 128) := by
  induction fuel generalizing bytes with
  | zero =>
    rw [List.length_eq_zero_iff.mp (Nat.le_zero.mp h)]
    rfl
  | succ fuel ih =>
    match bytes with
    | [] => rfl
    | b :: rest =>
      rw [lossyFrom]
      cases hdecode : decodeChar (b :: rest) with
      | some c =>
        obtain ⟨after, hafter⟩ := eq_append_of_decodeChar hdecode
        have hpos := length_utf8EncodeChar_pos c
        rw [hafter] at h ⊢
        rw [List.length_append] at h
        dsimp only
        rw [← String.length_utf8EncodeChar, List.drop_left, List.countP_cons,
          ih (by omega), List.countP_append, countP_utf8EncodeChar, Nat.add_comm]
      | none =>
        obtain ⟨hpos, hcount⟩ := illFormedLength_spec hdecode
        have hshort : ((b :: rest).drop (illFormedLength (b :: rest))).length ≤ fuel := by
          rw [List.length_drop]
          omega
        dsimp only
        rw [List.countP_cons_of_neg (by decide), ih hshort]
        have hsplit := List.take_append_drop (illFormedLength (b :: rest)) (b :: rest)
        rw [← congrArg (List.countP (· < 128)) hsplit, List.countP_append, hcount,
          Nat.zero_add]

/-- The ASCII characters that are read are the ASCII bytes. -/
theorem countP_lossy (bytes : List UInt8) :
    (lossy bytes).countP isAscii = bytes.countP (· < 128) :=
  countP_lossyFrom le_rfl

/-! ## Strings -/

/-- Bytes are a text exactly if they are its encoding. -/
theorem fromUTF8?_eq_some_iff {s : String} :
    String.fromUTF8? ⟨bytes.toArray⟩ = some s ↔ encode s.toList = bytes := by
  have hbytes : (⟨bytes.toArray⟩ : ByteArray) = bytes.toByteArray := by
    rw [ByteArray.ext_iff, List.data_toByteArray]
  have hencode : encode s.toList = bytes ↔ bytes.toByteArray = s.toByteArray := by
    rw [← String.utf8Encode_toList, List.utf8Encode, List.toByteArray_inj]
    exact eq_comm
  rw [hbytes, hencode, String.fromUTF8?]
  constructor
  · intro h
    split at h
    next hvalid =>
      cases h
      rfl
    next => cases h
  · intro h
    have hvalid : bytes.toByteArray.IsValidUTF8 := h ▸ s.isValidUTF8
    rw [dif_pos hvalid, Option.some_inj]
    exact String.toByteArray_inj.mp h

theorem length_encode_toList (s : String) : (encode s.toList).length = s.utf8ByteSize := by
  rw [← String.size_toByteArray, ← String.utf8Encode_toList, List.utf8Encode,
    List.size_toByteArray]
  rfl

/-- ASCII bytes as characters. -/
def ascii (bytes : List UInt8) : List Char := bytes.map fun b => .ofNat b.toNat

/-- An ASCII byte of a text is a character of its own. -/
theorem eq_append_of_encode {before after : List UInt8} (hb : b < 128)
    (h : encode cs = before ++ b :: after) :
    ∃ cs₁ cs₂, cs = cs₁ ++ .ofNat b.toNat :: cs₂ ∧ encode cs₁ = before ∧ encode cs₂ = after := by
  induction cs generalizing before with
  | nil => simp [encode_nil] at h
  | cons c cs ih =>
    rw [encode_cons] at h
    obtain ⟨mid, rfl, hrest⟩ | ⟨mid, hc, hrest⟩ := List.append_eq_append_iff.mp h
    · obtain ⟨cs₁, cs₂, rfl, rfl, rfl⟩ := ih hrest
      exact ⟨c :: cs₁, cs₂, rfl, rfl, rfl⟩
    · match mid with
      | [] =>
        have hstart : encode cs = [] ++ b :: after := hrest.symm
        obtain ⟨cs₁, cs₂, rfl, hbefore, rfl⟩ := ih hstart
        refine ⟨c :: cs₁, cs₂, rfl, ?_, rfl⟩
        rw [encode_cons, hbefore, hc, List.append_nil, List.append_nil]
      | x :: mid =>
        -- The byte is one of the character, so it is all of it.
        obtain ⟨rfl, rfl⟩ := List.cons_eq_cons.mp hrest
        have hascii : isAscii c = true := by
          by_contra hnot
          have hcount := countP_utf8EncodeChar c
          rw [if_neg hnot, hc, List.countP_append, List.countP_cons_of_pos (by simpa)] at hcount
          omega
        rw [utf8EncodeChar_of_isAscii hascii] at hc
        have hlt : c.toNat < 2 ^ 8 := (of_decide_eq_true hascii).trans (by decide)
        obtain ⟨rfl, hcons⟩ : before = [] ∧ UInt8.ofNat c.toNat :: [] = b :: mid := by
          match before with
          | [] => exact ⟨rfl, hc⟩
          | _ :: before => simp at hc
        obtain ⟨rfl, rfl⟩ := List.cons_eq_cons.mp hcons
        refine ⟨[], cs, ?_, rfl, rfl⟩
        rw [UInt8.toNat_ofNat_of_lt' hlt, Char.ofNat_toNat]
        rfl

theorem mem_of_mem_encode (hb : b < 128) (h : b ∈ encode cs) : .ofNat b.toNat ∈ cs := by
  obtain ⟨before, after, h⟩ := List.append_of_mem h
  obtain ⟨cs₁, cs₂, rfl, -, -⟩ := eq_append_of_encode hb h
  simp

theorem eq_nil_of_encode (h : encode cs = []) : cs = [] := by
  have hlength := length_le_encode cs
  rw [h] at hlength
  exact List.length_eq_zero_iff.mp (Nat.le_zero.mp hlength)

theorem encode_injective {ds : List Char} (h : encode cs = encode ds) : cs = ds := by
  rw [← lossy_encode cs, h, lossy_encode]

/-- A text that starts with an ASCII byte. -/
theorem eq_cons_of_encode {after : List UInt8} (hb : b < 128) (h : encode cs = b :: after) :
    ∃ rest, cs = .ofNat b.toNat :: rest ∧ encode rest = after := by
  have hstart : encode cs = [] ++ b :: after := h
  obtain ⟨cs₁, rest, rfl, hbefore, hafter⟩ := eq_append_of_encode hb hstart
  rw [eq_nil_of_encode hbefore]
  exact ⟨rest, rfl, hafter⟩

/-- There is one text for ASCII bytes. -/
theorem eq_ascii_of_encode (hbytes : ∀ b ∈ bytes, b < 128) (h : encode cs = bytes) :
    cs = ascii bytes := by
  induction bytes generalizing cs with
  | nil => exact eq_nil_of_encode h
  | cons b bytes ih =>
    obtain ⟨hb, hrest⟩ := List.forall_mem_cons.mp hbytes
    obtain ⟨rest, rfl, hafter⟩ := eq_cons_of_encode hb h
    rw [ih hrest hafter]
    rfl

end Utf8
