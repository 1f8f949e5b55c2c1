import Mathlib

/-!
# Base64

The URL-safe alphabet of base64, without padding.  Three bytes are four groups of six
bits, and the one or two bytes at the end are two or three groups.  Those have bits to
spare, which are zero.  `decode` insists on that, so there is one text for a byte
string (`decode_eq_some_iff`).
-/

namespace Base64

/-! ## Characters -/

/-- The character for six bits. -/
def digit (n : Nat) : Char :=
  if n < 26 then .ofNat (n + 65)
  else if n < 52 then .ofNat (n + 71)
  else if n < 62 then .ofNat (n - 4)
  else if n = 62 then '-'
  else '_'

/-- The six bits of a character, if it has some. -/
def value (c : Char) : Nat :=
  if 65 ≤ c.toNat ∧ c.toNat ≤ 90 then c.toNat - 65
  else if 97 ≤ c.toNat ∧ c.toNat ≤ 122 then c.toNat - 71
  else if 48 ≤ c.toNat ∧ c.toNat ≤ 57 then c.toNat + 4
  else if c = '-' then 62
  else 63

theorem value_digit {n : Nat} (h : n < 64) : value (digit n) = n := by
  interval_cases n <;> rfl

/-! ## Groups of six bits -/

def sextets : List UInt8 → List Nat
  | [] => []
  | [a] => [a.toNat / 4, a.toNat % 4 * 16]
  | [a, b] => [a.toNat / 4, a.toNat % 4 * 16 + b.toNat / 16, b.toNat % 16 * 4]
  | a :: b :: c :: rest =>
    a.toNat / 4 :: (a.toNat % 4 * 16 + b.toNat / 16) :: (b.toNat % 16 * 4 + c.toNat / 64)
      :: c.toNat % 64 :: sextets rest

/-- The bytes of the groups.  Bits to spare are dropped. -/
def ofSextets : List Nat → List UInt8
  | w :: x :: y :: z :: rest =>
    .ofNat (w * 4 + x / 16) :: .ofNat (x % 16 * 16 + y / 4) :: .ofNat (y % 4 * 64 + z)
      :: ofSextets rest
  | [w, x, y] => [.ofNat (w * 4 + x / 16), .ofNat (x % 16 * 16 + y / 4)]
  | [w, x] => [.ofNat (w * 4 + x / 16)]
  | _ => []

theorem sextets_lt (bytes : List UInt8) : ∀ n ∈ sextets bytes, n < 64 := by
  induction bytes using sextets.induct with
  | case1 => exact nofun
  | case2 a =>
    have ha : a.toNat < 256 := a.toNat_lt
    simp only [sextets, List.forall_mem_cons]
    exact ⟨by omega, by omega, nofun⟩
  | case3 a b =>
    have ha : a.toNat < 256 := a.toNat_lt
    have hb : b.toNat < 256 := b.toNat_lt
    simp only [sextets, List.forall_mem_cons]
    exact ⟨by omega, by omega, by omega, nofun⟩
  | case4 a b c rest ih =>
    have ha : a.toNat < 256 := a.toNat_lt
    have hb : b.toNat < 256 := b.toNat_lt
    have hc : c.toNat < 256 := c.toNat_lt
    simp only [sextets, List.forall_mem_cons]
    exact ⟨by omega, by omega, by omega, by omega, ih⟩

theorem ofNat_eq_of_toNat {a : UInt8} {n : Nat} (h : n = a.toNat) : UInt8.ofNat n = a := by
  rw [h, UInt8.ofNat_toNat]

theorem ofSextets_sextets (bytes : List UInt8) : ofSextets (sextets bytes) = bytes := by
  induction bytes using sextets.induct with
  | case1 => rfl
  | case2 a =>
    have ha : a.toNat < 256 := a.toNat_lt
    rw [sextets, ofSextets, ofNat_eq_of_toNat (a := a) (by omega)]
  | case3 a b =>
    have ha : a.toNat < 256 := a.toNat_lt
    have hb : b.toNat < 256 := b.toNat_lt
    rw [sextets, ofSextets, ofNat_eq_of_toNat (a := a) (by omega),
      ofNat_eq_of_toNat (a := b) (by omega)]
  | case4 a b c rest ih =>
    have ha : a.toNat < 256 := a.toNat_lt
    have hb : b.toNat < 256 := b.toNat_lt
    have hc : c.toNat < 256 := c.toNat_lt
    rw [sextets, ofSextets, ih, ofNat_eq_of_toNat (a := a) (by omega),
      ofNat_eq_of_toNat (a := b) (by omega), ofNat_eq_of_toNat (a := c) (by omega)]

/-! ## Texts -/

def encode (bytes : List UInt8) : String := .ofList ((sextets bytes).map digit)

/-- A text with other characters, with one group at the end or with bits to spare that are
not zero is not what its bytes are written as. -/
def decode (text : String) : Option (List UInt8) :=
  let bytes := ofSextets (text.toList.map value)
  if encode bytes = text then some bytes else none

/-- **Canonical.**  A text is read as a byte string exactly if it is the one the byte
string is written as. -/
theorem decode_eq_some_iff {text : String} {bytes : List UInt8} :
    decode text = some bytes ↔ text = encode bytes := by
  rw [decode, Option.ite_none_right_eq_some, Option.some_inj]
  constructor
  · rintro ⟨htext, rfl⟩
    exact htext.symm
  · rintro rfl
    have hvalues : ((sextets bytes).map digit).map value = sextets bytes := by
      rw [List.map_map]
      exact (List.map_congr_left fun n hn => value_digit (sextets_lt bytes n hn)).trans
        (List.map_id _)
    have hbytes : ofSextets ((encode bytes).toList.map value) = bytes := by
      rw [encode, String.toList_ofList, hvalues, ofSextets_sextets]
    rw [hbytes]
    exact ⟨rfl, rfl⟩

/-- A character that stands for no bits is in no encoded text. -/
theorem notMem_encode {c : Char} (h : ∀ n < 64, digit n ≠ c) (bytes : List UInt8) :
    c ∉ (encode bytes).toList := by
  rw [encode, String.toList_ofList]
  intro hmem
  obtain ⟨n, hn, heq⟩ := List.mem_map.mp hmem
  exact h n (sextets_lt bytes n hn) heq

end Base64
