import MediumOverlay.Lib.FormUrlencoded

/-!
# Hexadecimal digits

Bytes as pairs of hexadecimal digits, and Rust's `from_str_radix` for them.  The latter reads
a number with an optional sign, and so it takes `+f` for a byte (`fromStrRadix_pair`).
-/

namespace Hex

open FormUrlencoded (hexValue isAscii_of_hexValue)

/-- The digits of a byte, in lower case. -/
def digits (b : UInt8) : Char × Char :=
  (Nat.digitChar (b.toNat / 16), Nat.digitChar (b.toNat % 16))

/-- A list of pairs, written out. -/
def flat {α : Type} (pairs : List (α × α)) : List α := pairs.flatMap fun p => [p.1, p.2]

/-- `chunks_exact(2)`. -/
def chunks {α : Type} : List α → List (α × α)
  | a :: b :: rest => (a, b) :: chunks rest
  | _ => []

/-- The digits of a number behind others, up to a bound. -/
def parseDigits (bound : Nat) : Nat → List Char → Except String Nat
  | n, [] => .ok n
  | n, c :: cs =>
    match hexValue c with
    | none => .error "invalid digit found in string"
    | some digit =>
      let n := n * 16 + digit
      if bound < n then .error "number too large to fit in target type"
      else parseDigits bound n cs

/-- `from_str_radix(_, 16)` for an unsigned type with a largest value. -/
def fromStrRadix (bound : Nat) (s : String) : Except String Nat :=
  match s.toList with
  | [] => .error "cannot parse integer from empty string"
  | ['+'] => .error "invalid digit found in string"
  | '+' :: cs => parseDigits bound 0 cs
  | cs => parseDigits bound 0 cs

/-- What a pair stands for: two digits, or a sign and a digit. -/
def pairValue (p : Char × Char) : Option Nat :=
  if p.1 = '+' then hexValue p.2
  else (hexValue p.1).bind fun high => (hexValue p.2).map (high * 16 + ·)

/-! ## Pairs -/

section Pairs

variable {α : Type}

theorem chunks_flat (pairs : List (α × α)) : chunks (flat pairs) = pairs := by
  induction pairs with
  | nil => rfl
  | cons p pairs ih =>
    show p :: chunks (flat pairs) = p :: pairs
    rw [ih]

theorem length_flat (pairs : List (α × α)) : (flat pairs).length = 2 * pairs.length := by
  induction pairs with
  | nil => rfl
  | cons p pairs ih =>
    show (flat pairs).length + 1 + 1 = 2 * (pairs.length + 1)
    omega

/-- A list of even length is one of pairs. -/
theorem exists_flat {n : Nat} {l : List α} (h : l.length = 2 * n) :
    ∃ pairs : List (α × α), pairs.length = n ∧ l = flat pairs := by
  induction n generalizing l with
  | zero => exact ⟨[], rfl, List.length_eq_zero_iff.mp h⟩
  | succ n ih =>
    match l with
    | [] => cases h
    | [a] => cases h
    | a :: b :: rest =>
      have hrest : rest.length = 2 * n := by
        simp only [List.length_cons] at h
        omega
      obtain ⟨pairs, hlength, rfl⟩ := ih hrest
      exact ⟨(a, b) :: pairs, by rw [List.length_cons, hlength], rfl⟩

end Pairs

/-! ## Digits -/

theorem hexValue_digitChar : ∀ n < 16, hexValue (Nat.digitChar n) = some n := by decide

theorem digitChar_ne_plus : ∀ n < 16, Nat.digitChar n ≠ '+' := by decide

theorem digitChar_of_hexValue {c : Char} {n : Nat} (h : hexValue c = some n) :
    n < 16 ∧ Nat.digitChar n = c.toLower := by
  have hall : ∀ k < 128, ∀ m, hexValue (.ofNat k) = some m →
      m < 16 ∧ Nat.digitChar m = (Char.ofNat k).toLower := by
    decide +kernel
  have hlt : c.toNat < 128 := of_decide_eq_true (isAscii_of_hexValue h)
  have hc := hall c.toNat hlt n
  rw [Char.ofNat_toNat] at hc
  exact hc h

theorem pairValue_digits (b : UInt8) : pairValue (digits b) = some b.toNat := by
  have hlt := b.toNat_lt
  have hhigh := hexValue_digitChar (b.toNat / 16) (by omega)
  have hlow := hexValue_digitChar (b.toNat % 16) (by omega)
  rw [pairValue, digits, if_neg (digitChar_ne_plus _ (by omega)), hhigh, hlow, Option.bind_some,
    Option.map_some, Nat.div_add_mod']

theorem pairValue_eq_some_iff {p : Char × Char} {n : Nat} :
    pairValue p = some n ↔ (p.1 = '+' ∧ hexValue p.2 = some n)
      ∨ ∃ high low, hexValue p.1 = some high ∧ hexValue p.2 = some low ∧ high * 16 + low = n := by
  have hplus : hexValue '+' = none := by decide
  unfold pairValue
  split
  next h => simp [h, hplus]
  next h => simp [h, Option.bind_eq_some_iff]

/-- A pair of digits is the byte with the same digits in lower case. -/
theorem digits_of_hexValue {p : Char × Char} {high low : Nat} (hhigh : hexValue p.1 = some high)
    (hlow : hexValue p.2 = some low) :
    digits (.ofNat (high * 16 + low)) = (p.1.toLower, p.2.toLower) := by
  obtain ⟨hhigh_lt, hhigh⟩ := digitChar_of_hexValue hhigh
  obtain ⟨hlow_lt, hlow⟩ := digitChar_of_hexValue hlow
  have hnat : (UInt8.ofNat (high * 16 + low)).toNat = high * 16 + low :=
    UInt8.toNat_ofNat_of_lt' (show _ < 256 by omega)
  rw [digits, hnat, ← hhigh, ← hlow]
  congr 2 <;> omega

/-! ## Numbers -/

theorem isAscii_of_parseDigits {bound m n : Nat} {cs : List Char}
    (h : parseDigits bound m cs = .ok n) : ∀ c ∈ cs, Utf8.isAscii c = true := by
  induction cs generalizing m with
  | nil => simp
  | cons c cs ih =>
    rw [parseDigits] at h
    cases hc : hexValue c with
    | none =>
      rw [hc] at h
      cases h
    | some digit =>
      rw [hc] at h
      dsimp only at h
      split at h
      next => cases h
      next => exact List.forall_mem_cons.mpr ⟨isAscii_of_hexValue hc, ih h⟩

theorem isAscii_of_fromStrRadix {bound n : Nat} {s : String} (h : fromStrRadix bound s = .ok n) :
    ∀ c ∈ s.toList, Utf8.isAscii c = true := by
  unfold fromStrRadix at h
  split at h
  next => cases h
  next => cases h
  next cs _ hs =>
    rw [hs]
    exact List.forall_mem_cons.mpr ⟨by decide, isAscii_of_parseDigits h⟩
  next => exact isAscii_of_parseDigits h

/-- One digit behind a number that is small enough. -/
theorem parseDigits_last {m : Nat} (hm : m < 16) (c : Char) (n : Nat) :
    parseDigits 255 m [c] = .ok n ↔ (hexValue c).map (m * 16 + ·) = some n := by
  rw [parseDigits]
  cases hc : hexValue c with
  | none => simp
  | some digit =>
    have hdigit := (digitChar_of_hexValue hc).1
    simp only [parseDigits, if_neg (show ¬ 255 < m * 16 + digit by omega), Except.ok.injEq,
      Option.map_some, Option.some_inj]

/-- `from_str_radix` on two characters. -/
theorem fromStrRadix_pair (c d : Char) (n : Nat) :
    fromStrRadix 255 (.ofList [c, d]) = .ok n ↔ pairValue (c, d) = some n := by
  rw [fromStrRadix, String.toList_ofList, pairValue]
  split
  next h => cases h
  next h => cases h
  next cs _ h =>
    cases h
    rw [if_pos rfl]
    simpa using parseDigits_last (Nat.zero_lt_succ 15) d n
  next h =>
    have hplus : c ≠ '+' := fun hc => h [d] (by rw [hc])
    rw [if_neg hplus, parseDigits]
    cases hc : hexValue c with
    | none => simp
    | some high =>
      have hhigh := (digitChar_of_hexValue hc).1
      rw [Option.bind_some, ← parseDigits_last hhigh]
      simp only [Nat.zero_mul, Nat.zero_add, if_neg (show ¬ 255 < high by omega)]

end Hex
