import Mathlib

/-!
# Big-endian byte strings

`toBeBytes n x` is the `n`-byte big-endian encoding of `x`, which keeps
`x % 256 ^ n`.  `ofBeBytes` reads a byte string of any length.  The two are
inverse on numbers that fit (`ofBeBytes_toBeBytes_of_lt`), so the encoding is
injective there (`toBeBytes_inj`), and on byte strings of the right length
(`toBeBytes_ofBeBytes`).

`shiftIn` reads a byte string into a word of a fixed width, eight bits at a time.
-/

namespace BigEndian

/-- The lowest `n` bytes of `x`, most significant first. -/
def toBeBytes : Nat → Nat → List UInt8
  | 0, _ => []
  | n + 1, x => toBeBytes n (x / 256) ++ [UInt8.ofNat x]

/-- The number a byte string spells, most significant byte first. -/
def ofBeBytes (bs : List UInt8) : Nat := bs.foldl (fun acc b => acc * 256 + b.toNat) 0

theorem ofBeBytes_concat (bs : List UInt8) (b : UInt8) :
    ofBeBytes (bs ++ [b]) = ofBeBytes bs * 256 + b.toNat := by
  simp [ofBeBytes]

/-- Reading an encoding gives the number modulo the width. -/
theorem ofBeBytes_toBeBytes (n x : Nat) : ofBeBytes (toBeBytes n x) = x % 256 ^ n := by
  induction n generalizing x with
  | zero => simp [toBeBytes, ofBeBytes, Nat.mod_one]
  | succ n ih =>
    rw [toBeBytes, ofBeBytes_concat, ih, UInt8.toNat_ofNat']
    rw [show 256 ^ (n + 1) = 256 * 256 ^ n by rw [Nat.pow_succ, Nat.mul_comm]]
    rw [Nat.mod_mul]
    omega

theorem ofBeBytes_toBeBytes_of_lt {n x : Nat} (h : x < 256 ^ n) :
    ofBeBytes (toBeBytes n x) = x := by
  rw [ofBeBytes_toBeBytes, Nat.mod_eq_of_lt h]

/-- The encoding is injective on numbers that fit. -/
theorem toBeBytes_inj {n x y : Nat} (hx : x < 256 ^ n) (hy : y < 256 ^ n)
    (h : toBeBytes n x = toBeBytes n y) : x = y := by
  rw [← ofBeBytes_toBeBytes_of_lt hx, ← ofBeBytes_toBeBytes_of_lt hy, h]

theorem length_toBeBytes (n x : Nat) : (toBeBytes n x).length = n := by
  induction n generalizing x with
  | zero => rfl
  | succ n ih => rw [toBeBytes, List.length_append, ih, List.length_singleton]

theorem ofBeBytes_lt (bs : List UInt8) : ofBeBytes bs < 256 ^ bs.length := by
  induction bs using List.reverseRecOn with
  | nil => simp [ofBeBytes]
  | append_singleton bs b ih =>
    rw [ofBeBytes_concat, List.length_append, List.length_singleton, Nat.pow_succ]
    have hb : b.toNat < 256 := b.toNat_lt
    omega

/-- Encoding what was read gives the bytes back. -/
theorem toBeBytes_ofBeBytes (bs : List UInt8) : toBeBytes bs.length (ofBeBytes bs) = bs := by
  induction bs using List.reverseRecOn with
  | nil => rfl
  | append_singleton bs b ih =>
    have hb : b.toNat < 256 := b.toNat_lt
    have hdiv : (ofBeBytes bs * 256 + b.toNat) / 256 = ofBeBytes bs := by omega
    have hlow : UInt8.ofNat (ofBeBytes bs * 256 + b.toNat) = b := by
      rw [← UInt8.toNat_inj, UInt8.toNat_ofNat']
      omega
    rw [ofBeBytes_concat, List.length_append, List.length_singleton, toBeBytes, hdiv, hlow, ih]

/-- Shift the bytes into a word, the first one first. -/
def shiftIn (w : Nat) (bs : List UInt8) : BitVec w :=
  bs.foldl (fun acc b => acc <<< 8 ||| b.toBitVec.setWidth w) 0

/-- The word keeps what fits of the number. -/
theorem toNat_shiftIn {w : Nat} (hw : 8 ≤ w) (bs : List UInt8) :
    (shiftIn w bs).toNat = ofBeBytes bs % 2 ^ w := by
  induction bs using List.reverseRecOn with
  | nil => simp [shiftIn, ofBeBytes]
  | append_singleton bs b ih =>
    have hb : b.toNat < 2 ^ 8 := b.toNat_lt
    have hpow : 2 ^ w = 2 ^ (w - 8) * 2 ^ 8 := by rw [← Nat.pow_add, Nat.sub_add_cancel hw]
    have hfits : b.toNat < 2 ^ w := hb.trans_le (Nat.pow_le_pow_right (by decide) hw)
    have hstep : (shiftIn w (bs ++ [b])).toNat
        = ((shiftIn w bs).toNat <<< 8 % 2 ^ w) ||| b.toNat := by
      simp [shiftIn, Nat.mod_eq_of_lt hfits]
    -- a multiple of 256 has eight zero bits to take the byte
    rw [hstep, ih, Nat.shiftLeft_eq, hpow, Nat.mul_mod_mul_right, ← Nat.shiftLeft_eq,
      ← Nat.shiftLeft_add_eq_or_of_lt hb, Nat.shiftLeft_eq, ofBeBytes_concat,
      Nat.mod_mul_right_mod, Nat.mul_comm (2 ^ (w - 8)), Nat.mod_mul]
    have hdiv : (ofBeBytes bs * 256 + b.toNat) / 2 ^ 8 = ofBeBytes bs := by omega
    rw [hdiv]
    omega

end BigEndian
