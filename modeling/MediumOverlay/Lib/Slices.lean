import Mathlib

/-!
# Slices

Accesses to a slice of bytes that stop the program where they are out of bounds.  A
program in which none of them does is `.ok` throughout, and each access has a lemma with
the bounds it needs.
-/

namespace Slices

/-- Why an access stops the program. -/
inductive Panic where
  | indexOutOfBounds
  | rangeOutOfBounds
  | lengthMismatch
deriving DecidableEq, Repr

/-- `bytes[i]`. -/
def index (bytes : List UInt8) (i : Nat) : Except Panic UInt8 :=
  match bytes[i]? with
  | none => .error .indexOutOfBounds
  | some b => .ok b

/-- `bytes[start..stop]`. -/
def range (bytes : List UInt8) (start stop : Nat) : Except Panic (List UInt8) :=
  if start ≤ stop ∧ stop ≤ bytes.length then .ok ((bytes.drop start).take (stop - start))
  else .error .rangeOutOfBounds

/-- `bytes[start..stop].copy_from_slice(source)`. -/
def copyFromSlice (bytes : List UInt8) (start stop : Nat) (source : List UInt8) :
    Except Panic (List UInt8) :=
  if start ≤ stop ∧ stop ≤ bytes.length then
    if source.length = stop - start then .ok (bytes.take start ++ source ++ bytes.drop stop)
    else .error .lengthMismatch
  else .error .rangeOutOfBounds

variable {bytes source : List UInt8}

/-- Two bytes, one behind the other. -/
theorem index_two {i : Nat} (h : i + 2 ≤ bytes.length) :
    ∃ a b, index bytes i = .ok a ∧ index bytes (i + 1) = .ok b
      ∧ (bytes.drop i).take 2 = [a, b] := by
  have hi : i < bytes.length := by omega
  have hnext : i + 1 < bytes.length := by omega
  refine ⟨bytes[i], bytes[i + 1], ?_, ?_, ?_⟩
  · rw [index, List.getElem?_eq_getElem hi]
  · rw [index, List.getElem?_eq_getElem hnext]
  · rw [List.drop_eq_getElem_cons hi, List.drop_eq_getElem_cons hnext]
    rfl

theorem range_eq {start stop : Nat} (h : start ≤ stop) (hstop : stop ≤ bytes.length) :
    range bytes start stop = .ok ((bytes.drop start).take (stop - start)) :=
  if_pos ⟨h, hstop⟩

/-- Bytes of the middle are replaced. -/
theorem copyFromSlice_append {before middle after : List UInt8} {start stop : Nat}
    (hstart : before.length = start) (hstop : start + middle.length = stop)
    (h : source.length = middle.length) :
    copyFromSlice (before ++ middle ++ after) start stop source
      = .ok (before ++ source ++ after) := by
  have htake : (before ++ middle ++ after).take start = before := by
    rw [List.append_assoc, List.take_left' hstart]
  have hdrop : (before ++ middle ++ after).drop stop = after :=
    List.drop_left' (by rw [List.length_append, hstart, hstop])
  rw [copyFromSlice, if_pos ⟨by omega, by simp only [List.length_append]; omega⟩,
    if_pos (by omega), htake, hdrop]

end Slices
