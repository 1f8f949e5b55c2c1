import Mathlib

/-!
# In-order reassembly

A sender cuts a stream into pieces `p 0`, `p 1`, ….  A receiver is handed pieces
in any order, some of them many times.  What it is for is described by the set
`P` of the indices it has been handed and nothing else.  It has delivered
`p 0 ++ ... ++ p (k - 1)`, where `k` is the least index missing from `P`, and it
holds back the pieces of `P` beyond `k`.  `Assembled` says so of a cursor, an
output and a buffer.

A receiver that implements this advances its cursor one piece at a time.
`Draining` is what holds in between: the cursor may still stand at an index
whose piece is in the buffer.  The five rules below are the transitions of such
a receiver.  Each is one case of handing it a piece (`stale`, `ahead`, `next`) or
one turn of its drain loop (`Draining.step`, `Draining.finish`).
-/

namespace Reassembly

variable {α : Type*}

/-- The first `k` pieces, concatenated. -/
def upTo (p : ℕ → List α) (k : ℕ) : List α := (List.range k).flatMap p

theorem upTo_succ (p : ℕ → List α) (k : ℕ) : upTo p (k + 1) = upTo p k ++ p k := by
  simp [upTo, List.range_succ]

/-- Fewer pieces are a prefix of more. -/
theorem upTo_isPrefix (p : ℕ → List α) {j k : ℕ} (h : j ≤ k) : upTo p j <+: upTo p k := by
  induction h with
  | refl => exact List.prefix_rfl
  | step _ ih =>
    rw [upTo_succ]
    exact ih.trans (List.prefix_append _ _)

/-- The receiver has been handed exactly the pieces of `P`: the cursor `k` is
the least missing index, the output is everything before it and the buffer
holds the rest of `P`. -/
structure Assembled (p : ℕ → List α) (P : Set ℕ) (k : ℕ) (out : List α)
    (buf : ℕ → Option (List α)) : Prop where
  /-- The output is the pieces before the cursor. -/
  out_eq : out = upTo p k
  /-- The cursor is the least index not handed over. -/
  least : IsLeast Pᶜ k
  /-- The buffer holds the pieces of `P` beyond the cursor. -/
  buf_iff : ∀ i b, buf i = some b ↔ i ∈ P ∧ k < i ∧ b = p i

/-- The state inside the drain loop: as `Assembled`, but the piece at the
cursor may be waiting in the buffer. -/
structure Draining (p : ℕ → List α) (P : Set ℕ) (k : ℕ) (out : List α)
    (buf : ℕ → Option (List α)) : Prop where
  /-- The output is the pieces before the cursor. -/
  out_eq : out = upTo p k
  /-- Every piece before the cursor has been handed over. -/
  below : ∀ i < k, i ∈ P
  /-- The buffer holds the pieces of `P` from the cursor on. -/
  buf_iff : ∀ i b, buf i = some b ↔ i ∈ P ∧ k ≤ i ∧ b = p i

variable {p : ℕ → List α} {P : Set ℕ} {k i : ℕ} {out : List α} {buf buf' : ℕ → Option (List α)}

theorem Assembled.empty (p : ℕ → List α) (h : ∀ i, buf i = none) : Assembled p ∅ 0 [] buf := by
  refine ⟨rfl, ⟨Set.notMem_empty 0, fun _ _ => Nat.zero_le _⟩, ?_⟩
  intro i b
  simp [h i]

theorem Assembled.mem_of_lt (h : Assembled p P k out buf) (hi : i < k) : i ∈ P := by
  by_contra hn
  exact absurd (h.least.2 hn) (Nat.not_le.mpr hi)

/-- A piece before the cursor changes nothing. -/
theorem Assembled.stale (h : Assembled p P k out buf) (hi : i < k) :
    Assembled p (insert i P) k out buf := by
  rw [Set.insert_eq_of_mem (h.mem_of_lt hi)]
  exact h

/-- A piece beyond the cursor is buffered, unless it already is. -/
theorem Assembled.ahead (h : Assembled p P k out buf) (hi : k < i)
    (hnew : buf' i = some ((buf i).getD (p i))) (hold : ∀ j ≠ i, buf' j = buf j) :
    Assembled p (insert i P) k out buf' := by
  refine ⟨h.out_eq, ⟨?_, ?_⟩, ?_⟩
  · intro hk
    rcases Set.mem_insert_iff.mp hk with rfl | hk
    · exact Nat.lt_irrefl _ hi
    · exact h.least.1 hk
  · intro j hj
    exact h.least.2 (fun hP => hj (Set.mem_insert_of_mem i hP))
  · intro j b
    by_cases hji : j = i
    · subst hji
      have hval : (buf j).getD (p j) = p j := by
        cases hb : buf j with
        | none => rfl
        | some c => exact ((h.buf_iff j c).mp hb).2.2
      rw [hnew, hval, Option.some.injEq]
      constructor
      · rintro rfl
        exact ⟨Set.mem_insert _ _, hi, rfl⟩
      · rintro ⟨_, _, rfl⟩
        rfl
    · rw [hold j hji, h.buf_iff, Set.mem_insert_iff, or_iff_right hji]

/-- The piece at the cursor is delivered and the drain loop starts. -/
theorem Assembled.next (h : Assembled p P k out buf) :
    Draining p (insert k P) (k + 1) (out ++ p k) buf := by
  refine ⟨by rw [h.out_eq, upTo_succ], ?_, ?_⟩
  · intro i hi
    rcases Nat.lt_succ_iff_lt_or_eq.mp hi with hi | rfl
    · exact Set.mem_insert_of_mem _ (h.mem_of_lt hi)
    · exact Set.mem_insert _ _
  · intro i b
    rw [h.buf_iff, Set.mem_insert_iff]
    constructor
    · rintro ⟨hP, hk, hb⟩
      exact ⟨Or.inr hP, hk, hb⟩
    · rintro ⟨rfl | hP, hk, hb⟩
      · omega
      · exact ⟨hP, hk, hb⟩

/-- A turn of the drain loop: the piece at the cursor leaves the buffer. -/
theorem Draining.step {b : List α} (h : Draining p P k out buf) (hb : buf k = some b)
    (hk : buf' k = none) (hold : ∀ j ≠ k, buf' j = buf j) :
    Draining p P (k + 1) (out ++ b) buf' := by
  obtain ⟨hP, _, rfl⟩ := (h.buf_iff k b).mp hb
  refine ⟨by rw [h.out_eq, upTo_succ], ?_, ?_⟩
  · intro i hi
    rcases Nat.lt_succ_iff_lt_or_eq.mp hi with hi | rfl
    · exact h.below i hi
    · exact hP
  · intro i b
    by_cases hik : i = k
    · subst hik
      rw [hk]
      constructor
      · intro he
        cases he
      · rintro ⟨_, hlt, _⟩
        omega
    · rw [hold i hik, h.buf_iff]
      constructor
      · rintro ⟨hP, hle, hb⟩
        exact ⟨hP, by omega, hb⟩
      · rintro ⟨hP, hle, hb⟩
        exact ⟨hP, by omega, hb⟩

/-- The drain loop stops when the piece at the cursor is not in the buffer. -/
theorem Draining.finish (h : Draining p P k out buf) (hk : buf k = none) :
    Assembled p P k out buf := by
  have hnP : k ∉ P := by
    intro hP
    have := (h.buf_iff k (p k)).mpr ⟨hP, le_refl k, rfl⟩
    rw [hk] at this
    cases this
  refine ⟨h.out_eq, ⟨hnP, ?_⟩, ?_⟩
  · intro i hi
    by_contra hlt
    exact hi (h.below i (Nat.lt_of_not_le hlt))
  · intro i b
    rw [h.buf_iff]
    constructor
    · rintro ⟨hP, hle, hb⟩
      refine ⟨hP, lt_of_le_of_ne hle ?_, hb⟩
      rintro rfl
      exact hnP hP
    · rintro ⟨hP, hlt, hb⟩
      exact ⟨hP, hlt.le, hb⟩

end Reassembly
