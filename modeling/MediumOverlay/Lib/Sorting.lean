import Mathlib

/-!
# Stable sorting

`sortBy` sorts by a comparison function, and elements that compare equal stay in the
order they came in.  Where the function compares a key in a linear order (`ByKey`), three
facts say what comes out: a permutation, sorted by the key (`pairwise_sortBy`), in which
the elements with any one key stand as they did before (`filter_sortBy`).

Comparison functions are built one level on the other, and so are their keys
(`ByKey.andThen`).
-/

namespace Sorting

variable {α κ κ' : Type*} [LinearOrder κ] [LinearOrder κ']

/-- `sort_by`. -/
def sortBy (cmp : α → α → Ordering) (l : List α) : List α :=
  l.insertionSort fun a b => (cmp a b).isLE = true

/-- The function compares a key. -/
def ByKey (cmp : α → α → Ordering) (key : α → κ) : Prop :=
  ∀ a b, (cmp a b).isLE = true ↔ key a ≤ key b

variable {cmp : α → α → Ordering} {key : α → κ}

/-! ## Comparison functions -/

theorem isLE_compare {a b : κ} : (compare a b).isLE = true ↔ a ≤ b := by
  rw [← compare_le_iff_le, Ordering.isLE_iff_ne_gt]

theorem ByKey.compare (key : α → κ) : ByKey (fun a b => compare (key a) (key b)) key :=
  fun _ _ => isLE_compare

/-- With the arguments the other way round, the largest key comes first. -/
theorem ByKey.reverse (key : α → κ) :
    ByKey (fun a b => Ord.compare (key b) (key a)) fun a => OrderDual.toDual (key a) :=
  fun _ _ => isLE_compare

/-- A second function decides where a first key is the same. -/
theorem ByKey.andThen (h : ByKey cmp key) (key' : α → κ') :
    ByKey (fun a b => (Ord.compare (key' a) (key' b)).then (cmp a b))
      fun a => toLex (key' a, key a) := by
  intro a b
  dsimp only
  rw [Prod.Lex.toLex_le_toLex, ← h a b]
  rcases lt_trichotomy (key' a) (key' b) with hlt | heq | hgt
  · rw [compare_lt_iff_lt.mpr hlt]
    simp [hlt]
  · rw [compare_eq_iff_eq.mpr heq]
    simp [heq]
  · rw [compare_gt_iff_gt.mpr hgt]
    simp [hgt.not_gt, hgt.ne']

/-! ## The sorted list -/

theorem sortBy_perm (cmp : α → α → Ordering) (l : List α) : (sortBy cmp l).Perm l :=
  List.perm_insertionSort _ l

theorem pairwise_sortBy (h : ByKey cmp key) (l : List α) :
    (sortBy cmp l).Pairwise fun a b => key a ≤ key b := by
  have htotal : Std.Total fun a b : α => (cmp a b).isLE = true :=
    ⟨fun a b => by rw [h, h]; exact le_total (key a) (key b)⟩
  have htrans : IsTrans α fun a b => (cmp a b).isLE = true :=
    ⟨fun a b c => by rw [h, h, h]; exact le_trans⟩
  exact (List.pairwise_insertionSort _ l).imp fun hle => (h _ _).mp hle

/-- An element is put before those with its key. -/
theorem filter_orderedInsert (h : ByKey cmp key) (k : κ) (a : α) (l : List α) :
    (l.orderedInsert (fun a b => (cmp a b).isLE = true) a).filter (fun x => key x = k)
      = (a :: l).filter fun x => key x = k := by
  induction l with
  | nil => rfl
  | cons b l ih =>
    by_cases hle : (cmp a b).isLE = true
    · rw [List.orderedInsert_cons, if_pos hle]
    · have hne : ¬ (key a = k ∧ key b = k) := by
        rintro ⟨rfl, hb⟩
        exact hle ((h a b).mpr hb.ge)
      rw [List.orderedInsert_cons, if_neg hle, List.filter_cons, ih]
      by_cases ha : key a = k
      · simp [ha, not_and.mp hne ha]
      · simp [ha, List.filter_cons]

theorem filter_sortBy (h : ByKey cmp key) (k : κ) (l : List α) :
    (sortBy cmp l).filter (fun x => key x = k) = l.filter fun x => key x = k := by
  induction l with
  | nil => rfl
  | cons a l ih =>
    rw [sortBy, List.insertionSort_cons, filter_orderedInsert h, List.filter_cons,
      List.filter_cons]
    rw [sortBy] at ih
    rw [ih]

end Sorting
