import Mathlib

/-!
# Dialogues

A system answers inputs one after the other, and its user chooses each input from the
answers so far.  Two dialogues of one user start in related states.  As long as no
input tells such states apart, the user has seen the same answers in both and so goes
on with the same input (`Confined.run_eq`).  The answers are the same to the end
exactly if no input of the dialogue tells the states apart (`Confined.run_eq_iff`).
-/

namespace Dialogue

variable {σ ι ω : Type*}

/-- The answers to the first `n` inputs, and the state behind them.  What the system
draws for the `n`-th answer is part of `step n`. -/
def run (step : ℕ → σ → ι → ω × σ) (user : List ω → ι) (s : σ) : ℕ → List ω × σ
  | 0 => ([], s)
  | n + 1 =>
    let (answers, t) := run step user s n
    let (answer, u) := step n t (user answers)
    (answers ++ [answer], u)

/-- The input that the user chooses after `n` answers. -/
def input (step : ℕ → σ → ι → ω × σ) (user : List ω → ι) (s : σ) (n : ℕ) : ι :=
  user (run step user s n).1

section

variable {step : ℕ → σ → ι → ω × σ} {user : List ω → ι} {s t : σ} {k n : ℕ}

theorem run_succ : run step user s (n + 1) =
    ((run step user s n).1 ++ [(step n (run step user s n).2 (input step user s n)).1],
      (step n (run step user s n).2 (input step user s n)).2) := rfl

theorem length_run : (run step user s n).1.length = n := by
  induction n with
  | zero => rfl
  | succ n ih => rw [run_succ, List.length_append, ih, List.length_singleton]

/-- Answers are not taken back. -/
theorem take_run (h : k ≤ n) : (run step user s n).1.take k = (run step user s k).1 := by
  induction n, h using Nat.le_induction with
  | base => exact List.take_of_length_le length_run.le
  | succ n h ih => rw [run_succ, List.take_append_of_le_length (h.trans_eq length_run.symm), ih]

theorem run_eq_of_le (h : k ≤ n) (heq : (run step user s n).1 = (run step user t n).1) :
    (run step user s k).1 = (run step user t k).1 := by
  rw [← take_run h, heq, take_run h]

end

/-- Related states answer an allowed input alike, with a good answer, and stay
related, unless the input tells them apart. -/
structure Confined (step : ℕ → σ → ι → ω × σ) (related : σ → σ → Prop)
    (allowed apart : ℕ → ι → Prop) (good : ω → Prop) : Prop where
  same : ∀ {n s t i}, related s t → allowed n i → ¬ apart n i →
    (step n s i).1 = (step n t i).1 ∧ related (step n s i).2 (step n t i).2
  good : ∀ {n s t i}, related s t → allowed n i → ¬ apart n i → good (step n s i).1
  differ : ∀ {n s t i}, related s t → allowed n i → apart n i → (step n s i).1 ≠ (step n t i).1

namespace Confined

variable {step : ℕ → σ → ι → ω × σ} {related : σ → σ → Prop} {allowed apart : ℕ → ι → Prop}
  {good : ω → Prop} {user : List ω → ι} {s t : σ} {n : ℕ}

theorem run_eq (h : Confined step related allowed apart good) (hst : related s t)
    (hallowed : ∀ k < n, allowed k (input step user s k))
    (hapart : ∀ k < n, ¬ apart k (input step user s k)) :
    (run step user s n).1 = (run step user t n).1
      ∧ related (run step user s n).2 (run step user t n).2
      ∧ ∀ answer ∈ (run step user s n).1, good answer := by
  induction n with
  | zero => exact ⟨rfl, hst, fun answer h => absurd h List.not_mem_nil⟩
  | succ n ih =>
    obtain ⟨heq, hrelated, hgood⟩ := ih (fun k hk => hallowed k (Nat.lt_succ_of_lt hk))
      fun k hk => hapart k (Nat.lt_succ_of_lt hk)
    have hinput : input step user t n = input step user s n := by rw [input, input, heq]
    have hallowed := hallowed n n.lt_succ_self
    have hapart := hapart n n.lt_succ_self
    obtain ⟨hanswer, hrelated'⟩ := h.same hrelated hallowed hapart
    rw [run_succ, run_succ, hinput]
    refine ⟨by rw [heq, hanswer], hrelated', ?_⟩
    intro answer hmem
    rcases List.mem_append.mp hmem with hmem | hmem
    · exact hgood answer hmem
    · rw [List.mem_singleton.mp hmem]
      exact h.good hrelated hallowed hapart

/-- The user asks only what is allowed, as long as no input has told the states apart. -/
theorem run_eq_iff (h : Confined step related allowed apart good) (hst : related s t)
    (hallowed : ∀ k < n, (∀ j < k, ¬ apart j (input step user s j)) →
      allowed k (input step user s k)) :
    ((run step user s n).1 = (run step user t n).1
        ∧ ∀ answer ∈ (run step user s n).1 ++ (run step user t n).1, good answer)
      ↔ ∀ k < n, ¬ apart k (input step user s k) := by
  constructor
  · rintro ⟨heq, -⟩ k
    -- before the first such input the two dialogues are the same
    induction k using Nat.strong_induction_on with
    | _ k ih =>
      intro hk hdiffer
      have hapart : ∀ j < k, ¬ apart j (input step user s j) := fun j hj => ih j hj (hj.trans hk)
      obtain ⟨heq', hrelated, -⟩ := h.run_eq hst
        (fun j hj => hallowed j (hj.trans hk) fun i hi => hapart i (hi.trans hj)) hapart
      have hinput : input step user t k = input step user s k := by rw [input, input, heq']
      have hnext := run_eq_of_le hk heq
      rw [run_succ, run_succ, hinput] at hnext
      refine h.differ hrelated (hallowed k hk hapart) hdiffer ?_
      exact List.singleton_inj.mp (List.append_inj_right hnext (by rw [heq']))
  · intro hapart
    obtain ⟨heq, -, hgood⟩ := h.run_eq hst
      (fun k hk => hallowed k hk fun j hj => hapart j (hj.trans hk)) hapart
    refine ⟨heq, ?_⟩
    rw [← heq]
    intro answer hmem
    exact hgood answer ((List.mem_append.mp hmem).elim id id)

end Confined

end Dialogue
