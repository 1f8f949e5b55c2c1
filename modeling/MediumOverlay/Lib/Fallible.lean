import Mathlib

/-!
# Fallible code

A run of checks and reads in `Except`, each of which may end it with an error.  A run
returns a value exactly if each of its steps does, and the lemmas here take such a run
apart step by step.
-/

namespace Fallible

variable {ε α β : Type}

/-- A value, or an error if it is missing. -/
def context (value : Option α) (error : ε) : Except ε α :=
  match value with
  | none => .error error
  | some value => .ok value

/-- An error unless a condition holds. -/
def bailUnless (p : Prop) [Decidable p] (error : ε) : Except ε Unit :=
  if p then .ok () else .error error

variable {x : Except ε α}

theorem bind_eq_ok_iff {f : α → Except ε β} {b : β} :
    (x >>= f) = .ok b ↔ ∃ a, x = .ok a ∧ f a = .ok b := by
  cases x with
  | error error => simp [bind, Except.bind]
  | ok a => simp [bind, Except.bind]

variable {a : α}

/-- The last turn of a loop. -/
theorem foldlM_concat_eq_ok_iff {f : β → α → Except ε β} {l : List α} {init b : β} :
    (l ++ [a]).foldlM f init = .ok b ↔ ∃ mid, l.foldlM f init = .ok mid ∧ f mid a = .ok b := by
  rw [List.foldlM_append, bind_eq_ok_iff]
  simp only [List.foldlM_cons, List.foldlM_nil, bind_pure]

theorem context_eq_ok_iff {value : Option α} {error : ε} :
    context value error = .ok a ↔ value = some a := by
  cases value <;> simp [context]

theorem bailUnless_eq_ok_iff {p : Prop} [Decidable p] {error : ε} {u : Unit} :
    bailUnless p error = .ok u ↔ p := by
  by_cases h : p <;> simp [bailUnless, h]

theorem toOption_eq_some_iff : x.toOption = some a ↔ x = .ok a := by
  cases x <;> simp [Except.toOption]

end Fallible
