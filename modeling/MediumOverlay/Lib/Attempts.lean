import Mathlib

/-!
# Attempts

Something is tried in several ways, one after the other, until one of them succeeds.  A
*plan* is the list of the ways.  What an attempt comes to may depend on all that was tried
before it, so an outcome is a function of that and of the attempt.

`tryEach` goes through a plan.  It returns the first success and nothing is tried behind
it (`tryEach_eq_some_iff`), and it comes out without one exactly if all of the plan was
tried and failed (`tryEach_eq_none_iff`).  A plan in two parts is tried part by part
(`tryEach_append`).
-/

namespace Attempts

variable {α β ε : Type*}

/-- Try the plan behind what was tried already: the first success, and all that was
tried. -/
def tryEach (outcome : List α → α → Except ε β) : List α → List α → Option β × List α
  | tried, [] => (none, tried)
  | tried, a :: plan =>
    match outcome tried a with
    | .ok b => (some b, tried ++ [a])
    | .error _ => tryEach outcome (tried ++ [a]) plan

/-- Every attempt of the plan fails. -/
def Fails (outcome : List α → α → Except ε β) (tried plan : List α) : Prop :=
  ∀ before a after, plan = before ++ a :: after → ∃ e, outcome (tried ++ before) a = .error e

variable {outcome : List α → α → Except ε β} {tried plan log : List α} {b : β}

theorem fails_nil : Fails outcome tried [] :=
  fun _ _ _ h => absurd h.symm (List.append_ne_nil_of_right_ne_nil _ (List.cons_ne_nil _ _))

theorem fails_cons {a : α} :
    Fails outcome tried (a :: plan)
      ↔ (∃ e, outcome tried a = .error e) ∧ Fails outcome (tried ++ [a]) plan := by
  constructor
  · intro h
    refine ⟨by simpa using h [] a plan rfl, fun before c after hplan => ?_⟩
    simpa using h (a :: before) c after (by rw [hplan, List.cons_append])
  · rintro ⟨hfirst, hrest⟩ before c after hplan
    cases before with
    | nil =>
      obtain ⟨rfl, -⟩ := List.cons.inj hplan
      simpa using hfirst
    | cons d before =>
      obtain ⟨rfl, htail⟩ := List.cons.inj hplan
      simpa using hrest before c after htail

theorem tryEach_append (plan' : List α) :
    tryEach outcome tried (plan ++ plan')
      = match tryEach outcome tried plan with
        | (some b, log) => (some b, log)
        | (none, log) => tryEach outcome log plan' := by
  induction plan generalizing tried with
  | nil => rfl
  | cons a plan ih =>
    rw [List.cons_append, tryEach, tryEach]
    cases outcome tried a with
    | ok b => rfl
    | error e => exact ih

/-- Without a success all of the plan was tried. -/
theorem tryEach_eq_none_iff :
    tryEach outcome tried plan = (none, log)
      ↔ Fails outcome tried plan ∧ log = tried ++ plan := by
  induction plan generalizing tried with
  | nil => simp [tryEach, fails_nil, eq_comm]
  | cons a plan ih =>
    rw [tryEach, fails_cons]
    cases outcome tried a with
    | ok b => simp
    | error e => simp [ih]

/-- The first success ends the attempts. -/
theorem tryEach_eq_some_iff :
    tryEach outcome tried plan = (some b, log)
      ↔ ∃ before a after, plan = before ++ a :: after ∧ Fails outcome tried before
        ∧ outcome (tried ++ before) a = .ok b ∧ log = tried ++ before ++ [a] := by
  induction plan generalizing tried with
  | nil => simp [tryEach]
  | cons a plan ih =>
    rw [tryEach]
    constructor
    · intro h
      cases hout : outcome tried a with
      | ok b' =>
        rw [hout] at h
        cases h
        exact ⟨[], a, plan, rfl, fails_nil, by simpa using hout, by simp⟩
      | error e =>
        rw [hout] at h
        obtain ⟨before, c, after, rfl, hfails, hok, rfl⟩ := ih.mp h
        have hfailed := fails_cons.mpr ⟨⟨e, hout⟩, hfails⟩
        exact ⟨a :: before, c, after, rfl, hfailed, by simpa using hok, by simp⟩
    · rintro ⟨before, c, after, hplan, hfails, hok, rfl⟩
      cases before with
      | nil =>
        obtain ⟨rfl, rfl⟩ := List.cons.inj hplan
        rw [List.append_nil] at hok
        rw [hok, List.append_nil]
      | cons d before =>
        obtain ⟨rfl, rfl⟩ := List.cons.inj hplan
        obtain ⟨⟨e, hout⟩, hfails⟩ := fails_cons.mp hfails
        rw [hout]
        exact ih.mpr ⟨before, c, after, rfl, hfails, by simpa using hok, by simp⟩

end Attempts
