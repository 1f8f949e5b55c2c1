import Mathlib

/-!
# Runs of a step function

A system is a partial step function on states and events, `none` where the
event is not possible.  A *run* is a list of events executed in order.  A
condition on the state before a step and on its event restricts the runs:
`Meets` says every step of a run meets it.

`exec_invariant` is the one induction over runs.  Every safety result of this
development is a step lemma handed to it.  A machine without input runs by itself,
and `iterate_simulates` compares two of them.
-/

namespace Trace

variable {σ ε : Type*}

/-- Execute the events in order.  `none` if some event is not possible. -/
def exec (step : σ → ε → Option σ) : σ → List ε → Option σ
  | s, [] => some s
  | s, e :: es => (step s e).bind fun t => exec step t es

/-- Every step of the run meets `ok`, a condition on the state before the step
and on its event. -/
def Meets (step : σ → ε → Option σ) (ok : σ → ε → Prop) : σ → List ε → Prop
  | _, [] => True
  | s, e :: es => ok s e ∧ ∀ t, step s e = some t → Meets step ok t es

instance Meets.decidable (step : σ → ε → Option σ) (ok : σ → ε → Prop)
    [∀ s e, Decidable (ok s e)] : ∀ (s : σ) (es : List ε), Decidable (Meets step ok s es)
  | _, [] => .isTrue trivial
  | s, e :: es =>
    haveI : ∀ t, Decidable (Meets step ok t es) := fun t => Meets.decidable step ok t es
    inferInstanceAs (Decidable (ok s e ∧ ∀ t ∈ step s e, Meets step ok t es))

variable {step : σ → ε → Option σ} {ok : σ → ε → Prop} {s t u : σ} {e : ε} {es fs : List ε}

theorem exec_cons : exec step s (e :: es) = (step s e).bind fun t => exec step t es := rfl

/-- A run of a nonempty list is a step and a run of the rest. -/
theorem exec_cons_eq_some :
    exec step s (e :: es) = some u ↔ ∃ t, step s e = some t ∧ exec step t es = some u := by
  rw [exec_cons, Option.bind_eq_some_iff]

/-- Runs compose. -/
theorem exec_append (es : List ε) (s : σ) :
    exec step s (es ++ fs) = (exec step s es).bind fun t => exec step t fs := by
  induction es generalizing s with
  | nil => rfl
  | cons e es ih =>
    rw [List.cons_append, exec_cons, exec_cons]
    cases step s e with
    | none => rfl
    | some t => exact ih t

theorem exec_append_eq_some :
    exec step s (es ++ fs) = some u ↔ ∃ t, exec step s es = some t ∧ exec step t fs = some u := by
  rw [exec_append, Option.bind_eq_some_iff]

variable {I : σ → Prop}

/-- **Invariant rule.**  What holds initially and is kept by every step that
meets the condition holds at the end of every run that meets it. -/
theorem exec_invariant (hstep : ∀ s e t, I s → ok s e → step s e = some t → I t) (es : List ε)
    (s t : σ) (hI : I s) (hm : Meets step ok s es) (h : exec step s es = some t) : I t := by
  induction es generalizing s with
  | nil =>
    cases h
    exact hI
  | cons e es ih =>
    obtain ⟨v, hv, ht⟩ := exec_cons_eq_some.mp h
    exact ih v (hstep s e v hI hm.1 hv) (hm.2 v hv) ht

/-- A condition on the events alone is met if they all meet it. -/
theorem meets_of_forall {p : ε → Prop} (es : List ε) (s : σ) (h : ∀ e ∈ es, p e) :
    Meets step (fun _ e => p e) s es := by
  induction es generalizing s with
  | nil => trivial
  | cons e es ih =>
    exact ⟨h e List.mem_cons_self, fun t _ => ih t fun f hf => h f (List.mem_cons_of_mem e hf)⟩

/-- The invariant rule with no condition on the steps. -/
theorem exec_invariant_all (hstep : ∀ s e t, I s → step s e = some t → I t) (es : List ε) (s t : σ)
    (hI : I s) (h : exec step s es = some t) : I t := by
  have hm : Meets step (fun _ _ => True) s es := meets_of_forall es s fun _ _ => trivial
  exact exec_invariant (fun s e t hI _ h => hstep s e t hI h) es s t hI hm h

/-- What every step appends to a log, a run appends. -/
theorem exec_log {α : Type*} {log : σ → List α} {entry : ε → Option α}
    (hstep : ∀ s e t, step s e = some t → log t = log s ++ (entry e).toList) (es : List ε)
    (s t : σ) (h : exec step s es = some t) : log t = log s ++ es.filterMap entry := by
  induction es generalizing s with
  | nil =>
    cases h
    rw [List.filterMap_nil, List.append_nil]
  | cons e es ih =>
    obtain ⟨v, hv, ht⟩ := exec_cons_eq_some.mp h
    rw [ih v ht, hstep s e v hv, List.append_assoc, List.filterMap_cons]
    cases entry e <;> rfl

/-- If a step that meets the condition keeps what is good, and one that does not spoils it
for good, then the runs with good ends are those that meet it. -/
theorem exec_good_iff {G B P : σ → Prop}
    (hkeep : ∀ s e t, G s → ok s e → step s e = some t → G t)
    (hspoil : ∀ s e t, G s → ¬ ok s e → step s e = some t → B t)
    (hstays : ∀ s e t, B s → step s e = some t → B t) (hgood : ∀ s, G s → P s)
    (hbad : ∀ s, B s → ¬ P s) (es : List ε) (s t : σ) (hs : G s) (h : exec step s es = some t) :
    P t ↔ Meets step ok s es := by
  induction es generalizing s with
  | nil =>
    cases h
    exact iff_of_true (hgood _ hs) trivial
  | cons e es ih =>
    obtain ⟨v, hv, ht⟩ := exec_cons_eq_some.mp h
    by_cases hok : ok s e
    · rw [ih v (hkeep s e v hs hok hv) ht]
      constructor
      · refine fun hmeets => ⟨hok, fun u hu => ?_⟩
        rw [← Option.some_inj.mp (hv.symm.trans hu)]
        exact hmeets
      · exact fun hmeets => hmeets.2 v hv
    · refine iff_of_false (hbad t ?_) fun hmeets => hok hmeets.1
      exact exec_invariant_all hstays es v t (hspoil s e v hs hok hv) ht

/-- A condition a run meets is met by every initial part of it. -/
theorem Meets.of_append (h : Meets step ok s (es ++ fs)) : Meets step ok s es := by
  induction es generalizing s with
  | nil => trivial
  | cons e es ih => exact ⟨h.1, fun t ht => ih (h.2 t ht)⟩

/-- A condition a run meets holds where a first part of it ends. -/
theorem Meets.at_exec (hm : Meets step ok s (es ++ e :: fs)) (h : exec step s es = some t) :
    ok t e := by
  induction es generalizing s with
  | nil =>
    cases h
    exact hm.1
  | cons f es ih =>
    obtain ⟨v, hv, ht⟩ := exec_cons_eq_some.mp h
    exact ih (hm.2 v hv) ht

/-- A run that does not meet a condition has a first step that does not. -/
theorem exists_first_of_not_meets (h : exec step s es = some u) (hm : ¬ Meets step ok s es) :
    ∃ before e after t, es = before ++ e :: after ∧ Meets step ok s before ∧
      exec step s before = some t ∧ ¬ ok t e := by
  induction es generalizing s with
  | nil => exact absurd trivial hm
  | cons e es ih =>
    by_cases hok : ok s e
    · obtain ⟨v, hv, ht⟩ := exec_cons_eq_some.mp h
      have hrest : ¬ Meets step ok v es := by
        refine fun hmeets => hm ⟨hok, fun w hw => ?_⟩
        rw [← Option.some_inj.mp (hv.symm.trans hw)]
        exact hmeets
      obtain ⟨before, f, after, t, rfl, hbefore, hexec, hnot⟩ := ih ht hrest
      refine ⟨e :: before, f, after, t, rfl, ⟨hok, fun w hw => ?_⟩, ?_, hnot⟩
      · rw [← Option.some_inj.mp (hv.symm.trans hw)]
        exact hbefore
      · exact exec_cons_eq_some.mpr ⟨v, hv, hexec⟩
    · exact ⟨[], e, es, s, rfl, trivial, rfl, hok⟩

/-- Conditions that a run meets combine. -/
theorem Meets.combine {ok' both : σ → ε → Prop} (h : ∀ s e, ok s e → ok' s e → both s e)
    (hm : Meets step ok s es) (hm' : Meets step ok' s es) : Meets step both s es := by
  induction es generalizing s with
  | nil => trivial
  | cons e es ih => exact ⟨h s e hm.1 hm'.1, fun t ht => ih (hm.2 t ht) (hm'.2 t ht)⟩

/-- A condition that follows from another in the states of an invariant is met by every run
that meets the other. -/
theorem Meets.of_invariant {ok' : σ → ε → Prop} (hstep : ∀ s e t, I s → step s e = some t → I t)
    (h : ∀ s e, I s → ok s e → ok' s e) (es : List ε) (s : σ) (hI : I s)
    (hm : Meets step ok s es) : Meets step ok' s es := by
  induction es generalizing s with
  | nil => trivial
  | cons e es ih => exact ⟨h s e hI hm.1, fun t ht => ih t (hstep s e t hI ht) (hm.2 t ht)⟩

/-- Conditions that say the same in the states of an invariant are met by the same
runs. -/
theorem meets_congr {ok' : σ → ε → Prop} (hstep : ∀ s e t, I s → step s e = some t → I t)
    (h : ∀ s e, I s → (ok s e ↔ ok' s e)) (es : List ε) (s : σ) (hI : I s) :
    Meets step ok s es ↔ Meets step ok' s es :=
  ⟨.of_invariant hstep (fun s e hI => (h s e hI).mp) es s hI,
    .of_invariant hstep (fun s e hI => (h s e hI).mpr) es s hI⟩

/-- What holds at the end of a run can be evaluated. -/
instance decidableEnd (o : Option σ) (p : σ → Prop) [DecidablePred p] :
    Decidable (∃ t, o = some t ∧ p t) :=
  decidable_of_iff (o.any (fun t => decide (p t)) = true) (by simp [Option.any_eq_true])

/-! ## Machines

A machine has no input: `next` is `none` where it stops. -/

/-- The state after at most `n` steps. -/
def iterate (next : σ → Option σ) : ℕ → σ → σ
  | 0, s => s
  | n + 1, s =>
    match next s with
    | none => s
    | some t => iterate next n t

variable {τ : Type*} {next : σ → Option σ} {next' : τ → Option τ}

theorem iterate_succ (h : next s = some t) (n : ℕ) : iterate next (n + 1) s = iterate next n t := by
  simp only [iterate, h]

theorem iterate_of_none (h : next s = none) (n : ℕ) : iterate next n s = s := by
  cases n with
  | zero => rfl
  | succ n => simp only [iterate, h]

theorem iterate_add (m n : ℕ) (s : σ) :
    iterate next (n + m) s = iterate next m (iterate next n s) := by
  induction n generalizing s with
  | zero => rw [Nat.zero_add, iterate]
  | succ n ih =>
    rw [Nat.succ_add]
    cases h : next s with
    | none => rw [iterate_of_none h, iterate_of_none h, iterate_of_none h]
    | some t =>
      rw [iterate_succ h, iterate_succ h]
      exact ih t

/-- **Simulation.**  If every step of one machine is answered by steps of another
that lead back into the relation, every run of the first is. -/
theorem iterate_simulates {R : σ → τ → Prop}
    (hstep : ∀ s t u, R s u → next s = some t → ∃ k, R t (iterate next' k u))
    (n : ℕ) (s : σ) (u : τ) (h : R s u) : ∃ k, R (iterate next n s) (iterate next' k u) := by
  induction n generalizing s u with
  | zero => exact ⟨0, h⟩
  | succ n ih =>
    cases hn : next s with
    | none =>
      -- the first machine has stopped, and the second waits where it is
      rw [iterate_of_none hn]
      exact ⟨0, h⟩
    | some t =>
      rw [iterate_succ hn]
      obtain ⟨k, hk⟩ := hstep s t u h hn
      obtain ⟨j, hj⟩ := ih t _ hk
      exact ⟨k + j, by rw [iterate_add]; exact hj⟩

end Trace
