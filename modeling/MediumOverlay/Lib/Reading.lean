import Mathlib

/-!
# Readers of a stream

A reader takes one element of a stream after the other, until it returns.  The elements
arrive in pieces, and a reader that has taken all of them waits.  `run` keeps what was
taken and what was not, and so the pieces do not matter: `foldl_receive`.

`run_invariant` is the induction over the elements that are taken.
-/

namespace Reading

variable {ι σ ρ : Type*}

/-- A reader after an element: it goes on with a state, or it has returned. -/
inductive Task (σ ρ : Type*) where
  | running (state : σ)
  | returned (result : ρ)
deriving DecidableEq, Repr

/-- A reader on a stream, with the elements it has taken and those it has not. -/
structure Reader (ι σ ρ : Type*) where
  task : Task σ ρ
  consumed : List ι
  unread : List ι
deriving DecidableEq, Repr

/-- Take elements until the reader returns. -/
def run (step : σ → ι → Task σ ρ) (consumed : List ι) : Task σ ρ → List ι → Reader ι σ ρ
  | .running state, x :: input => run step (consumed ++ [x]) (step state x) input
  | task, input => ⟨task, consumed, input⟩

/-- More elements arrive. -/
def receive (step : σ → ι → Task σ ρ) (reader : Reader ι σ ρ) (piece : List ι) :
    Reader ι σ ρ :=
  run step reader.consumed reader.task (reader.unread ++ piece)

/-- The result, if the stream ends here. -/
def close (onEnd : ρ) (reader : Reader ι σ ρ) : ρ :=
  match reader.task with
  | .running _ => onEnd
  | .returned result => result

section Run

variable {step : σ → ι → Task σ ρ}

theorem run_nil (consumed : List ι) (task : Task σ ρ) :
    run step consumed task [] = ⟨task, consumed, []⟩ := by
  cases task <;> rfl

theorem run_running (consumed : List ι) (state : σ) (x : ι) (input : List ι) :
    run step consumed (.running state) (x :: input)
      = run step (consumed ++ [x]) (step state x) input := rfl

theorem run_returned (consumed : List ι) (result : ρ) (input : List ι) :
    run step consumed (.returned result) input = ⟨.returned result, consumed, input⟩ := by
  cases input <;> rfl

theorem run_append (consumed : List ι) (task : Task σ ρ) (input piece : List ι) :
    run step consumed task (input ++ piece)
      = receive step (run step consumed task input) piece := by
  induction input generalizing consumed task with
  | nil => rw [run_nil, List.nil_append, receive, List.nil_append]
  | cons x input ih =>
    cases task with
    | running state => exact ih (consumed ++ [x]) (step state x)
    | returned result => rw [run_returned, run_returned, receive, run_returned]

/-- A stream is read in the same way, whatever the pieces are. -/
theorem foldl_receive (consumed : List ι) (task : Task σ ρ) (input : List ι)
    (pieces : List (List ι)) :
    pieces.foldl (receive step) (run step consumed task input)
      = run step consumed task (input ++ pieces.flatten) := by
  induction pieces generalizing input with
  | nil => rw [List.foldl_nil, List.flatten_nil, List.append_nil]
  | cons piece pieces ih =>
    rw [List.foldl_cons, ← run_append, ih, List.flatten_cons, List.append_assoc]

/-- Nothing is lost or read twice. -/
theorem consumed_append_unread (consumed : List ι) (task : Task σ ρ) (input : List ι) :
    (run step consumed task input).consumed ++ (run step consumed task input).unread
      = consumed ++ input := by
  induction input generalizing consumed task with
  | nil => rw [run_nil]
  | cons x input ih =>
    cases task with
    | running state =>
      rw [run_running, ih, List.append_assoc, List.singleton_append]
    | returned result => rw [run_returned]

/-- A reader that goes on has taken all there is. -/
theorem unread_of_running {consumed input : List ι} {task : Task σ ρ} {state : σ}
    (h : (run step consumed task input).task = .running state) :
    (run step consumed task input).unread = [] := by
  induction input generalizing consumed task with
  | nil => rw [run_nil]
  | cons x input ih =>
    cases task with
    | running state => exact ih h
    | returned result => cases h

/-- **Invariant rule.** -/
theorem run_invariant {I : List ι → Task σ ρ → Prop}
    (hstep : ∀ consumed state x, I consumed (.running state) → I (consumed ++ [x]) (step state x))
    {consumed : List ι} {task : Task σ ρ} (h : I consumed task) (input : List ι) :
    I (run step consumed task input).consumed (run step consumed task input).task := by
  induction input generalizing consumed task with
  | nil => rwa [run_nil]
  | cons x input ih =>
    cases task with
    | running state => exact ih (hstep consumed state x h)
    | returned result => rwa [run_returned]

end Run

end Reading
