import MediumOverlay.Lib.Trace

/-!
# Handles with numbers that are used again

Each of several owners acquires one handle, uses it and releases it.  A handle is known
by its number.  A number is free when its handle is released, and may be given to the
next owner.  An owner that uses or releases its number once more then touches the handle
of another.

Which number an owner gets is not up to the owners.  `step` runs a schedule of their
operations with given numbers.  `Timeline` runs it without numbers, and keeps for each
owner that has released its handle the owners that have acquired theirs since and hold
it.  A schedule is safe with all numbers exactly if no owner acts behind its release
while there is such another owner (`safe_iff`).
-/

namespace Handles

open Trace

inductive Op where
  | acquire
  | use
  | release
deriving DecidableEq

/-- An owner has used or released its number, and whose handle that was. -/
structure Touch where
  actor : Nat
  op : Op
  owner : Option Nat
deriving DecidableEq

structure State where
  table : Nat → Option Nat
  acquired : Nat → Bool
  log : List Touch

namespace State

def init : State := ⟨fun _ => none, fun _ => false, []⟩

/-- An operation of an owner, with the numbers that the owners get.  A number is only
given out while it is free. -/
def step (number : Nat → Nat) (x : State) : Nat × Op → Option State
  | (i, .acquire) =>
    if x.acquired i = false ∧ x.table (number i) = none then
      some
        { table := Function.update x.table (number i) (some i)
          acquired := Function.update x.acquired i true
          log := x.log }
    else none
  | (i, .use) =>
    if x.acquired i then
      some { x with log := x.log ++ [⟨i, .use, x.table (number i)⟩] }
    else none
  | (i, .release) =>
    if x.acquired i then
      some
        { x with
          table := Function.update x.table (number i) none
          log := x.log ++ [⟨i, .release, x.table (number i)⟩] }
    else none

end State

/-- No owner has touched the handle of another. -/
def Own (log : List Touch) : Prop := ∀ touch ∈ log, ∀ j, touch.owner = some j → j = touch.actor

/-- How often an owner has released its number. -/
def releases (i : Nat) (log : List Touch) : Nat :=
  log.countP fun touch => touch.actor = i ∧ touch.op = .release

/-- How often the handle of an owner has been released. -/
def closings (i : Nat) (log : List Touch) : Nat :=
  log.countP fun touch => touch.op = .release ∧ touch.owner = some i

/-! ## Without numbers -/

inductive Status where
  | none
  | held
  /-- With the owners that have acquired a handle since, and hold it. -/
  | released (since : List Nat)
deriving DecidableEq

namespace Status

def acquiredBy (i : Nat) : Status → Status
  | .released since => .released (i :: since)
  | status => status

def releasedBy (i : Nat) : Status → Status
  | .released since => .released (since.filter (· ≠ i))
  | status => status

def isReleased : Status → Bool
  | .released _ => true
  | _ => false

variable {i : Nat} {status : Status} {since : List Nat}

@[simp] theorem acquiredBy_eq_none : status.acquiredBy i = .none ↔ status = .none := by
  cases status <;> simp [acquiredBy]

@[simp] theorem acquiredBy_eq_held : status.acquiredBy i = .held ↔ status = .held := by
  cases status <;> simp [acquiredBy]

@[simp] theorem acquiredBy_eq_released :
    status.acquiredBy i = .released since ↔ ∃ l, status = .released l ∧ i :: l = since := by
  cases status <;> simp [acquiredBy]

@[simp] theorem isReleased_acquiredBy : (status.acquiredBy i).isReleased = status.isReleased := by
  cases status <;> rfl

@[simp] theorem releasedBy_eq_none : status.releasedBy i = .none ↔ status = .none := by
  cases status <;> simp [releasedBy]

@[simp] theorem releasedBy_eq_held : status.releasedBy i = .held ↔ status = .held := by
  cases status <;> simp [releasedBy]

@[simp] theorem releasedBy_eq_released :
    status.releasedBy i = .released since ↔
      ∃ l, status = .released l ∧ l.filter (· ≠ i) = since := by
  cases status <;> simp [releasedBy]

@[simp] theorem isReleased_releasedBy : (status.releasedBy i).isReleased = status.isReleased := by
  cases status <;> rfl

end Status

/-- The status of every owner. -/
abbrev Timeline : Type := Nat → Status

namespace Timeline

def init : Timeline := fun _ => .none

def step (t : Timeline) : Nat × Op → Option Timeline
  | (i, .acquire) =>
    if t i = .none then some fun k => if k = i then .held else (t k).acquiredBy i else none
  | (i, .use) => if t i = .none then none else some t
  | (i, .release) =>
    match t i with
    | .none => none
    | .held => some fun k => if k = i then .released [] else (t k).releasedBy i
    | .released _ => some t

/-- The owner has its handle, or no other has one that it did not have by the release. -/
def Clear (t : Timeline) (e : Nat × Op) : Prop := ∀ since, t e.1 = .released since → since = []

instance (t : Timeline) (e : Nat × Op) : Decidable (t.Clear e) :=
  match h : t e.1 with
  | .released (_ :: _) => .isFalse fun hclear => List.cons_ne_nil _ _ (hclear _ h)
  | .released [] => .isTrue fun _ hsince => (Status.released.inj (h.symm.trans hsince)).symm
  | .none => .isTrue fun _ hsince => nomatch h.symm.trans hsince
  | .held => .isTrue fun _ hsince => nomatch h.symm.trans hsince

variable {t u : Timeline} {i : Nat} {op : Op}

/-- What a step can do. -/
theorem step_cases (h : step t (i, op) = some u) :
    (op = .acquire ∧ t i = .none ∧ u = fun k => if k = i then .held else (t k).acquiredBy i) ∨
    (op = .release ∧ t i = .held ∧
      u = fun k => if k = i then .released [] else (t k).releasedBy i) ∨
    (op ≠ .acquire ∧ t i ≠ .none ∧ u = t ∧ (op = .release → ∃ since, t i = .released since)) := by
  cases op with
  | acquire =>
    obtain ⟨hnone, h⟩ := Option.ite_none_right_eq_some.mp h
    cases h
    exact .inl ⟨rfl, hnone, rfl⟩
  | use =>
    obtain ⟨hsome, h⟩ := Option.ite_none_left_eq_some.mp h
    cases h
    exact .inr (.inr ⟨by simp, hsome, rfl, by simp⟩)
  | release =>
    dsimp only [step] at h
    split at h
    next => cases h
    next hheld =>
      cases h
      exact .inr (.inl ⟨rfl, hheld, rfl⟩)
    next since hreleased =>
      cases h
      exact .inr (.inr ⟨by simp, by simp [hreleased], rfl, fun _ => ⟨since, hreleased⟩⟩)

/-- An owner acquires its handle first, and once. -/
theorem exists_step (h : op = .acquire ↔ t i = .none) : ∃ u, step t (i, op) = some u := by
  cases op with
  | acquire => exact ⟨_, if_pos (h.mp rfl)⟩
  | use => exact ⟨_, if_neg (mt h.mpr (by simp))⟩
  | release =>
    dsimp only [step]
    cases hi : t i with
    | none => cases h.mpr hi
    | held | released => exact ⟨_, rfl⟩

/-- Only its own acquisition changes that an owner has acquired nothing. -/
theorem step_eq_none_iff (h : step t (i, op) = some u) (j : Nat) :
    u j = .none ↔ t j = .none ∧ ¬ (op = .acquire ∧ j = i) := by
  obtain ⟨rfl, hnone, rfl⟩ | ⟨rfl, hheld, rfl⟩ | ⟨hop, -, rfl, -⟩ := step_cases h
  · dsimp only
    split
    next hj => simp [hj]
    next hj => simp [hj]
  · dsimp only
    split
    next hj => simp [hj, hheld]
    next => simp
  · simp [hop]

variable {e : Nat × Op}

theorem step_ne_none (h : step t e = some u) {j : Nat} (hj : t j ≠ .none) : u j ≠ .none :=
  fun hu => hj ((step_eq_none_iff h j).mp hu).1

/-- Those that have acquired a handle since hold it. -/
def Holders (t : Timeline) : Prop :=
  ∀ i since j, t i = .released since → j ∈ since → t j = .held

theorem Holders.step (ht : Holders t) (h : step t e = some u) : Holders u := by
  intro k since j hk hj
  obtain ⟨i, op⟩ := e
  obtain ⟨-, hnone, rfl⟩ | ⟨-, hheld, rfl⟩ | ⟨-, -, rfl, -⟩ := step_cases h
  · dsimp only at hk ⊢
    split at hk
    next => cases hk
    next =>
      obtain ⟨l, hl, rfl⟩ := Status.acquiredBy_eq_released.mp hk
      split
      next => rfl
      next hji =>
        have hmem := (List.mem_cons.mp hj).resolve_left hji
        exact Status.acquiredBy_eq_held.mpr (ht k l j hl hmem)
  · dsimp only at hk ⊢
    split at hk
    next =>
      cases hk
      cases hj
    next =>
      obtain ⟨l, hl, rfl⟩ := Status.releasedBy_eq_released.mp hk
      obtain ⟨hmem, hji⟩ := List.mem_filter.mp hj
      rw [if_neg (by simpa using hji)]
      exact Status.releasedBy_eq_held.mpr (ht k l j hl hmem)
  · exact ht k since j hk hj

/-- One owner has acquired its handle, but not since the other has released its own. -/
def NotSince (i j : Nat) (t : Timeline) : Prop :=
  t j ≠ .none ∧ ∀ since, t i = .released since → j ∉ since

theorem NotSince.step {j : Nat} (ht : NotSince i j t) (h : step t e = some u) : NotSince i j u := by
  obtain ⟨hj, hsince⟩ := ht
  obtain ⟨k, op⟩ := e
  obtain ⟨-, hnone, rfl⟩ | ⟨-, hheld, rfl⟩ | ⟨-, -, rfl, -⟩ := step_cases h
  · have hjk : j ≠ k := by
      rintro rfl
      exact hj hnone
    refine ⟨by simpa [hjk] using hj, fun since hi => ?_⟩
    dsimp only at hi
    split at hi
    next => cases hi
    next =>
      obtain ⟨l, hl, rfl⟩ := Status.acquiredBy_eq_released.mp hi
      rw [List.mem_cons, not_or]
      exact ⟨hjk, hsince l hl⟩
  · refine ⟨?_, fun since hi => ?_⟩
    · dsimp only
      split
      next => simp
      next => simpa using hj
    · dsimp only at hi
      split at hi
      next =>
        cases hi
        simp
      next =>
        obtain ⟨l, hl, rfl⟩ := Status.releasedBy_eq_released.mp hi
        exact fun hmem => hsince l hl (List.mem_filter.mp hmem).1
  · exact ⟨hj, hsince⟩

end Timeline

/-! ## With numbers -/

/-- The table is that of the timeline, and all that has happened was to own handles. -/
structure Agrees (number : Nat → Nat) (x : State) (t : Timeline) : Prop where
  acquired : ∀ i, x.acquired i = true ↔ t i ≠ .none
  table : ∀ n j, x.table n = some j ↔ t j = .held ∧ number j = n
  since : ∀ i since j, t i = .released since → t j = .held → number j = number i → j ∈ since
  closings : ∀ i, closings i x.log = (t i).isReleased.toNat
  own : Own x.log

namespace Agrees

variable {number : Nat → Nat} {x y : State} {t u : Timeline} {i : Nat} {op : Op}

theorem init (number : Nat → Nat) : Agrees number .init .init :=
  ⟨by simp [State.init, Timeline.init], by simp [State.init, Timeline.init],
    by simp [Timeline.init], fun _ => rfl, by simp [Own, State.init]⟩

/-- An owner that is clear finds its own handle or none. -/
theorem owner (h : Agrees number x t) (hclear : t.Clear (i, op)) (hi : t i ≠ .none) :
    x.table (number i) = if t i = .held then some i else none := by
  cases hstatus : t i with
  | none => exact absurd hstatus hi
  | held => exact (h.table (number i) i).mpr ⟨hstatus, rfl⟩
  | released since =>
    rw [if_neg (by simp), Option.eq_none_iff_forall_ne_some]
    intro j hj
    obtain ⟨hheld, hnumber⟩ := (h.table _ j).mp hj
    have hmem := h.since i since j hstatus hheld hnumber
    rw [hclear since hstatus] at hmem
    cases hmem

/-- No two handles that are held have one number. -/
theorem eq_of_number_eq (h : Agrees number x t) {j : Nat} (hi : t i = .held) (hj : t j = .held)
    (hnumber : number j = number i) : j = i := by
  have hown := (h.table (number i) i).mpr ⟨hi, rfl⟩
  rw [(h.table (number i) j).mpr ⟨hj, hnumber⟩] at hown
  exact Option.some_inj.mp hown

theorem acquire (h : Agrees number x t) (hx : x.step number (i, .acquire) = some y)
    (ht : Timeline.step t (i, .acquire) = some u) : Agrees number y u := by
  obtain ⟨⟨hacquired, hfree⟩, hy⟩ := Option.ite_none_right_eq_some.mp hx
  obtain ⟨hnone, hu⟩ := Option.ite_none_right_eq_some.mp ht
  cases hy
  cases hu
  -- The number was free, so no other owner has it.
  have hother : ∀ j, t j = .held → number j ≠ number i := by
    intro j hj hnumber
    rw [(h.table (number i) j).mpr ⟨hj, hnumber⟩] at hfree
    cases hfree
  refine ⟨fun k => ?_, fun n j => ?_, fun k since j hk hj hnumber => ?_, fun k => ?_, h.own⟩
  · by_cases hk : k = i
    · simp [hk]
    · simpa [hk] using h.acquired k
  · dsimp only
    by_cases hn : n = number i
    · rw [hn, Function.update_self, Option.some_inj]
      split
      next hj => simp [hj]
      next hj =>
        rw [Status.acquiredBy_eq_held]
        exact iff_of_false (Ne.symm hj) fun hheld => hother j hheld.1 hheld.2
    · rw [Function.update_of_ne hn, h.table]
      split
      next hj =>
        rw [hj]
        exact iff_of_false (fun hheld => hn hheld.2.symm) fun hheld => hn hheld.2.symm
      next => rw [Status.acquiredBy_eq_held]
  · split at hk
    next => cases hk
    next =>
      obtain ⟨l, hl, rfl⟩ := Status.acquiredBy_eq_released.mp hk
      split at hj
      next hji => exact List.mem_cons.mpr (.inl hji)
      next =>
        have hheld := Status.acquiredBy_eq_held.mp hj
        exact List.mem_cons_of_mem i (h.since k l j hl hheld hnumber)
  · dsimp only
    rw [h.closings k]
    split
    next hk =>
      rw [hk, hnone]
      rfl
    next => rw [Status.isReleased_acquiredBy]

/-- What is added to the log of own touches is own if the owner is clear. -/
theorem own_append (h : Agrees number x t) (hclear : t.Clear (i, op)) (hi : t i ≠ .none) (op : Op) :
    Own (x.log ++ [⟨i, op, x.table (number i)⟩]) := by
  intro touch htouch j hj
  obtain htouch | htouch := List.mem_append.mp htouch
  · exact h.own touch htouch j hj
  · rw [List.mem_singleton.mp htouch] at hj ⊢
    dsimp only at hj ⊢
    rw [h.owner hclear hi] at hj
    split at hj
    next => exact (Option.some_inj.mp hj).symm
    next => cases hj

theorem use (h : Agrees number x t) (hclear : t.Clear (i, .use))
    (hx : x.step number (i, .use) = some y) (ht : Timeline.step t (i, .use) = some u) :
    Agrees number y u := by
  obtain ⟨-, hy⟩ := Option.ite_none_right_eq_some.mp hx
  obtain ⟨hi, hu⟩ := Option.ite_none_left_eq_some.mp ht
  cases hy
  cases hu
  refine ⟨h.acquired, h.table, h.since, fun k => ?_, h.own_append hclear hi .use⟩
  rw [← h.closings k]
  simp [Handles.closings]

/-- The release of a handle that is held frees its number. -/
theorem release_held (h : Agrees number x t) (hclear : t.Clear (i, .release))
    (hheld : t i = .held) :
    Agrees number
      { x with
        table := Function.update x.table (number i) none
        log := x.log ++ [⟨i, .release, x.table (number i)⟩] }
      fun j => if j = i then .released [] else (t j).releasedBy i := by
  have hi : t i ≠ .none := by simp [hheld]
  have howner := (h.table (number i) i).mpr ⟨hheld, rfl⟩
  refine ⟨fun k => ?_, fun n j => ?_, fun k since j hk hj hnumber => ?_, fun k => ?_,
    h.own_append hclear hi .release⟩
  · dsimp only
    rw [h.acquired k]
    split
    next hk => simp [hk, hi]
    next => simp
  · dsimp only
    by_cases hn : n = number i
    · rw [hn, Function.update_self]
      refine iff_of_false (by simp) fun hj => ?_
      split at hj
      next => cases hj.1
      next hji => exact hji (h.eq_of_number_eq hheld (Status.releasedBy_eq_held.mp hj.1) hj.2)
    · rw [Function.update_of_ne hn, h.table]
      split
      next hji =>
        rw [hji]
        exact iff_of_false (fun hj => hn hj.2.symm) (by simp)
      next => rw [Status.releasedBy_eq_held]
  · split at hj
    next => cases hj
    next hji =>
      have hj := Status.releasedBy_eq_held.mp hj
      split at hk
      next hki =>
        rw [hki] at hnumber
        exact absurd (h.eq_of_number_eq hheld hj hnumber) hji
      next =>
        obtain ⟨l, hl, rfl⟩ := Status.releasedBy_eq_released.mp hk
        exact List.mem_filter.mpr ⟨h.since k l j hl hj hnumber, by simpa using hji⟩
  · rw [Handles.closings, List.countP_append, ← Handles.closings, h.closings k, howner]
    split
    next hk =>
      rw [hk, hheld]
      simp [Status.isReleased]
    next hk =>
      rw [Status.isReleased_releasedBy]
      simp [Ne.symm hk]

theorem release (h : Agrees number x t) (hclear : t.Clear (i, .release))
    (hx : x.step number (i, .release) = some y) (ht : Timeline.step t (i, .release) = some u) :
    Agrees number y u := by
  obtain ⟨hacquired, hy⟩ := Option.ite_none_right_eq_some.mp hx
  have hi := (h.acquired i).mp hacquired
  cases hy
  obtain ⟨hop, -⟩ | ⟨-, hheld, rfl⟩ | ⟨-, -, rfl, hreleased⟩ := Timeline.step_cases ht
  · cases hop
  · exact h.release_held hclear hheld
  · obtain ⟨since, hsince⟩ := hreleased rfl
    have howner := h.owner hclear hi
    rw [if_neg (by simp [hsince])] at howner
    refine ⟨h.acquired, ?_, h.since, fun k => ?_, h.own_append hclear hi .release⟩
    · dsimp only
      rw [← howner, Function.update_eq_self]
      exact h.table
    · rw [← h.closings k]
      simp [Handles.closings, howner]

theorem step {e : Nat × Op} (h : Agrees number x t) (hclear : t.Clear e)
    (hx : x.step number e = some y) (ht : Timeline.step t e = some u) : Agrees number y u := by
  obtain ⟨i, op⟩ := e
  cases op with
  | acquire => exact h.acquire hx ht
  | use => exact h.use hclear hx ht
  | release => exact h.release hclear hx ht

theorem exec {es : List (Nat × Op)} (h : Agrees number x t)
    (hclear : Meets Timeline.step Timeline.Clear t es)
    (hx : Trace.exec (State.step number) x es = some y)
    (ht : Trace.exec Timeline.step t es = some u) : Agrees number y u := by
  induction es generalizing x t with
  | nil =>
    cases hx
    cases ht
    exact h
  | cons e es ih =>
    obtain ⟨x', hx', hx⟩ := exec_cons_eq_some.mp hx
    obtain ⟨t', ht', ht⟩ := exec_cons_eq_some.mp ht
    exact ih (h.step hclear.1 hx' ht') (hclear.2 t' ht') hx ht

end Agrees

/-! ## Giving out numbers -/

section

variable {number : Nat → Nat}

/-- Two owners with one number have both acquired their handles. -/
def Apart (number : Nat → Nat) (t : Timeline) : Prop :=
  ∀ i j, number i = number j → i ≠ j → t i ≠ .none

/-- The numbers of the table are those of owners with a handle. -/
structure Sound (number : Nat → Nat) (x : State) (t : Timeline) : Prop where
  acquired : ∀ i, x.acquired i = true ↔ t i ≠ .none
  table : ∀ n j, x.table n = some j → t j ≠ .none ∧ number j = n

variable {x : State} {t : Timeline}

theorem Agrees.sound (h : Agrees number x t) : Sound number x t := by
  refine ⟨h.acquired, fun n j hj => ?_⟩
  obtain ⟨hheld, hnumber⟩ := (h.table n j).mp hj
  exact ⟨by simp [hheld], hnumber⟩

variable {u : Timeline} {i : Nat}

/-- An operation is possible if the number is free. -/
theorem exists_step {op : Op} (h : Sound number x t) (ht : Timeline.step t (i, op) = some u)
    (hfree : op = .acquire → x.table (number i) = none) :
    ∃ y, x.step number (i, op) = some y ∧ x.log <+: y.log ∧ Sound number y u := by
  have hnone := Timeline.step_eq_none_iff ht
  cases op with
  | acquire =>
    obtain ⟨hi, -⟩ := Option.ite_none_right_eq_some.mp ht
    have hacquired : x.acquired i = false := by
      rw [Bool.eq_false_iff, Ne, h.acquired i, not_not]
      exact hi
    refine ⟨_, if_pos ⟨hacquired, hfree rfl⟩, List.prefix_refl _, fun k => ?_, fun n j hj => ?_⟩
    · by_cases hk : k = i
      · simp [hk, hnone]
      · simpa [hk, hnone] using h.acquired k
    · dsimp only at hj
      by_cases hn : n = number i
      · rw [hn, Function.update_self] at hj
        cases hj
        exact ⟨by simp [hnone], hn.symm⟩
      · rw [Function.update_of_ne hn] at hj
        obtain ⟨hj, hnumber⟩ := h.table n j hj
        exact ⟨Timeline.step_ne_none ht hj, hnumber⟩
  | use =>
    obtain ⟨hi, hu⟩ := Option.ite_none_left_eq_some.mp ht
    cases hu
    exact ⟨_, if_pos ((h.acquired i).mpr hi), List.prefix_append _ _, h.acquired, h.table⟩
  | release =>
    have hi : t i ≠ .none := by
      intro hi
      simp [Timeline.step, hi] at ht
    refine ⟨_, if_pos ((h.acquired i).mpr hi), List.prefix_append _ _, fun k => ?_,
      fun n j hj => ?_⟩
    · simpa [hnone] using h.acquired k
    · dsimp only at hj
      by_cases hn : n = number i
      · rw [hn, Function.update_self] at hj
        cases hj
      · rw [Function.update_of_ne hn] at hj
        obtain ⟨hj, hnumber⟩ := h.table n j hj
        exact ⟨Timeline.step_ne_none ht hj, hnumber⟩

theorem Apart.step {e : Nat × Op} (h : Apart number t) (ht : Timeline.step t e = some u) :
    Apart number u :=
  fun i j hnumber hne => Timeline.step_ne_none ht (h i j hnumber hne)

/-- A number that no two owners get, but those that have acquired theirs, is free. -/
theorem Apart.free (h : Apart number t) (hx : Sound number x t) (hi : t i = .none) :
    x.table (number i) = none := by
  rw [Option.eq_none_iff_forall_ne_some]
  intro j hj
  obtain ⟨hacquired, hnumber⟩ := hx.table _ j hj
  have hne : i ≠ j := by
    rintro rfl
    exact hacquired hi
  exact h i j hnumber.symm hne hi

/-- If no number is to be used again, all operations are possible. -/
theorem exec_of_apart {es : List (Nat × Op)} (h : Sound number x t) (hapart : Apart number t)
    (ht : exec Timeline.step t es = some u) :
    ∃ y, exec (State.step number) x es = some y ∧ x.log <+: y.log := by
  induction es generalizing x t with
  | nil => exact ⟨x, rfl, List.prefix_refl _⟩
  | cons e es ih =>
    obtain ⟨i, op⟩ := e
    obtain ⟨t', ht', ht⟩ := exec_cons_eq_some.mp ht
    have hfree : op = .acquire → x.table (number i) = none := by
      rintro rfl
      exact hapart.free h (Option.ite_none_right_eq_some.mp ht').1
    obtain ⟨x', hx', hlog, hsound⟩ := exists_step h ht' hfree
    obtain ⟨y, hy, hlog'⟩ := ih hsound (hapart.step ht') ht
    exact ⟨y, exec_cons_eq_some.mpr ⟨x', hx', hy⟩, hlog.trans hlog'⟩

/-- The numbers where one owner gets the number of another, and all others their own. -/
def reuse (i j k : Nat) : Nat := if k = j then i else k

theorem eq_of_reuse {j k m : Nat} (h : reuse i j k = reuse i j m) (hne : k ≠ m) :
    k = i ∧ m = j ∨ k = j ∧ m = i := by
  unfold reuse at h
  split_ifs at h <;> omega

/-- If one owner has acquired its handle since the other has released its own, then it can
have got that number. -/
theorem exec_reuse {j : Nat} {es : List (Nat × Op)} (h : Agrees (reuse i j) x t)
    (hclear : Meets Timeline.step Timeline.Clear t es) (ht : exec Timeline.step t es = some u)
    {since : List Nat} (hi : u i = .released since) (hj : j ∈ since) :
    ∃ y, exec (State.step (reuse i j)) x es = some y ∧ Agrees (reuse i j) y u := by
  induction es generalizing x t with
  | nil =>
    cases ht
    exact ⟨x, rfl, h⟩
  | cons e es ih =>
    obtain ⟨k, op⟩ := e
    obtain ⟨t', ht', ht⟩ := exec_cons_eq_some.mp ht
    have hsince : ¬ Timeline.NotSince i j t' := by
      intro hnot
      have hlast := exec_invariant_all (fun _ _ _ hs hstep => hs.step hstep) es t' u hnot ht
      exact hlast.2 since hi hj
    have hfree : op = .acquire → x.table (reuse i j k) = none := by
      rintro rfl
      obtain ⟨hk, hu⟩ := Option.ite_none_right_eq_some.mp ht'
      rw [Option.eq_none_iff_forall_ne_some]
      intro m hm
      obtain ⟨hheld, hnumber⟩ := (h.table _ m).mp hm
      -- Otherwise the number is that of both, and both hold their handles next.
      have hne : m ≠ k := by
        rintro rfl
        rw [hk] at hheld
        cases hheld
      refine hsince ?_
      cases hu
      obtain ⟨rfl, rfl⟩ | ⟨rfl, rfl⟩ := eq_of_reuse hnumber hne
      · exact ⟨by simp, by simp [hne, hheld, Status.acquiredBy]⟩
      · exact ⟨by simp [hne, hheld], by simp⟩
    obtain ⟨x', hx', -, -⟩ := exists_step h.sound ht' hfree
    obtain ⟨y, hy, hagrees⟩ := ih (h.step hclear.1 hx' ht') (hclear.2 t' ht') ht
    exact ⟨y, exec_cons_eq_some.mpr ⟨x', hx', hy⟩, hagrees⟩

end

variable {number : Nat → Nat} {x y : State}

theorem log_step {i : Nat} {op : Op} (hop : op ≠ .acquire) (h : x.step number (i, op) = some y) :
    y.log = x.log ++ [⟨i, op, x.table (number i)⟩] := by
  cases op with
  | acquire => exact absurd rfl hop
  | use | release =>
    obtain ⟨-, hy⟩ := Option.ite_none_right_eq_some.mp h
    cases hy
    rfl

variable {es : List (Nat × Op)}

theorem agrees_exec {t : Timeline} (ht : exec Timeline.step .init es = some t)
    (hclear : Meets Timeline.step Timeline.Clear .init es)
    (hx : exec (State.step number) .init es = some x) : Agrees number x t :=
  (Agrees.init number).exec hclear hx ht

/-! ## Releases -/

theorem releases_step {e : Nat × Op} (h : x.step number e = some y) (i : Nat) :
    releases i y.log = releases i x.log + if e = (i, .release) then 1 else 0 := by
  obtain ⟨k, op⟩ := e
  by_cases hop : op = .acquire
  · subst hop
    obtain ⟨-, hy⟩ := Option.ite_none_right_eq_some.mp h
    cases hy
    simp
  · rw [log_step hop h, releases, List.countP_append, ← releases, List.countP_singleton]
    simp

/-- Every release of the schedule is in the log. -/
theorem releases_exec (h : exec (State.step number) x es = some y) (i : Nat) :
    releases i y.log = releases i x.log + es.count (i, .release) := by
  induction es generalizing x with
  | nil =>
    cases h
    rfl
  | cons e es ih =>
    obtain ⟨x', hx', hy⟩ := exec_cons_eq_some.mp h
    rw [ih hy, releases_step hx', List.count_cons, Nat.add_assoc]
    simp [Nat.add_comm]

namespace Timeline

theorem isReleased_step {t u : Timeline} {e : Nat × Op} (h : step t e = some u) {i : Nat}
    (hi : (t i).isReleased = true ∨ e = (i, .release)) : (u i).isReleased = true := by
  obtain ⟨k, op⟩ := e
  obtain ⟨rfl, hnone, rfl⟩ | ⟨rfl, hheld, rfl⟩ | ⟨hop, -, rfl, hreleased⟩ := step_cases h
  · have hreleased := hi.resolve_right (by simp)
    have hne : i ≠ k := by
      rintro rfl
      rw [hnone] at hreleased
      cases hreleased
    simpa [hne] using hreleased
  · dsimp only
    split
    next => rfl
    next hne => simpa [Ne.symm hne] using hi
  · obtain hi | hi := hi
    · exact hi
    · cases hi
      obtain ⟨since, hsince⟩ := hreleased rfl
      rw [hsince]
      rfl

/-- An owner has released its handle if it has released its number once. -/
theorem isReleased_exec {es : List (Nat × Op)} {t u : Timeline} (h : exec step t es = some u)
    {i : Nat} (hi : (t i).isReleased = true ∨ (i, .release) ∈ es) :
    (u i).isReleased = true := by
  induction es generalizing t with
  | nil =>
    cases h
    exact hi.resolve_right (by simp)
  | cons e es ih =>
    obtain ⟨t', ht', hu⟩ := exec_cons_eq_some.mp h
    refine ih hu ?_
    rw [List.mem_cons, ← or_assoc] at hi
    exact hi.imp_left fun hi => isReleased_step ht' (hi.imp_right Eq.symm)

end Timeline

/-- A schedule is safe with all numbers exactly if no owner acts behind its release while
another has a handle that it has acquired since. -/
theorem safe_iff {t : Timeline} (h : exec Timeline.step .init es = some t) :
    (∀ number x, exec (State.step number) .init es = some x → Own x.log) ↔
      Meets Timeline.step Timeline.Clear .init es := by
  constructor
  · intro hown
    by_contra hmeets
    obtain ⟨before, ⟨i, op⟩, after, t₁, rfl, hbefore, ht₁, hclear⟩ :=
      exists_first_of_not_meets h hmeets
    obtain ⟨since, hi, hne⟩ : ∃ since, t₁ i = .released since ∧ since ≠ [] := by
      simpa [Timeline.Clear] using hclear
    obtain ⟨j, l, rfl⟩ := List.exists_cons_of_ne_nil hne
    have hj : t₁ j = .held :=
      exec_invariant_all (fun _ _ _ hs hstep => Timeline.Holders.step hs hstep) before _ t₁
        (by simp [Timeline.Holders, Timeline.init]) ht₁ i (j :: l) j hi (by simp)
    have hij : i ≠ j := by
      rintro rfl
      rw [hi] at hj
      cases hj
    -- The owner that has come since gets the number that was released.
    obtain ⟨x₁, hx₁, hagrees⟩ := exec_reuse (.init (reuse i j)) hbefore ht₁ hi (by simp)
    obtain ⟨s, hs, hrest⟩ := exec_append_eq_some.mp h
    obtain rfl := Option.some_inj.mp (ht₁.symm.trans hs)
    obtain ⟨t₂, ht₂, ht⟩ := exec_cons_eq_some.mp hrest
    have hop : op ≠ .acquire := by
      rintro rfl
      rw [(Option.ite_none_right_eq_some.mp ht₂).1] at hi
      cases hi
    obtain ⟨x₂, hx₂, -, hsound⟩ :=
      exists_step hagrees.sound ht₂ fun hacquire => absurd hacquire hop
    have hapart : Apart (reuse i j) t₂ := by
      intro k m hnumber hne
      obtain ⟨rfl, -⟩ | ⟨rfl, -⟩ := eq_of_reuse hnumber hne
      · exact Timeline.step_ne_none ht₂ (by simp [hi])
      · exact Timeline.step_ne_none ht₂ (by simp [hj])
    obtain ⟨y, hy, hlog⟩ := exec_of_apart hsound hapart ht
    have howner : x₁.table (reuse i j i) = some j := by
      rw [hagrees.table]
      exact ⟨hj, by simp [reuse, hij]⟩
    have hrun := exec_append_eq_some.mpr ⟨x₁, hx₁, exec_cons_eq_some.mpr ⟨x₂, hx₂, hy⟩⟩
    refine hij (hown _ y hrun ⟨i, op, some j⟩ (hlog.subset ?_) j rfl).symm
    rw [log_step hop hx₂, howner]
    simp
  · intro hclear number x hx
    exact (agrees_exec h hclear hx).own

end Handles
