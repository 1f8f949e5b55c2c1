import Mathlib

/-!
# Mailboxes

A demultiplexer.  A table sends a key to a mailbox, and what arrives under the key
is appended to that mailbox.  Registering a key opens a new mailbox for it.  A
mailbox whose key is registered again is not reused: whoever was given its number
keeps it, and nothing is posted to it any more.

A mailbox has a number.  The numbers in the table are those of mailboxes that
exist and no two keys share one, which the structure carries.  `Holds` says what
a key's mailbox holds, and the four rules say how it changes.
-/

/-- A table from keys to the numbers of mailboxes, and the mailboxes. -/
structure Mailboxes (κ α : Type*) [DecidableEq κ] where
  table : AList fun _ : κ => ℕ
  boxes : List (List α)
  bounded : ∀ k i, table.lookup k = some i → i < boxes.length
  distinct : ∀ k k' i, table.lookup k = some i → table.lookup k' = some i → k = k'

namespace Mailboxes

variable {κ α : Type*} [DecidableEq κ]

def empty : Mailboxes κ α where
  table := ∅
  boxes := []
  bounded := by simp
  distinct := by simp

/-- Append to the mailbox of the key.  Without one the message is dropped. -/
def post (m : Mailboxes κ α) (k : κ) (a : α) : Mailboxes κ α :=
  match m.table.lookup k with
  | none => m
  | some i =>
    { m with
      boxes := m.boxes.modify i (· ++ [a])
      bounded := by simpa using m.bounded }

/-- Open a mailbox for the key. -/
def register (m : Mailboxes κ α) (k : κ) : Mailboxes κ α where
  table := m.table.insert k m.boxes.length
  boxes := m.boxes ++ [[]]
  bounded := by
    intro k' i h
    by_cases hk : k' = k
    · subst hk
      simp only [AList.lookup_insert, Option.some.injEq] at h
      simp [← h]
    · rw [AList.lookup_insert_ne hk] at h
      have := m.bounded k' i h
      simp only [List.length_append, List.length_singleton]
      omega
  distinct := by
    -- the new number is beyond all those in the table
    have hfresh : ∀ k', m.table.lookup k' ≠ some m.boxes.length := by
      intro k' h
      exact Nat.lt_irrefl _ (m.bounded k' _ h)
    intro k₁ k₂ i h₁ h₂
    by_cases hk₁ : k₁ = k <;> by_cases hk₂ : k₂ = k
    · rw [hk₁, hk₂]
    · subst hk₁
      rw [AList.lookup_insert, Option.some.injEq] at h₁
      rw [AList.lookup_insert_ne hk₂, ← h₁] at h₂
      exact absurd h₂ (hfresh k₂)
    · subst hk₂
      rw [AList.lookup_insert, Option.some.injEq] at h₂
      rw [AList.lookup_insert_ne hk₁, ← h₂] at h₁
      exact absurd h₁ (hfresh k₁)
    · rw [AList.lookup_insert_ne hk₁] at h₁
      rw [AList.lookup_insert_ne hk₂] at h₂
      exact m.distinct k₁ k₂ i h₁ h₂

/-- The mailbox of `k` is number `i` and holds `as`. -/
structure Holds (m : Mailboxes κ α) (k : κ) (i : ℕ) (as : List α) : Prop where
  lookup : m.table.lookup k = some i
  box : m.boxes[i]? = some as

variable {m : Mailboxes κ α} {k k' : κ} {i : ℕ} {as : List α}

theorem holds_register (m : Mailboxes κ α) (k : κ) :
    (m.register k).Holds k m.boxes.length [] where
  lookup := AList.lookup_insert m.table
  box := by simp [register]

theorem Holds.post (h : m.Holds k i as) (a : α) : (m.post k a).Holds k i (as ++ [a]) := by
  simp only [Mailboxes.post, h.lookup]
  exact ⟨h.lookup, by simp [h.box]⟩

/-- A message under another key goes elsewhere. -/
theorem Holds.post_ne (h : m.Holds k i as) (hk : k' ≠ k) (a : α) : (m.post k' a).Holds k i as := by
  unfold Mailboxes.post
  split
  next => exact h
  next j hj =>
    have hji : j ≠ i := by
      rintro rfl
      exact hk (m.distinct k' k j hj h.lookup)
    exact ⟨h.lookup, by simp [hji, h.box]⟩

/-- So does a registration under another key. -/
theorem Holds.register_ne (h : m.Holds k i as) (hk : k' ≠ k) : (m.register k').Holds k i as where
  lookup := by
    simp only [register]
    rw [AList.lookup_insert_ne hk.symm]
    exact h.lookup
  box := by
    simp only [register]
    rw [List.getElem?_append_left (m.bounded k i h.lookup)]
    exact h.box

/-! ## Superseded mailboxes

A mailbox whose key was registered again stays behind for good. -/

/-- The key has a later mailbox than number `i`. -/
def Superseded (m : Mailboxes κ α) (k : κ) (i : ℕ) : Prop :=
  ∃ j, m.table.lookup k = some j ∧ i < j

theorem Holds.superseded (h : m.Holds k i as) : (m.register k).Superseded k i :=
  ⟨m.boxes.length, AList.lookup_insert m.table, m.bounded k i h.lookup⟩

theorem Superseded.post (h : m.Superseded k i) (k' : κ) (a : α) :
    (m.post k' a).Superseded k i := by
  unfold Mailboxes.post
  split
  next => exact h
  next => exact h

theorem Superseded.register (h : m.Superseded k i) (k' : κ) : (m.register k').Superseded k i := by
  obtain ⟨j, hj, hlt⟩ := h
  by_cases hk : k = k'
  · subst hk
    exact ⟨m.boxes.length, AList.lookup_insert m.table, hlt.trans (m.bounded k j hj)⟩
  · exact ⟨j, by rw [Mailboxes.register, AList.lookup_insert_ne hk, hj], hlt⟩

/-- What is posted under the key goes to the later mailbox. -/
theorem Superseded.box_post (h : m.Superseded k i) (a : α) :
    (m.post k a).boxes[i]? = m.boxes[i]? := by
  obtain ⟨j, hj, hlt⟩ := h
  simp only [Mailboxes.post, hj]
  simp [hlt.ne']

/-! ## The history of a table

Nothing is ever taken out of the table, so it is determined by the keys that were
registered. -/

/-- The keys `ks` have been registered, in this order. -/
structure Registered (m : Mailboxes κ α) (ks : List κ) : Prop where
  boxes : m.boxes.length = ks.length
  mem : ∀ k, k ∈ m.table ↔ k ∈ ks
  /-- The mailbox of a key is that of its last registration. -/
  lookup : ∀ k i, m.table.lookup k = some i ↔ ks[i]? = some k ∧ k ∉ ks.drop (i + 1)

variable {ks : List κ}

theorem registered_empty : (empty : Mailboxes κ α).Registered [] where
  boxes := rfl
  mem := by simp [empty]
  lookup := by simp [empty]

theorem Registered.post (h : m.Registered ks) (k : κ) (a : α) : (m.post k a).Registered ks := by
  unfold Mailboxes.post
  split
  next => exact h
  next => exact ⟨by simpa using h.boxes, h.mem, h.lookup⟩

theorem Registered.register (h : m.Registered ks) (k : κ) :
    (m.register k).Registered (ks ++ [k]) where
  boxes := by simp [Mailboxes.register, h.boxes]
  mem := by simp [Mailboxes.register, h.mem, or_comm]
  lookup := by
    intro k' i
    simp only [Mailboxes.register, h.boxes]
    rcases lt_trichotomy i ks.length with hi | rfl | hi
    · -- an earlier registration, which that of `k` supersedes if it is of the same key
      rw [List.getElem?_append_left hi, List.drop_append_of_le_length hi]
      by_cases hk : k' = k
      · subst hk
        simp [AList.lookup_insert, hi.ne']
      · rw [AList.lookup_insert_ne hk, h.lookup]
        simp [hk]
    · by_cases hk : k' = k
      · subst hk
        simp [AList.lookup_insert]
      · rw [AList.lookup_insert_ne hk, h.lookup]
        simp [Ne.symm hk]
    · have hnone : (ks ++ [k])[i]? = none := by simpa using hi
      rw [hnone]
      by_cases hk : k' = k
      · subst hk
        simp [AList.lookup_insert, hi.ne]
      · rw [AList.lookup_insert_ne hk, h.lookup]
        simp [hi.le]

/-- There is an entry for each key that was ever registered. -/
theorem Registered.length_keys (h : m.Registered ks) :
    m.table.keys.length = ks.dedup.length := by
  have hperm : m.table.keys.Perm ks.dedup := by
    refine (List.perm_ext_iff_of_nodup m.table.keys_nodup ks.nodup_dedup).mpr ?_
    intro k
    rw [List.mem_dedup, ← h.mem, AList.mem_keys]
  exact hperm.length_eq

/-- A message changes the mailbox of its key. -/
theorem box_post_eq_iff (k : κ) (a : α) (hi : i < m.boxes.length) :
    (m.post k a).boxes[i]? = m.boxes[i]? ↔ m.table.lookup k ≠ some i := by
  unfold Mailboxes.post
  split
  next hnone => simp [hnone]
  next j hj =>
    rw [hj]
    by_cases hji : j = i
    · subst hji
      simp [hi]
    · simp [hji]

end Mailboxes
