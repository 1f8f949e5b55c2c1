import Mathlib

/-!
# Tables

A table is a list of rows with a primary key, and the key of every row is its own.
An insertion of a row with a key that is there already fails.

A transaction is a list of statements.  A statement that fails has no effect
itself, but those before it had theirs, and the transaction takes them back.

`orderBy` sorts the rows of a query by a key in a linear order.  Where the keys
differ, the result depends only on which rows there are (`orderBy_eq`), and the
first row is the one with the least key (`head?_orderBy`).
-/

/-- A list of rows with a primary key. -/
structure Table {ρ κ : Type*} (key : ρ → κ) where
  rows : List ρ
  nodup : (rows.map key).Nodup

namespace Table

/-! ## Tables -/

section Tables

variable {ρ κ : Type*} {key : ρ → κ}

def empty : Table key := ⟨[], .nil⟩

/-- Append a row with a new key. -/
def push (t : Table key) (row : ρ) (h : key row ∉ t.rows.map key) : Table key where
  rows := t.rows ++ [row]
  nodup := by
    rw [List.map_append]
    exact t.nodup.append (List.nodup_singleton _) (List.disjoint_singleton.mpr h)

def insert [DecidableEq κ] (t : Table key) (row : ρ) : Option (Table key) :=
  if h : key row ∈ t.rows.map key then none else some (t.push row h)

/-- Insert a row, or replace the one with its key. -/
def upsert [DecidableEq κ] (t : Table key) (row : ρ) : Table key :=
  if h : key row ∈ t.rows.map key then
    { rows := t.rows.map fun r => if key r = key row then row else r
      nodup := by
        have hkeys : (t.rows.map fun r => if key r = key row then row else r).map key
            = t.rows.map key := by
          rw [List.map_map]
          refine List.map_congr_left fun r _ => ?_
          by_cases hr : key r = key row <;> simp [hr]
        rw [hkeys]
        exact t.nodup }
  else t.push row h

def deleteWhere (t : Table key) (p : ρ → Bool) : Table key where
  rows := t.rows.filter fun r => !p r
  nodup := t.nodup.sublist (List.filter_sublist.map key)

variable {t : Table key} {row : ρ}

theorem insert_eq_some [DecidableEq κ] {u : Table key} (h : t.insert row = some u) :
    u.rows = t.rows ++ [row] := by
  unfold insert at h
  split at h
  · cases h
  · cases h
    rfl

theorem insert_eq_none_iff [DecidableEq κ] : t.insert row = none ↔ key row ∈ t.rows.map key := by
  unfold insert
  split <;> simp_all

theorem mem_keys_upsert [DecidableEq κ] {k : κ} :
    k ∈ (t.upsert row).rows.map key ↔ k ∈ t.rows.map key ∨ k = key row := by
  unfold upsert
  split
  case isTrue h =>
    simp only [List.map_map, List.mem_map, Function.comp_apply] at h ⊢
    constructor
    · rintro ⟨r, hr, rfl⟩
      by_cases hkey : key r = key row
      · simp [hkey]
      · simp only [hkey, if_false]
        exact .inl ⟨r, hr, rfl⟩
    · rintro (⟨r, hr, rfl⟩ | rfl)
      · refine ⟨r, hr, ?_⟩
        by_cases hkey : key r = key row <;> simp [hkey]
      · obtain ⟨r, hr, hkey⟩ := h
        exact ⟨r, hr, by simp [hkey]⟩
  case isFalse h => simp [push]

/-- Behind an upsert, the rows with its key are its row. -/
theorem filter_upsert_self [DecidableEq κ] (t : Table key) (row : ρ) :
    (t.upsert row).rows.filter (fun r => key r = key row) = [row] := by
  unfold upsert
  split
  case isFalse h =>
    have hnone : t.rows.filter (fun r => key r = key row) = [] := by
      refine List.filter_eq_nil_iff.mpr fun r hr => ?_
      simp only [decide_eq_true_eq]
      intro hkey
      exact h (hkey ▸ List.mem_map_of_mem hr)
    simp [push, List.filter_append, hnone]
  case isTrue h =>
    -- replaced rows are all the new row, and the key was there once
    have hcount : (t.rows.map key).count (key row) = 1 := List.count_eq_one_of_mem t.nodup h
    refine (List.eq_replicate_iff (n := 1)).mpr ⟨?_, ?_⟩
    · rw [← List.countP_eq_length_filter, List.countP_map]
      rw [List.count, List.countP_map] at hcount
      rw [← hcount]
      refine List.countP_congr fun r _ => ?_
      by_cases hr : key r = key row <;> simp [hr]
    · intro r hr
      obtain ⟨hr, hkey⟩ := List.mem_filter.mp hr
      obtain ⟨r', -, rfl⟩ := List.mem_map.mp hr
      by_cases hr' : key r' = key row
      · simp [hr']
      · simp [hr'] at hkey

theorem filter_upsert_of_ne [DecidableEq κ] (t : Table key) {k : κ} (h : k ≠ key row) :
    (t.upsert row).rows.filter (fun r => key r = k) = t.rows.filter fun r => key r = k := by
  unfold upsert
  split
  case isFalse => simp [push, List.filter_append, h.symm]
  case isTrue =>
    rw [List.filter_map]
    have hsame : (t.rows.filter ((fun r => decide (key r = k)) ∘ fun r =>
        if key r = key row then row else r)) = t.rows.filter fun r => key r = k := by
      refine List.filter_congr fun r _ => ?_
      by_cases hr : key r = key row <;> simp [hr, h.symm]
    rw [hsame]
    refine (List.map_congr_left fun r hr => ?_).trans (List.map_id _)
    have hr := (List.mem_filter.mp hr).2
    simp only [decide_eq_true_eq] at hr
    simp [hr, h]

end Tables

/-! ## Transactions -/

section Transactions

variable {σ ε : Type*}

/-- A statement of a transaction. -/
abbrev Statement (σ ε : Type*) : Type _ := σ → Except ε σ

/-- Execute the statements up to the first that fails. -/
def execute : List (Statement σ ε) → σ → Except ε Unit × σ
  | [], s => (.ok (), s)
  | statement :: statements, s =>
    match statement s with
    | .error error => (.error error, s)
    | .ok s => execute statements s

/-- Execute the statements, and go back to the first state if one fails. -/
def transact (statements : List (Statement σ ε)) (s : σ) : Except ε Unit × σ :=
  match execute statements s with
  | (.ok (), s) => (.ok (), s)
  | (.error error, _) => (.error error, s)

theorem execute_append (l l' : List (Statement σ ε)) (s : σ) :
    execute (l ++ l') s =
      match execute l s with
      | (.ok (), s) => execute l' s
      | (.error error, s) => (.error error, s) := by
  induction l generalizing s with
  | nil => rfl
  | cons statement l ih =>
    simp only [List.cons_append, execute]
    cases statement s with
    | error error => rfl
    | ok s => exact ih s

end Transactions

/-! ## Queries -/

section Queries

variable {α β κ : Type*} [LinearOrder κ]

/-- `order by`. -/
def orderBy (k : α → κ) (l : List α) : List α := l.insertionSort fun a b => k a ≤ k b

theorem orderBy_perm (k : α → κ) (l : List α) : (orderBy k l).Perm l := List.perm_insertionSort _ l

theorem orderBy_pairwise (k : α → κ) (l : List α) :
    (orderBy k l).Pairwise fun a b => k a ≤ k b := by
  have : Std.Total fun a b : α => k a ≤ k b := ⟨fun a b => le_total (k a) (k b)⟩
  have : IsTrans α fun a b => k a ≤ k b := ⟨fun _ _ _ => le_trans⟩
  exact List.pairwise_insertionSort _ l

variable {k : α → κ} {l : List α}

/-- A sorted list with the rows of a query is its result. -/
theorem orderBy_eq {l' : List α} (hperm : l'.Perm l) (hsorted : l'.Pairwise fun a b => k a ≤ k b)
    (hnodup : (l.map k).Nodup) : orderBy k l = l' := by
  refine ((orderBy_perm k l).trans hperm.symm).eq_of_pairwise ?_ (orderBy_pairwise k l) hsorted
  intro a b ha hb hab hba
  exact List.inj_on_of_nodup_map hnodup ((orderBy_perm k l).mem_iff.mp ha) (hperm.mem_iff.mp hb)
    (le_antisymm hab hba)

theorem orderBy_congr {l' : List α} (hperm : l.Perm l') (h : (l.map k).Nodup) :
    orderBy k l = orderBy k l' :=
  orderBy_eq ((orderBy_perm k l').trans hperm.symm) (orderBy_pairwise k l') h

/-- Keys that differ come out in strict order. -/
theorem map_orderBy_pairwise (h : (l.map k).Nodup) : ((orderBy k l).map k).Pairwise (· < ·) := by
  have hnodup : ((orderBy k l).map k).Nodup := ((orderBy_perm k l).map k).nodup_iff.mpr h
  have hle : ((orderBy k l).map k).Pairwise (· ≤ ·) := List.pairwise_map.mpr (orderBy_pairwise k l)
  exact (hle.and hnodup).imp fun h => lt_of_le_of_ne h.1 h.2

/-- A condition on the rows can be put before or behind the order. -/
theorem filter_orderBy (h : (l.map k).Nodup) (p : α → Bool) :
    (orderBy k l).filter p = orderBy k (l.filter p) :=
  (orderBy_eq ((orderBy_perm k l).filter p) ((orderBy_pairwise k l).filter p)
    (h.sublist (List.filter_sublist.map k))).symm

/-- The first row of a query with `order by` is the one with the least key. -/
theorem head?_orderBy (h : (l.map k).Nodup) {a : α} :
    (orderBy k l).head? = some a ↔ a ∈ l ∧ ∀ b ∈ l, k a ≤ k b := by
  constructor
  · intro ha
    obtain ⟨rest, hrest⟩ := List.head?_eq_some_iff.mp ha
    have hsorted := orderBy_pairwise k l
    have hmem := fun b : α => (orderBy_perm k l).mem_iff (a := b)
    rw [hrest] at hsorted hmem
    refine ⟨(hmem a).mp List.mem_cons_self, fun b hb => ?_⟩
    rcases List.mem_cons.mp ((hmem b).mpr hb) with rfl | hb
    · exact le_rfl
    · exact (List.pairwise_cons.mp hsorted).1 b hb
  · rintro ⟨ha, hle⟩
    cases hl : orderBy k l with
    | nil =>
      have hmem := (orderBy_perm k l).mem_iff.mpr ha
      rw [hl] at hmem
      cases hmem
    | cons b rest =>
      have hsorted := orderBy_pairwise k l
      have hmem := fun c : α => (orderBy_perm k l).mem_iff (a := c)
      rw [hl] at hsorted hmem
      have hb : b ∈ l := (hmem b).mp List.mem_cons_self
      rcases List.mem_cons.mp ((hmem a).mpr ha) with rfl | hrest
      · rfl
      · have hba := (List.pairwise_cons.mp hsorted).1 a hrest
        rw [List.head?_cons, List.inj_on_of_nodup_map h hb ha (le_antisymm hba (hle b hb))]

/-- Rows can be computed before or behind the order if that keeps the order. -/
theorem orderBy_map {κ' : Type*} [LinearOrder κ'] {k' : β → κ'} {g : α → β}
    (h : ∀ a ∈ l, ∀ b ∈ l, k a ≤ k b ↔ k' (g a) ≤ k' (g b)) :
    orderBy k' (l.map g) = (orderBy k l).map g :=
  (List.map_insertionSort _ _ g l h).symm

/-- The rows of a join on conditions of each side. -/
theorem filter_product (l : List α) (l' : List β) (p : α → Bool) (q : β → Bool) :
    (l ×ˢ l').filter (fun x => p x.1 && q x.2) = l.filter p ×ˢ l'.filter q := by
  induction l with
  | nil => rfl
  | cons a l ih =>
    rw [List.product_cons, List.filter_append, ih, List.filter_map]
    cases hp : p a <;> simp [hp, List.product_cons, Function.comp_def]

variable {l' : List β}

theorem map_product_nodup {κ₁ κ₂ : Type*} {k : α → κ₁} {k' : β → κ₂} (h : (l.map k).Nodup)
    (h' : (l'.map k').Nodup) : ((l ×ˢ l').map fun x => toLex (k' x.2, k x.1)).Nodup := by
  refine List.Nodup.map_on ?_ (h.of_map.product h'.of_map)
  rintro ⟨a, b⟩ hab ⟨a', b'⟩ hab' hkey
  obtain ⟨ha, hb⟩ := List.mem_product.mp hab
  obtain ⟨ha', hb'⟩ := List.mem_product.mp hab'
  obtain ⟨hk', hk⟩ := Prod.mk.inj (toLex.injective hkey)
  exact Prod.ext (List.inj_on_of_nodup_map h ha ha' hk) (List.inj_on_of_nodup_map h' hb hb' hk')

/-- The first row of a product that is ordered by its second part and then by its
first. -/
theorem head?_orderBy_product {κ' : Type*} [LinearOrder κ'] {k' : β → κ'} (h : (l.map k).Nodup)
    (h' : (l'.map k').Nodup) :
    (orderBy (fun x : α × β => toLex (k' x.2, k x.1)) (l ×ˢ l')).head? =
      (orderBy k l).head?.bind fun a => (orderBy k' l').head?.map fun b => (a, b) := by
  cases ha : (orderBy k l).head? with
  | none =>
    have hnil : l = [] := by
      have := orderBy_perm k l
      rw [List.head?_eq_none_iff.mp ha] at this
      exact this.symm.eq_nil
    subst hnil
    rfl
  | some a =>
    cases hb : (orderBy k' l').head? with
    | none =>
      have hnil : l' = [] := by
        have := orderBy_perm k' l'
        rw [List.head?_eq_none_iff.mp hb] at this
        exact this.symm.eq_nil
      subst hnil
      rw [List.product_nil]
      rfl
    | some b =>
      obtain ⟨hmem, hle⟩ := (head?_orderBy h).mp ha
      obtain ⟨hmem', hle'⟩ := (head?_orderBy h').mp hb
      refine (head?_orderBy (map_product_nodup h h')).mpr
        ⟨List.mem_product.mpr ⟨hmem, hmem'⟩, ?_⟩
      intro x hx
      obtain ⟨hx, hx'⟩ := List.mem_product.mp hx
      rw [Prod.Lex.toLex_le_toLex]
      exact (hle' _ hx').lt_or_eq.imp_right fun heq => ⟨heq, hle _ hx⟩

theorem mapM_eq_ok_iff {ε : Type*} {f : α → Except ε β} {out : List β} :
    l.mapM f = .ok out ↔ List.Forall₂ (fun a b => f a = .ok b) l out := by
  induction l generalizing out with
  | nil => simp [pure, Except.pure, eq_comm]
  | cons a l ih =>
    rw [List.mapM_cons]
    cases ha : f a with
    | error error => simp [bind, Except.bind, List.forall₂_cons_left_iff, ha]
    | ok b =>
      cases hl : l.mapM f with
      | error error =>
        simp [bind, Except.bind, List.forall₂_cons_left_iff, ← ih, hl]
      | ok bs =>
        simp [bind, Except.bind, pure, Except.pure, List.forall₂_cons_left_iff, ← ih, hl, ha,
          eq_comm]

theorem exists_mem_of_forall₂ {R : α → β → Prop} (h : List.Forall₂ R l l') {b : β} (hb : b ∈ l') :
    ∃ a ∈ l, R a b := by
  induction h with
  | nil => cases hb
  | @cons a b' l l' hr _ ih =>
    rcases List.mem_cons.mp hb with rfl | hb
    · exact ⟨a, List.mem_cons_self, hr⟩
    · obtain ⟨a', ha', hr'⟩ := ih hb
      exact ⟨a', List.mem_cons_of_mem _ ha', hr'⟩

theorem exists_forall₂_iff {R : α → β → Prop} :
    (∃ l', List.Forall₂ R l l') ↔ ∀ a ∈ l, ∃ b, R a b := by
  induction l with
  | nil => simp
  | cons a l ih =>
    simp only [List.forall₂_cons_left_iff, List.forall_mem_cons, ← ih]
    constructor
    · rintro ⟨_, b, l', hb, hl', rfl⟩
      exact ⟨⟨b, hb⟩, l', hl'⟩
    · rintro ⟨⟨b, hb⟩, l', hl'⟩
      exact ⟨b :: l', b, l', hb, hl', rfl⟩

end Queries

end Table
