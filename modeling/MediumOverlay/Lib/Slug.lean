import Mathlib

/-!
# Slugs

A slug keeps some characters of a text and puts one separator wherever others stood
between two of them.  `collect` is the usual loop for this, with its output so far and
a flag for a separator at the end of the output.  It sees a text as a list with `none`
for each character that is not kept, so two texts that differ only in those have one
slug, however many they are (`collect_none_none`).

A slug has no separator at either end and no two in a row.  Such a text is its own
slug (`slug_of_isSlug`).
-/

namespace Slug

variable {sep : Char}

/-- The loop over a text.  A character that is not kept is `none`. -/
def collect (sep : Char) (output : List Char) (lastWasSep : Bool) : List (Option Char) → List Char
  | [] => output
  | some c :: cs => collect sep (output ++ [c]) false cs
  | none :: cs =>
    if !lastWasSep && !output.isEmpty then collect sep (output ++ [sep]) true cs
    else collect sep output lastWasSep cs

/-- Remove the separators at the end. -/
def trimEnd (sep : Char) (output : List Char) : List Char := output.rdropWhile (· = sep)

def slug (sep : Char) (cs : List (Option Char)) : List Char := trimEnd sep (collect sep [] false cs)

/-- A second character that is not kept makes no difference. -/
theorem collect_none_none (output : List Char) (lastWasSep : Bool) (cs : List (Option Char)) :
    collect sep output lastWasSep (none :: none :: cs)
      = collect sep output lastWasSep (none :: cs) := by
  by_cases h : (!lastWasSep && !output.isEmpty) = true
  · simp [collect, h]
  · simp [collect, h]

variable {cs : List (Option Char)}

/-- Rests that the loop treats alike are treated alike behind a common character. -/
theorem collect_cons_congr {ds : List (Option Char)}
    (h : ∀ output lastWasSep, collect sep output lastWasSep cs = collect sep output lastWasSep ds)
    (c : Option Char) (output : List Char) (lastWasSep : Bool) :
    collect sep output lastWasSep (c :: cs) = collect sep output lastWasSep (c :: ds) := by
  cases c with
  | some c => exact h _ _
  | none => simp only [collect, h]

/-- A text without a separator at its start and without two in a row. -/
structure Clean (sep : Char) (cs : List Char) : Prop where
  head : cs.head? ≠ some sep
  chain : cs.IsChain fun a b => ¬(a = sep ∧ b = sep)

/-- A text that is clean and has no separator at its end. -/
structure IsSlug (sep : Char) (cs : List Char) : Prop extends Clean sep cs where
  last : cs.getLast? ≠ some sep

variable {c : Char}

theorem Clean.concat {cs : List Char} (h : Clean sep cs)
    (hc : c = sep → cs ≠ [] ∧ cs.getLast? ≠ some sep) : Clean sep (cs ++ [c]) where
  head := by
    cases cs with
    | nil =>
      simp only [List.nil_append, List.head?_cons, ne_eq, Option.some.injEq]
      intro hsep
      exact (hc hsep).1 rfl
    | cons a cs => exact h.head
  chain := by
    refine h.chain.append (List.isChain_singleton c) ?_
    rintro a ha b hb ⟨rfl, rfl⟩
    cases hb
    exact (hc rfl).2 ha

variable {output : List Char} {lastWasSep : Bool}

/-- The output of the loop is clean, and the flag says whether it ends in a
separator. -/
theorem clean_collect (hcs : some sep ∉ cs) (h : Clean sep output)
    (hlast : lastWasSep = true ↔ output.getLast? = some sep) :
    Clean sep (collect sep output lastWasSep cs) := by
  induction cs generalizing output lastWasSep with
  | nil => exact h
  | cons c cs ih =>
    obtain ⟨hc, hrest⟩ := not_or.mp (mt List.mem_cons.mpr hcs)
    cases c with
    | some c =>
      have hne : c ≠ sep := by
        rintro rfl
        exact hc rfl
      exact ih hrest (h.concat fun heq => absurd heq hne) (by simp [hne])
    | none =>
      rw [collect]
      split
      next hcond =>
        simp only [Bool.and_eq_true, Bool.not_eq_true', List.isEmpty_eq_false_iff] at hcond
        refine ih hrest (h.concat fun _ => ⟨hcond.2, fun hsep => ?_⟩) (by simp)
        rw [hlast.mpr hsep] at hcond
        cases hcond.1
      next => exact ih hrest h hlast

theorem Clean.trimEnd {cs : List Char} (h : Clean sep cs) : IsSlug sep (trimEnd sep cs) := by
  have happend : Slug.trimEnd sep cs ++ cs.rtakeWhile (· = sep) = cs :=
    List.rdropWhile_append_rtakeWhile
  obtain ⟨hhead, hchain⟩ := h
  rw [← happend] at hhead hchain
  refine ⟨⟨fun hsep => hhead ?_, (List.isChain_append.mp hchain).1⟩, fun hsep => ?_⟩
  · rw [List.head?_append, hsep, Option.some_or]
  · have hne : Slug.trimEnd sep cs ≠ [] := by
      rintro hnil
      rw [hnil] at hsep
      cases hsep
    rw [List.getLast?_eq_getLast_of_ne_nil hne, Option.some.injEq] at hsep
    exact List.rdropWhile_last_not _ _ hne (decide_eq_true hsep)

theorem isSlug_slug (h : some sep ∉ cs) : IsSlug sep (slug sep cs) :=
  (clean_collect h ⟨by simp, .nil⟩ (by simp)).trimEnd

/-- At the start there is nothing to trim, so it is enough to trim the end. -/
theorem dropWhile_collect (h : some sep ∉ cs) :
    (collect sep [] false cs).dropWhile (· = sep) = collect sep [] false cs := by
  have hclean : Clean sep (collect sep [] false cs) :=
    clean_collect h ⟨by simp, .nil⟩ (by simp)
  have hhead := hclean.head
  cases hout : collect sep [] false cs with
  | nil => rfl
  | cons c output =>
    rw [hout, List.head?_cons, ne_eq, Option.some.injEq] at hhead
    exact List.dropWhile_cons_of_neg (by simpa using hhead)

theorem mem_collect (h : c ∈ collect sep output lastWasSep cs) :
    c ∈ output ∨ c = sep ∨ some c ∈ cs := by
  induction cs generalizing output lastWasSep with
  | nil => exact .inl h
  | cons d cs ih =>
    have hstep : c ∈ output ∨ some c = d ∨ c = sep ∨ some c ∈ cs := by
      cases d with
      | some d =>
        rcases ih h with hmem | hrest
        · rw [List.mem_append, List.mem_singleton] at hmem
          exact hmem.imp_right fun heq => .inl (by rw [heq])
        · exact .inr (.inr hrest)
      | none =>
        rw [collect] at h
        split at h
        · rcases ih h with hmem | hrest
          · rw [List.mem_append, List.mem_singleton] at hmem
            exact hmem.imp_right fun heq => .inr (.inl heq)
          · exact .inr (.inr hrest)
        · exact (ih h).imp_right .inr
    rcases hstep with hmem | heq | hsep | hmem
    · exact .inl hmem
    · exact .inr (.inr (heq ▸ List.mem_cons_self))
    · exact .inr (.inl hsep)
    · exact .inr (.inr (List.mem_cons_of_mem _ hmem))

theorem mem_slug (h : c ∈ slug sep cs) : c = sep ∨ some c ∈ cs := by
  have happend : slug sep cs ++ (collect sep [] false cs).rtakeWhile (· = sep)
      = collect sep [] false cs := List.rdropWhile_append_rtakeWhile
  have hmem : c ∈ collect sep [] false cs := happend ▸ List.mem_append_left _ h
  exact (mem_collect hmem).resolve_left List.not_mem_nil

/-- The loop copies a clean text. -/
theorem collect_of_clean (cs : List Char) (h : Clean sep (output ++ cs))
    (hlast : lastWasSep = true ↔ output.getLast? = some sep) :
    collect sep output lastWasSep (cs.map fun c => if c = sep then none else some c)
      = output ++ cs := by
  induction cs generalizing output lastWasSep with
  | nil => simp [collect]
  | cons c cs ih =>
    have hcs : Clean sep ((output ++ [c]) ++ cs) := by
      rw [List.append_assoc]
      exact h
    have hgoal : output ++ c :: cs = (output ++ [c]) ++ cs := by simp
    rw [hgoal, List.map_cons]
    by_cases hc : c = sep
    · subst hc
      have hempty : output ≠ [] := by
        rintro rfl
        exact h.head rfl
      have hflag : lastWasSep = false := by
        rw [Bool.eq_false_iff, ne_eq, hlast]
        intro hsep
        exact (List.isChain_append.mp h.chain).2.2 _ hsep _ rfl ⟨rfl, rfl⟩
      rw [if_pos rfl, collect, if_pos (by simp [hempty, hflag])]
      exact ih hcs (by simp)
    · rw [if_neg hc, collect]
      exact ih hcs (by simp [hc])

/-- A slug is its own slug. -/
theorem slug_of_isSlug {cs : List Char} (h : IsSlug sep cs) :
    slug sep (cs.map fun c => if c = sep then none else some c) = cs := by
  rw [slug, collect_of_clean cs h.toClean (by simp), List.nil_append, trimEnd,
    List.rdropWhile_eq_self_iff]
  intro hne hsep
  simp only [decide_eq_true_eq] at hsep
  exact h.last (by rw [List.getLast?_eq_getLast_of_ne_nil hne, hsep])

theorem subset_intercalate {sep part : List Char} :
    ∀ {parts : List (List Char)}, part ∈ parts → part ⊆ sep.intercalate parts
  | [_], h => by simp [List.mem_singleton.mp h]
  | first :: second :: rest, h => by
    rw [List.intercalate_cons_cons]
    obtain rfl | h := List.mem_cons.mp h
    · exact List.subset_append_of_subset_left _ (List.subset_append_left _ _)
    · exact List.subset_append_of_subset_right _ (subset_intercalate h)

/-- A slug is made of parts without separators, with one separator between two. -/
theorem IsSlug.exists_parts {sep : Char} : ∀ {c : Char} {cs : List Char}, IsSlug sep (c :: cs) →
    ∃ first parts, c :: cs = [sep].intercalate ((c :: first) :: parts)
      ∧ ∀ part ∈ (c :: first) :: parts, part ≠ [] ∧ sep ∉ part
  | c, [], h => by
    have hc : c ≠ sep := fun heq => h.head (by simp [heq])
    exact ⟨[], [], by simp, by simpa using hc.symm⟩
  | c, d :: cs, h => by
    have hc : c ≠ sep := fun heq => h.head (by simp [heq])
    obtain ⟨hpair, hchain⟩ := List.isChain_cons_cons.mp h.chain
    have hlast : (d :: cs).getLast? ≠ some sep := by simpa using h.last
    by_cases hd : d = sep
    · -- The separator ends the first part, and another part begins behind it.
      subst hd
      cases cs with
      | nil => exact absurd rfl hlast
      | cons e cs =>
        have hrest : IsSlug d (e :: cs) := by
          obtain ⟨hnext, hchain⟩ := List.isChain_cons_cons.mp hchain
          exact ⟨⟨fun heq => hnext ⟨rfl, Option.some.inj heq⟩, hchain⟩, by simpa using hlast⟩
        obtain ⟨first, parts, hparts, hall⟩ := hrest.exists_parts
        refine ⟨[], (e :: first) :: parts, ?_, List.forall_mem_cons.mpr ⟨?_, hall⟩⟩
        · rw [hparts, List.intercalate_cons_cons]
          rfl
        · simpa using hc.symm
    · have hrest : IsSlug sep (d :: cs) :=
        ⟨⟨fun heq => hd (Option.some.inj heq), hchain⟩, hlast⟩
      obtain ⟨first, parts, hparts, hall⟩ := hrest.exists_parts
      obtain ⟨hfirst, hall⟩ := List.forall_mem_cons.mp hall
      refine ⟨d :: first, parts, ?_, List.forall_mem_cons.mpr ⟨⟨by simp, ?_⟩, hall⟩⟩
      · rw [hparts]
        cases parts <;> simp
      · exact List.not_mem_cons_of_ne_of_not_mem hc.symm hfirst.2

end Slug
