import Mathlib

/-!
# A window over a growing log

Entries with a time are appended to a log.  A window keeps the recent ones: it
forgets entries from its old end, those that are older than a width, and those
beyond a capacity.

`Window` relates the window to the whole log.  What it has forgotten was too old
by then, or has at least as many later entries as the capacity allows.  The rules
say how it moves on, and `Window.found_iff` says what a look into the window
tells about the log.
-/

namespace RecentWindow

variable {κ : Type*}

/-- At time `now` the window `recent` stands at the end of `log`. -/
structure Window (cap width now : ℕ) (log recent : List (κ × ℕ)) : Prop where
  /-- Of the last `cap` entries the forgotten ones are too old. -/
  forgotten : ∃ gone, log = gone ++ recent ∧ ∀ before e after, gone = before ++ e :: after →
    after.length + recent.length < cap → width < now - e.2
  length_le : recent.length ≤ cap
  sorted : log.Pairwise fun e f => e.2 ≤ f.2
  past : ∀ e ∈ log, e.2 ≤ now
  keys : (recent.map Prod.fst).Nodup

variable {cap width now now' : ℕ} {log recent : List (κ × ℕ)} {k : κ}

theorem Window.empty (cap width now : ℕ) : Window (κ := κ) cap width now [] [] where
  forgotten := ⟨[], rfl, by simp⟩
  length_le := Nat.zero_le _
  sorted := .nil
  past := by simp
  keys := .nil

theorem Window.sorted_recent (h : Window cap width now log recent) :
    recent.Pairwise fun e f => e.2 ≤ f.2 := by
  obtain ⟨gone, hlog, _⟩ := h.forgotten
  have hsorted := h.sorted
  rw [hlog] at hsorted
  exact (List.pairwise_append.mp hsorted).2.1

/-- Once the first entry is not too old, none is. -/
theorem le_width_of_mem_dropWhile (sorted : recent.Pairwise fun e f => e.2 ≤ f.2) {e : κ × ℕ}
    (he : e ∈ recent.dropWhile fun e => width < now - e.2) : now - e.2 ≤ width := by
  induction recent with
  | nil => cases he
  | cons f recent ih =>
    rw [List.pairwise_cons] at sorted
    by_cases hold : width < now - f.2
    · rw [List.dropWhile_cons_of_pos (by simpa using hold)] at he
      exact ih sorted.2 he
    · rw [List.dropWhile_cons_of_neg (by simpa using hold)] at he
      rcases List.mem_cons.mp he with rfl | he
      · omega
      · have := sorted.1 e he
        omega

theorem Window.later (h : Window cap width now log recent) (hnow : now ≤ now') :
    Window cap width now' log recent := by
  obtain ⟨gone, hlog, hgone⟩ := h.forgotten
  refine ⟨⟨gone, hlog, ?_⟩, h.length_le, h.sorted, fun e he => (h.past e he).trans hnow, h.keys⟩
  intro before e after heq hlen
  have := hgone before e after heq hlen
  omega

/-- What has become too old is forgotten. -/
theorem Window.expire (h : Window cap width now log recent) :
    Window cap width now log (recent.dropWhile fun e => width < now - e.2) := by
  obtain ⟨gone, hlog, hgone⟩ := h.forgotten
  have hsplit := List.takeWhile_append_dropWhile (p := fun e => decide (width < now - e.2))
    (l := recent)
  have hold : ∀ e ∈ recent.takeWhile fun e => width < now - e.2, width < now - e.2 := by
    intro e he
    simpa using List.mem_takeWhile_imp he
  refine ⟨⟨gone ++ recent.takeWhile fun e => width < now - e.2, ?_, ?_⟩, ?_, h.sorted, h.past, ?_⟩
  · rw [List.append_assoc, hsplit]
    exact hlog
  · intro before e after heq hlen
    rcases List.append_eq_append_iff.mp heq with ⟨mid, rfl, htake⟩ | ⟨mid, rfl, hafter⟩
    · exact hold e (by simp [htake])
    · cases mid with
      | nil =>
        rw [List.nil_append] at hafter
        exact hold e (by simp [← hafter])
      | cons f mid =>
        -- the entry was forgotten before
        rw [List.cons_append, List.cons.injEq] at hafter
        obtain ⟨rfl, rfl⟩ := hafter
        refine hgone before _ mid rfl ?_
        have hsum := congrArg List.length hsplit
        rw [List.length_append] at hsum
        rw [List.length_append] at hlen
        omega
  · exact (List.dropWhile_suffix _).length_le.trans h.length_le
  · exact h.keys.sublist ((List.dropWhile_suffix _).sublist.map _)

/-- A new entry is appended to the log, and the window forgets its oldest entry
where it is full. -/
theorem Window.push (h : Window cap width now log recent) (hcap : 0 < cap)
    (new : k ∉ recent.map Prod.fst) :
    Window cap width now (log ++ [(k, now)])
      ((recent ++ [(k, now)]).drop ((recent ++ [(k, now)]).length - cap)) := by
  obtain ⟨gone, hlog, hgone⟩ := h.forgotten
  have hkeys : ((recent ++ [(k, now)]).map Prod.fst).Nodup := by
    rw [List.map_append, List.nodup_append]
    refine ⟨h.keys, by simp, ?_⟩
    rintro _ hk _ hk' rfl
    simp only [List.map_cons, List.map_nil, List.mem_singleton] at hk'
    exact new (hk' ▸ hk)
  refine ⟨?_, ?_, ?_, ?_, hkeys.sublist ((List.drop_sublist _ _).map _)⟩
  · have hlen : (recent ++ [(k, now)]).length = recent.length + 1 := by simp
    rcases Nat.lt_or_ge recent.length cap with hroom | hfull
    · refine ⟨gone, ?_, ?_⟩
      · rw [hlen, Nat.sub_eq_zero_of_le (by omega), List.drop_zero, hlog, List.append_assoc]
      · intro before e after heq hlt
        refine hgone before e after heq ?_
        rw [List.length_drop, hlen] at hlt
        omega
    · -- one entry too many
      have hcap' : recent.length = cap := Nat.le_antisymm h.length_le hfull
      refine ⟨gone ++ recent.take 1, ?_, ?_⟩
      · have hone : recent.length + 1 - cap = 1 := by omega
        rw [hlen, hone, List.drop_append_of_le_length (by omega), List.append_assoc,
          ← List.append_assoc (recent.take 1), List.take_append_drop, hlog, List.append_assoc]
      · intro before e after _ hlt
        rw [List.length_drop, hlen] at hlt
        omega
  · rw [List.length_drop]
    omega
  · rw [List.pairwise_append]
    refine ⟨h.sorted, List.pairwise_singleton _ _, ?_⟩
    intro e he f hf
    rw [List.mem_singleton.mp hf]
    exact h.past e he
  · intro e he
    rcases List.mem_append.mp he with he | he
    · exact h.past e he
    · rw [List.mem_singleton.mp he]

/-- A key is in a window without old entries if one of the last `cap` entries of
the log has it and is not too old. -/
theorem Window.found_iff (h : Window cap width now log recent)
    (young : ∀ e ∈ recent, now - e.2 ≤ width) :
    k ∈ recent.map Prod.fst ↔ ∃ before t after, log = before ++ (k, t) :: after ∧
      after.length < cap ∧ now - t ≤ width := by
  obtain ⟨gone, hlog, hgone⟩ := h.forgotten
  refine ⟨?_, ?_⟩
  · intro hk
    obtain ⟨⟨_, t⟩, he, rfl⟩ := List.mem_map.mp hk
    obtain ⟨before, after, hsplit⟩ := List.append_of_mem he
    refine ⟨gone ++ before, t, after, ?_, ?_, young _ he⟩
    · rw [hlog, hsplit, List.append_assoc]
    · have hlen := h.length_le
      rw [hsplit, List.length_append, List.length_cons] at hlen
      omega
  · rintro ⟨before, t, after, heq, hlen, hyoung⟩
    rw [hlog] at heq
    rcases List.append_eq_append_iff.mp heq with ⟨mid, rfl, hrecent⟩ | ⟨mid, hgone', hafter⟩
    · exact List.mem_map.mpr ⟨(k, t), by simp [hrecent], rfl⟩
    · cases mid with
      | nil =>
        rw [List.nil_append] at hafter
        exact List.mem_map.mpr ⟨(k, t), by simp [← hafter], rfl⟩
      | cons f mid =>
        obtain ⟨rfl, rfl⟩ := List.cons.inj hafter
        have := hgone before _ mid hgone' (by simpa using hlen)
        omega

end RecentWindow
