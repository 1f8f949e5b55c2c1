import MediumOverlay.Lib.Http
import MediumOverlay.Transport.Packet

/-!
# The end of a header

An HTTP message is searched for the empty line behind its header.  The first one is the end
of the header (`headerEnd_intercalate`), and in a part of a message it is found as soon as
the part has all of the header (`headerEnd_append`).
-/

namespace MediumOverlay

open Http

/-- The first `\r\n\r\n`. -/
def headerEnd : Bytes → Option Nat
  | [] => none
  | b :: rest =>
    if [13, 10, 13, 10] <+: b :: rest then some 0 else (headerEnd rest).map (· + 1)

variable {data : Bytes} {k : Nat}

theorem headerEnd_le (h : headerEnd data = some k) : k + 4 ≤ data.length := by
  induction data generalizing k with
  | nil => cases h
  | cons b rest ih =>
    rw [headerEnd] at h
    split at h
    next hstart =>
      cases h
      exact hstart.length_le
    next =>
      obtain ⟨k, hk, rfl⟩ := Option.map_eq_some_iff.mp h
      have hle := ih hk
      rw [List.length_cons]
      omega

/-- The header has its end as soon as it is there in full. -/
theorem headerEnd_append {rest : Bytes} (h : headerEnd (data ++ rest) = some k) :
    headerEnd data = if k + 4 ≤ data.length then some k else none := by
  induction data generalizing k with
  | nil => rfl
  | cons b data ih =>
    rw [List.cons_append, headerEnd] at h
    rw [headerEnd, List.length_cons]
    split at h
    next hstart =>
      cases h
      by_cases hlength : 4 ≤ data.length + 1
      · rw [if_pos, if_pos (by omega)]
        exact List.prefix_of_prefix_length_le hstart (List.prefix_append (b :: data) rest)
          (by simpa using hlength)
      · rw [if_neg (fun hshort => hlength hshort.length_le), if_neg (by omega)]
        cases hend : headerEnd data with
        | none => rfl
        | some j =>
          have hle := headerEnd_le hend
          omega
    next hstart =>
      obtain ⟨k, hk, rfl⟩ := Option.map_eq_some_iff.mp h
      have hnot : ¬ [13, 10, 13, 10] <+: b :: data :=
        fun hshort => hstart (hshort.trans (List.prefix_append (b :: data) rest))
      rw [if_neg hnot, ih hk]
      by_cases hlength : k + 4 ≤ data.length
      · rw [if_pos hlength, if_pos (by omega)]
        rfl
      · rw [if_neg hlength, if_neg (by omega)]
        rfl

/-- It stays where it is when more bytes arrive. -/
theorem headerEnd_of_append (h : headerEnd data = some k) (rest : Bytes) :
    headerEnd (data ++ rest) = some k := by
  induction data generalizing k with
  | nil => cases h
  | cons b data ih =>
    rw [headerEnd] at h
    rw [List.cons_append, headerEnd]
    split at h
    next hstart =>
      cases h
      exact if_pos (hstart.trans (List.prefix_append (b :: data) rest))
    next hstart =>
      obtain ⟨k, hk, rfl⟩ := Option.map_eq_some_iff.mp h
      have hlong : 4 ≤ (b :: data).length := by
        have hle := headerEnd_le hk
        rw [List.length_cons]
        omega
      have hnot : ¬ [13, 10, 13, 10] <+: b :: (data ++ rest) := fun hlonger =>
        hstart (List.prefix_of_prefix_length_le hlonger (List.prefix_append (b :: data) rest)
          hlong)
      rw [if_neg hnot, ih hk]
      rfl

/-- Bytes that do not start a line end. -/
theorem headerEnd_skip {part : Bytes} (h : ∀ b ∈ part, b ≠ 13) (rest : Bytes) :
    headerEnd (part ++ rest) = (headerEnd rest).map (· + part.length) := by
  induction part with
  | nil => simp
  | cons b part ih =>
    obtain ⟨hb, hpart⟩ := List.forall_mem_cons.mp h
    have hnot : ¬ [13, 10, 13, 10] <+: b :: (part ++ rest) :=
      fun hstart => hb (List.cons_prefix_cons.mp hstart).1.symm
    rw [List.cons_append, headerEnd, if_neg hnot, ih hpart, Option.map_map]
    rfl

theorem headerEnd_line {line : Bytes} (h : ∀ b ∈ line, b ≠ 13 ∧ b ≠ 10) (rest : Bytes) :
    headerEnd (line ++ rest) = (headerEnd rest).map (· + line.length) :=
  headerEnd_skip (fun b hb => (h b hb).1) rest

/-- A line end in front of a line. -/
theorem headerEnd_crlf {b : UInt8} (h : b ≠ 13) (rest : Bytes) :
    headerEnd (13 :: 10 :: b :: rest) = (headerEnd (b :: rest)).map (· + 2) := by
  have hfirst : ¬ [13, 10, 13, 10] <+: 13 :: 10 :: b :: rest := by
    intro hstart
    obtain ⟨-, hstart⟩ := List.cons_prefix_cons.mp hstart
    obtain ⟨-, hstart⟩ := List.cons_prefix_cons.mp hstart
    exact h (List.cons_prefix_cons.mp hstart).1.symm
  have hsecond : ¬ [13, 10, 13, 10] <+: 10 :: b :: rest :=
    fun hstart => absurd (List.cons_prefix_cons.mp hstart).1 (by decide)
  rw [headerEnd, if_neg hfirst, headerEnd, if_neg hsecond, Option.map_map]
  rfl

/-- The header ends at the first empty line. -/
theorem headerEnd_intercalate {lines : List Bytes} (hne : lines ≠ [])
    (hlines : ∀ line ∈ lines, IsLine line) (rest : Bytes) :
    headerEnd (CRLF.intercalate lines ++ 13 :: 10 :: 13 :: 10 :: rest)
      = some (CRLF.intercalate lines).length := by
  induction lines with
  | nil => exact absurd rfl hne
  | cons line lines ih =>
    obtain ⟨hline, hlines⟩ := List.forall_mem_cons.mp hlines
    match lines with
    | [] =>
      have hone : CRLF.intercalate [line] = line := by simp [List.intercalate]
      rw [hone, headerEnd_line hline.2, headerEnd, if_pos (by simp)]
      simp
    | next :: lines =>
      have hrest := ih (by simp) hlines
      obtain ⟨b, tail, rfl⟩ := List.exists_cons_of_ne_nil (hlines next (by simp)).1
      have hb : b ≠ 13 := ((hlines (b :: tail) (by simp)).2 b (by simp)).1
      obtain ⟨text, htext⟩ :
          ∃ text, CRLF.intercalate ((b :: tail) :: lines) = b :: text := by
        cases lines with
        | nil => exact ⟨tail, by simp [List.intercalate]⟩
        | cons _ _ => exact ⟨_, by rw [intercalate_cons_cons, List.cons_append]⟩
      rw [intercalate_cons_cons, List.append_assoc, headerEnd_line hline.2, htext,
        List.cons_append, List.cons_append, List.cons_append, headerEnd_crlf hb,
        ← List.cons_append, ← htext, hrest]
      simp
      omega

end MediumOverlay
