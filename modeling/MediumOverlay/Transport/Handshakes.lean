import MediumOverlay.Lib.RecentWindow
import MediumOverlay.Transport.Listener

/-!
# Recent handshakes

A client repeats its `Hello` until it is acknowledged, and the listener asks
`is_duplicate_handshake` whether it has seen a handshake before.  The history the
function keeps is pruned at both ends of a call: by age before the search, and to
256 entries after an insertion.

The calls that were answered with `false` are a log, and the history is a window
over it.  So `isDuplicate_iff` can say in terms of the earlier answers alone what
a call answers.
-/

namespace MediumOverlay

open RecentWindow

/-- A call of `is_duplicate_handshake`: the key and the time. -/
abbrev HandshakeCall : Type := SessionHandshakeKey × Nat

namespace HandshakeCall

/-- The history after a sequence of calls. -/
def history (recent : List HandshakeCall) (calls : List HandshakeCall) : List HandshakeCall :=
  calls.foldl (fun recent call => (isDuplicateHandshake recent call.1 call.2).2) recent

/-- The calls of a sequence that are answered with `false`. -/
def fresh : List HandshakeCall → List HandshakeCall → List HandshakeCall
  | _, [] => []
  | recent, (key, now) :: calls =>
    let (duplicate, recent) := isDuplicateHandshake recent key now
    if duplicate then fresh recent calls else (key, now) :: fresh recent calls

/-- The answer to one more call after a sequence of calls. -/
def answer (calls : List HandshakeCall) (call : HandshakeCall) : Bool :=
  (isDuplicateHandshake (history [] calls) call.1 call.2).1

variable {recent calls : List HandshakeCall} {call : HandshakeCall} {key : SessionHandshakeKey}
  {now : Nat}

theorem history_append (recent calls calls' : List HandshakeCall) :
    history recent (calls ++ calls') = history (history recent calls) calls' :=
  List.foldl_append

theorem fresh_append (recent calls calls' : List HandshakeCall) :
    fresh recent (calls ++ calls') = fresh recent calls ++ fresh (history recent calls) calls' := by
  induction calls generalizing recent with
  | nil => rfl
  | cons call calls ih =>
    simp only [List.cons_append, fresh, history, List.foldl_cons]
    split
    next => exact ih _
    next => rw [ih, List.cons_append]; rfl

theorem fresh_singleton (recent : List HandshakeCall) (call : HandshakeCall) :
    fresh recent [call] =
      if (isDuplicateHandshake recent call.1 call.2).1 then [] else [call] := by
  simp [fresh]

/-- A call that was answered with `false`, among the calls and among all those
that were. -/
theorem fresh_eq_append_iff {before after : List HandshakeCall} :
    fresh recent calls = before ++ call :: after ↔ ∃ calls₁ calls₂,
      calls = calls₁ ++ call :: calls₂ ∧ fresh recent calls₁ = before ∧
      (isDuplicateHandshake (history recent calls₁) call.1 call.2).1 = false ∧
      fresh (history recent (calls₁ ++ [call])) calls₂ = after := by
  refine ⟨?_, ?_⟩
  · intro h
    induction calls generalizing recent before with
    | nil => simp [fresh] at h
    | cons call' calls ih =>
      simp only [fresh] at h
      split at h
      next hdup =>
        obtain ⟨calls₁, calls₂, rfl, hbefore, hans, hafter⟩ := ih h
        exact ⟨call' :: calls₁, calls₂, rfl, by simp [fresh, hdup, hbefore], hans, hafter⟩
      next hnew =>
        cases before with
        | nil =>
          obtain ⟨rfl, rfl⟩ := List.cons.inj h
          exact ⟨[], calls, rfl, rfl, by simpa [history] using hnew, rfl⟩
        | cons call'' before =>
          obtain ⟨rfl, htail⟩ := List.cons.inj h
          obtain ⟨calls₁, calls₂, rfl, hbefore, hans, hafter⟩ := ih htail
          exact ⟨call' :: calls₁, calls₂, rfl, by simp [fresh, hnew, hbefore], hans, hafter⟩
  · rintro ⟨calls₁, calls₂, rfl, rfl, hans, rfl⟩
    rw [← List.singleton_append, ← List.append_assoc, fresh_append, fresh_append, fresh_singleton,
      hans, List.append_assoc]
    rfl

/-- The history as the function searches it. -/
def pruned (recent : List HandshakeCall) (now : Nat) : List HandshakeCall :=
  recent.dropWhile fun entry => DUPLICATE_HANDSHAKE_WINDOW < now - entry.2

theorem isDuplicateHandshake_eq (recent : List HandshakeCall) (key : SessionHandshakeKey)
    (now : Nat) : isDuplicateHandshake recent key now =
      if key ∈ (pruned recent now).map Prod.fst then (true, pruned recent now)
      else (false, (pruned recent now ++ [(key, now)]).drop
        ((pruned recent now ++ [(key, now)]).length - MAX_RECENT_HANDSHAKES)) := by
  have hany : ((pruned recent now).any fun entry => entry.1 = key) = true ↔
      key ∈ (pruned recent now).map Prod.fst := by simp
  simp only [isDuplicateHandshake, gt_iff_lt]
  exact if_congr hany rfl rfl

theorem isDuplicateHandshake_fst :
    (isDuplicateHandshake recent key now).1 = true ↔ key ∈ (pruned recent now).map Prod.fst := by
  rw [isDuplicateHandshake_eq]
  split
  next h => simp [h]
  next h => simp [h]

/-- The history, as a window over the calls of `log`. -/
abbrev IsWindow (now : Nat) (log recent : List HandshakeCall) : Prop :=
  Window MAX_RECENT_HANDSHAKES DUPLICATE_HANDSHAKE_WINDOW now log recent

/-- One call keeps the window. -/
theorem window_step {log : List HandshakeCall} (h : IsWindow now log recent) :
    IsWindow now (log ++ fresh recent [(key, now)]) (isDuplicateHandshake recent key now).2 := by
  have hpruned : IsWindow now log (pruned recent now) := h.expire
  rw [fresh_singleton, isDuplicateHandshake_eq]
  split
  next =>
    rw [if_pos rfl, List.append_nil]
    exact hpruned
  next hnew =>
    have hcap : 0 < MAX_RECENT_HANDSHAKES := by simp [MAX_RECENT_HANDSHAKES]
    have hpush := hpruned.push hcap hnew
    rw [if_neg Bool.false_ne_true]
    dsimp only
    exact hpush

/-- After calls with non-decreasing times the history is a window over the calls
that were answered with `false`. -/
theorem window_history (calls : List HandshakeCall) (now : Nat)
    (sorted : calls.Pairwise fun c c' => c.2 ≤ c'.2) (past : ∀ call ∈ calls, call.2 ≤ now) :
    IsWindow now (fresh [] calls) (history [] calls) := by
  induction calls using List.reverseRecOn generalizing now with
  | nil => exact Window.empty _ _ _
  | append_singleton calls call ih =>
    obtain ⟨hsorted, -, hlast⟩ := List.pairwise_append.mp sorted
    have hwindow := ih call.2 hsorted fun c hc => hlast c hc call (List.mem_singleton_self call)
    rw [fresh_append, history_append]
    exact (window_step hwindow).later (past call (by simp))

/-- **Duplicates.**  For calls with non-decreasing times, a call is answered with
`true` if an earlier call with its key was answered with `false`, at most 30 s
before and with at most 255 other `false` answers in between, and only then.  The
keys of the history are distinct, its times do not decrease, and it has at most 256
entries. -/
theorem isDuplicate_iff (calls : List HandshakeCall) (key : SessionHandshakeKey) (now : Nat)
    (sorted : (calls ++ [(key, now)]).Pairwise fun c c' => c.2 ≤ c'.2) :
    (answer calls (key, now) = true ↔ ∃ before t₀ after,
      calls = before ++ (key, t₀) :: after ∧ answer before (key, t₀) = false ∧
      now - t₀ ≤ DUPLICATE_HANDSHAKE_WINDOW ∧
      (fresh (history [] (before ++ [(key, t₀)])) after).length ≤ 255) ∧
    ((history [] calls).map Prod.fst).Nodup ∧
    (history [] calls).Pairwise (fun c c' => c.2 ≤ c'.2) ∧
    (history [] calls).length ≤ 256 := by
  obtain ⟨hsorted, -, hlast⟩ := List.pairwise_append.mp sorted
  have hwindow : IsWindow now (fresh [] calls) (history [] calls) :=
    window_history calls now hsorted fun c hc => hlast c hc (key, now) (by simp)
  have hyoung : ∀ c ∈ pruned (history [] calls) now, now - c.2 ≤ DUPLICATE_HANDSHAKE_WINDOW :=
    fun c hc => le_width_of_mem_dropWhile hwindow.sorted_recent hc
  refine ⟨?_, hwindow.keys, hwindow.sorted_recent, hwindow.length_le⟩
  have hpruned : IsWindow now (fresh [] calls) (pruned (history [] calls) now) := hwindow.expire
  rw [answer, isDuplicateHandshake_fst, hpruned.found_iff hyoung]
  refine ⟨?_, ?_⟩
  · rintro ⟨log₁, t₀, log₂, hlog, hlen, hage⟩
    obtain ⟨before, after, hcalls, -, hans, hafter⟩ := fresh_eq_append_iff.mp hlog
    refine ⟨before, t₀, after, hcalls, hans, hage, ?_⟩
    rw [hafter]
    exact Nat.le_of_lt_succ hlen
  · rintro ⟨before, t₀, after, hcalls, hans, hage, hlen⟩
    have hlog := fresh_eq_append_iff.mpr ⟨before, after, hcalls, rfl, hans, rfl⟩
    exact ⟨_, t₀, _, hlog, Nat.lt_succ_of_le hlen, hage⟩

/-! ### A `Hello` and its repetitions -/

/-- Two handshakes of one client. -/
def sampleKey (token : String) : SessionHandshakeKey := ⟨Listener.sampleClient, token, "svc_web"⟩

/-- A handshake at the start, another after a second, and the first again just
before it is forgotten.  The repetition is not remembered. -/
def repeatedCalls : List HandshakeCall :=
  [(sampleKey "a", 0), (sampleKey "b", 1000000000), (sampleKey "a", 30000000000)]

theorem isDuplicate_iff_repeated :
    answer (repeatedCalls.take 2) (sampleKey "a", 30000000000) = true ∧
      answer repeatedCalls (sampleKey "a", 30000000001) = false ∧
      ¬ ∃ before t₀ after, repeatedCalls = before ++ (sampleKey "a", t₀) :: after ∧
        answer before (sampleKey "a", t₀) = false ∧
        30000000001 - t₀ ≤ DUPLICATE_HANDSHAKE_WINDOW ∧
        (fresh (history [] (before ++ [(sampleKey "a", t₀)])) after).length ≤ 255 := by
  have hlate : answer repeatedCalls (sampleKey "a", 30000000001) = false := by decide +kernel
  refine ⟨by decide +kernel, hlate, ?_⟩
  intro h
  have hiff := isDuplicate_iff repeatedCalls (sampleKey "a") 30000000001 (by decide +kernel)
  have hdup := hiff.1.mpr h
  rw [hlate] at hdup
  cases hdup

end HandshakeCall

end MediumOverlay
