import MediumOverlay.Lib.Handles

/-!
# The sockets of the iOS app

`ForegroundUdpSession.connect` opens a socket, and from then on knows it by its descriptor
number.  The number is closed at several places: in the `catch` of `connect`, in `close`,
and in `deinit`, which calls `close`.  None of them knows of the others.

* If the handshake fails, the session is deallocated on the way to the `catch`, so both
  close the number.
* A session that was closed is deallocated later, and closes the number again.
* If the timeout cannot be set, nothing closes it.

Once closed, the number may be given to the next socket.  Connects run in parallel, so the
second close, and the packet that `close` sends before it, may go to the socket of another
session (`descriptors_owned_iff`).
-/

namespace MediumOverlay

open Trace Handles

namespace Apple

/-- Where a call of `connect` is, and then its session. -/
inductive Phase where
  | idle
  /-- `connect` has thrown before there was a socket. -/
  | failed
  /-- `socket` has returned, for a relay candidate or another. -/
  | opened (relay : Bool)
  /-- In `resolvePeer`. -/
  | resolving
  /-- In `sendSessionHello`. -/
  | hello
  /-- `connect` has returned the session.  So many calls of `close` have sent their packet
  and are about to close the number. -/
  | live (closing : Nat)
  /-- In `deinit`, before `close` has sent its packet, and behind that.  The handshake has
  failed, or the session was released. -/
  | deinit (thrown : Bool)
  | deinitSent (thrown : Bool)
  /-- In the `catch` of `connect`. -/
  | catching
  | gone
deriving DecidableEq

inductive Act where
  | connectFails
  | socket (relay : Bool)
  | setTimeout
  | setTimeoutFails
  /-- A packet of `resolvePeer` or `sendPunchBurst`. -/
  | sendRaw
  | resolved
  | resolveFails
  | sendHello
  | helloAcked
  | helloFails
  /-- A packet of `write` or `read`. -/
  | sendPacket
  | closeSends
  | closeCloses
  | released
  | deinitSends
  | deinitCloses
  | catchCloses
deriving DecidableEq

def next : Phase → Act → Option Phase
  | .idle, .connectFails => some .failed
  | .idle, .socket relay => some (.opened relay)
  | .opened relay, .setTimeout => some (if relay then .resolving else .hello)
  | .opened _, .setTimeoutFails => some .gone
  | .resolving, .sendRaw => some .resolving
  | .resolving, .resolved => some .hello
  | .resolving, .resolveFails => some .catching
  | .hello, .sendHello => some .hello
  | .hello, .helloAcked => some (.live 0)
  -- the session is released before the `catch`
  | .hello, .helloFails => some (.deinit true)
  | .live closing, .sendPacket => some (.live closing)
  | .live closing, .closeSends => some (.live (closing + 1))
  | .live (closing + 1), .closeCloses => some (.live closing)
  -- a call of a method keeps the session
  | .live 0, .released => some (.deinit false)
  | .deinit thrown, .deinitSends => some (.deinitSent thrown)
  | .deinitSent thrown, .deinitCloses => some (if thrown then .catching else .gone)
  | .catching, .catchCloses => some .gone
  | _, _ => none

/-- What is done with the number. -/
def Act.op : Act → Option Op
  | .socket _ => some .acquire
  | .sendRaw | .sendHello | .sendPacket | .closeSends | .deinitSends => some .use
  | .closeCloses | .deinitCloses | .catchCloses => some .release
  | _ => none

/-- All calls of `connect` with their sessions, and the descriptors. -/
structure Sessions where
  phase : Nat → Phase
  descriptors : Handles.State

namespace Sessions

def init : Sessions := ⟨fun _ => .idle, .init⟩

/-- An act of a session, with the numbers that the sessions get. -/
def step (number : Nat → Nat) (x : Sessions) (e : Nat × Act) : Option Sessions :=
  (next (x.phase e.1) e.2).bind fun phase =>
    let phases := Function.update x.phase e.1 phase
    match e.2.op with
    | none => some ⟨phases, x.descriptors⟩
    | some op => (x.descriptors.step number (e.1, op)).map fun d => ⟨phases, d⟩

end Sessions

/-- The same without the descriptors. -/
def stepPhase (phases : Nat → Phase) (e : Nat × Act) : Option (Nat → Phase) :=
  (next (phases e.1) e.2).map (Function.update phases e.1)

/-- The operations on descriptors of a schedule. -/
def ops (es : List (Nat × Act)) : List (Nat × Op) :=
  es.filterMap fun e => e.2.op.map fun op => (e.1, op)

theorem ops_append (es fs : List (Nat × Act)) : ops (es ++ fs) = ops es ++ ops fs :=
  List.filterMap_append

theorem ops_singleton (e : Nat × Act) : ops [e] = (e.2.op.map fun op => (e.1, op)).toList := by
  obtain ⟨i, act⟩ := e
  cases act <;> rfl

theorem ops_cons (e : Nat × Act) (es : List (Nat × Act)) :
    ops (e :: es) = (e.2.op.map fun op => (e.1, op)).toList ++ ops es := by
  rw [← List.singleton_append, ops_append, ops_singleton]

variable {es : List (Nat × Act)}

/-- The phases run on their own, and so do the descriptors. -/
theorem exec_eq_some_iff {number : Nat → Nat} {x y : Sessions} :
    exec (Sessions.step number) x es = some y ↔
      exec stepPhase x.phase es = some y.phase ∧
        exec (Handles.State.step number) x.descriptors (ops es) = some y.descriptors := by
  induction es generalizing x with
  | nil =>
    obtain ⟨phase, descriptors⟩ := x
    obtain ⟨phase', descriptors'⟩ := y
    simp [exec, ops]
  | cons e es ih =>
    rw [exec_cons, exec_cons, ops_cons, Sessions.step, stepPhase]
    cases next (x.phase e.1) e.2 with
    | none => simp
    | some phase =>
      cases e.2.op with
      | none => exact ih
      | some op =>
        dsimp only [Option.map_some, Option.toList_some, Option.bind_some]
        rw [List.singleton_append, exec_cons]
        cases x.descriptors.step number (e.1, op) with
        | none => simp
        | some descriptors => exact ih

/-! ## The operations of a session -/

def Phase.hasSocket : Phase → Bool
  | .idle | .failed => false
  | _ => true

/-- A session opens a socket first, and once. -/
theorem next_hasSocket {p q : Phase} {act : Act} (h : next p act = some q) :
    match act.op with
    | none => q.hasSocket = p.hasSocket
    | some op => q.hasSocket = true ∧ (op = .acquire ↔ p.hasSocket = false) := by
  unfold next at h
  split at h
  all_goals cases h
  case h_3 relay => cases relay <;> rfl
  case h_16 thrown => cases thrown <;> simp [Act.op, Phase.hasSocket]
  all_goals simp [Act.op, Phase.hasSocket]

/-- The timeline has the sockets of the sessions. -/
def Tracks (phases : Nat → Phase) (t : Timeline) : Prop :=
  ∀ i, t i = .none ↔ (phases i).hasSocket = false

variable {phases : Nat → Phase}

theorem Tracks.update {t u : Timeline} {i : Nat} {phase : Phase} (ht : Tracks phases t)
    (hi : u i = .none ↔ phase.hasSocket = false) (hu : ∀ k, k ≠ i → (u k = .none ↔ t k = .none)) :
    Tracks (Function.update phases i phase) u := by
  intro k
  by_cases hk : k = i
  · rw [hk, Function.update_self]
    exact hi
  · rw [Function.update_of_ne hk, hu k hk]
    exact ht k

theorem exists_timeline {phases' : Nat → Phase} {t : Timeline} (ht : Tracks phases t)
    (h : exec stepPhase phases es = some phases') :
    ∃ u, exec Timeline.step t (ops es) = some u := by
  induction es generalizing phases t with
  | nil => exact ⟨t, rfl⟩
  | cons e es ih =>
    obtain ⟨i, act⟩ := e
    obtain ⟨phases₁, hstep, hrest⟩ := exec_cons_eq_some.mp h
    obtain ⟨phase, hnext, rfl⟩ := Option.map_eq_some_iff.mp hstep
    have hsocket := next_hasSocket hnext
    rw [ops_cons]
    cases hop : act.op with
    | none =>
      rw [hop] at hsocket
      refine ih (ht.update ?_ fun _ _ => Iff.rfl) hrest
      rw [ht i, hsocket]
    | some op =>
      rw [hop] at hsocket
      obtain ⟨hphase, hacquire⟩ := hsocket
      obtain ⟨u, hu⟩ := Timeline.exists_step (hacquire.trans (ht i).symm)
      have hnone := Timeline.step_eq_none_iff hu
      have htracks : Tracks (Function.update phases i phase) u := by
        refine ht.update ?_ fun k hk => by simp [hnone, hk]
        rw [hnone, hphase, ht i, ← hacquire]
        simp
      obtain ⟨v, hv⟩ := ih htracks hrest
      exact ⟨v, exec_cons_eq_some.mpr ⟨u, hu, hv⟩⟩

/-! ## The closes of a session -/

/-- How often the number was closed, how often `close` was called, and if setting the
timeout and the handshake have failed, by phase. -/
def Account (closed called timeout hello : Nat) : Phase → Prop
  | .idle | .failed | .opened _ | .resolving | .hello =>
    closed = 0 ∧ called = 0 ∧ timeout = 0 ∧ hello = 0
  | .live closing => closed + closing = called ∧ timeout = 0 ∧ hello = 0
  | .deinit thrown | .deinitSent thrown =>
    closed = called ∧ timeout = 0 ∧ hello = thrown.toNat ∧ (thrown = true → called = 0)
  | .catching => closed = hello ∧ called = 0 ∧ timeout = 0
  | .gone => timeout = 1 ∧ closed = 0 ∨ timeout = 0 ∧ closed = called + hello + 1

theorem Account.next {closed called timeout hello : Nat} {p q : Phase} {act : Act}
    (h : Account closed called timeout hello p) (hq : next p act = some q) :
    Account (closed + if act.op = some .release then 1 else 0)
      (called + if act = .closeSends then 1 else 0)
      (timeout + if act = .setTimeoutFails then 1 else 0)
      (hello + if act = .helloFails then 1 else 0) q := by
  unfold Apple.next at hq
  split at hq
  all_goals cases hq
  case h_3 relay => cases relay <;> simpa [Account, Act.op] using h
  case h_16 thrown =>
    cases thrown <;> simp [Account, Act.op] at h ⊢ <;> omega
  all_goals
    simp [Account, Act.op] at h ⊢
    try omega

/-- The account of a session over a schedule. -/
theorem account_exec (i : Nat) (h : exec stepPhase (fun _ => .idle) es = some phases) :
    Account ((ops es).count (i, .release)) (es.count (i, .closeSends))
      (es.count (i, .setTimeoutFails)) (es.count (i, .helloFails)) (phases i) := by
  induction es using List.reverseRecOn generalizing phases with
  | nil =>
    cases h
    exact ⟨rfl, rfl, rfl, rfl⟩
  | append_singleton es e ih =>
    obtain ⟨k, act⟩ := e
    obtain ⟨before, hbefore, hstep⟩ := exec_append_eq_some.mp h
    obtain ⟨_, hstep, hlast⟩ := exec_cons_eq_some.mp hstep
    cases hlast
    obtain ⟨phase, hnext, rfl⟩ := Option.map_eq_some_iff.mp hstep
    have haccount := ih hbefore
    rw [ops_append, ops_singleton]
    simp only [List.count_append, List.count_singleton]
    by_cases hk : k = i
    · subst hk
      have hrelease : (act.op.map fun op => (k, op)).toList.count (k, .release)
          = if act.op = some .release then 1 else 0 := by
        cases act.op with
        | none => rfl
        | some op => simp [List.count_singleton]
      rw [hrelease, Function.update_self]
      simpa using haccount.next hnext
    · have hrelease : (act.op.map fun op => (k, op)).toList.count (i, .release) = 0 := by
        rw [List.count_eq_zero]
        simp [hk]
      rw [hrelease, Function.update_of_ne (Ne.symm hk)]
      simpa [hk] using haccount

/-- Neither the timeout nor the handshake of the session has failed, and `close` was not
called. -/
structure Tidy (i : Nat) (es : List (Nat × Act)) : Prop where
  timeout : (i, .setTimeoutFails) ∉ es
  hello : (i, .helloFails) ∉ es
  close : (i, .closeSends) ∉ es

theorem tidy_iff {i : Nat} (h : exec stepPhase (fun _ => .idle) es = some phases)
    (hi : phases i = .gone) : (ops es).count (i, .release) = 1 ↔ Tidy i es := by
  have haccount := account_exec i h
  rw [hi, Account] at haccount
  constructor
  · intro hone
    refine ⟨?_, ?_, ?_⟩ <;> rw [← List.count_eq_zero] <;> omega
  · rintro ⟨htimeout, hhello, hclose⟩
    rw [← List.count_eq_zero] at htimeout hhello hclose
    omega

/-- For every way to give out descriptor numbers, each socket whose session is gone was
closed exactly once, by one call, and no session has sent on or closed the number of
another's socket: exactly if no such session has failed to set its timeout, failed in the
handshake or was closed before it was deallocated, and no session acts on its number behind
a close while there is another socket that was opened since. -/
theorem descriptors_owned_iff (es : List (Nat × Act)) (phases : Nat → Phase)
    (h : exec stepPhase (fun _ => .idle) es = some phases) :
    (∀ number x, exec (Sessions.step number) .init es = some x →
      (∀ i, phases i = .gone →
        releases i x.descriptors.log = 1 ∧ closings i x.descriptors.log = 1) ∧
      Own x.descriptors.log) ↔
    (∀ i, phases i = .gone → Tidy i es) ∧
      Meets Timeline.step Timeline.Clear .init (ops es) := by
  obtain ⟨t, ht⟩ := exists_timeline (t := .init) (fun _ => iff_of_true rfl rfl) h
  have hcount : ∀ number x, exec (Handles.State.step number) .init (ops es) = some x →
      ∀ i, releases i x.log = (ops es).count (i, .release) :=
    fun number x hx i => (releases_exec hx i).trans (Nat.zero_add _)
  constructor
  · intro hall
    have hrun : ∀ number x, exec (Handles.State.step number) .init (ops es) = some x →
        exec (Sessions.step number) .init es = some ⟨phases, x⟩ :=
      fun number x hx => exec_eq_some_iff.mpr ⟨h, hx⟩
    refine ⟨fun i hi => ?_, (safe_iff ht).mp fun number x hx => (hall _ _ (hrun number x hx)).2⟩
    -- If no number is used again, the schedule runs.
    obtain ⟨x, hx, -⟩ := exec_of_apart (Agrees.init id).sound (fun _ _ hij hne => absurd hij hne) ht
    have hone := ((hall id _ (hrun id x hx)).1 i hi).1
    rw [hcount id x hx i] at hone
    exact (tidy_iff h hi).mp hone
  · rintro ⟨htidy, hclear⟩ number x hx
    obtain ⟨-, hx⟩ := exec_eq_some_iff.mp hx
    have hagrees := agrees_exec ht hclear hx
    refine ⟨fun i hi => ?_, hagrees.own⟩
    have hone := (tidy_iff h hi).mpr (htidy i hi)
    have hmem : (i, .release) ∈ ops es := List.count_pos_iff.mp (by omega)
    refine ⟨(hcount number _ hx i).trans hone, ?_⟩
    rw [hagrees.closings i, Timeline.isReleased_exec ht (.inr hmem)]
    rfl

/-! ### Two sessions -/

/-- A session that is deallocated without a call of `close`. -/
def oneSession : List (Nat × Act) :=
  [(0, .socket false), (0, .setTimeout), (0, .sendHello), (0, .helloAcked), (0, .sendPacket),
    (0, .released), (0, .deinitSends), (0, .deinitCloses)]

theorem descriptors_owned_iff_one :
    ∃ x, exec (Sessions.step fun _ => 5) .init oneSession = some x ∧
      releases 0 x.descriptors.log = 1 ∧ closings 0 x.descriptors.log = 1 ∧
        Own x.descriptors.log := by
  refine ⟨_, rfl, ?_⟩
  obtain ⟨hclosed, hown⟩ := (descriptors_owned_iff oneSession _ rfl).mpr
    ⟨fun i _ => ⟨by simp [oneSession], by simp [oneSession], by simp [oneSession]⟩,
      by decide⟩ (fun _ => 5) _ rfl
  exact ⟨(hclosed 0 (by decide)).1, (hclosed 0 (by decide)).2, hown⟩

/-- The handshake of one session fails while another is connecting. -/
def twoSessions : List (Nat × Act) :=
  [(0, .socket false), (0, .setTimeout), (0, .sendHello), (0, .helloFails), (0, .deinitSends),
    (0, .deinitCloses), (1, .socket false), (0, .catchCloses), (1, .setTimeout), (1, .sendHello)]

/-- The second socket gets the number of the first, and the `catch` closes it. -/
theorem catch_closes_other_socket :
    ∃ x, exec (Sessions.step fun _ => 5) .init twoSessions = some x ∧
      x.descriptors.log = [⟨0, .use, some 0⟩, ⟨0, .use, some 0⟩, ⟨0, .release, some 0⟩,
        ⟨0, .release, some 1⟩, ⟨1, .use, none⟩] ∧
      releases 0 x.descriptors.log = 2 ∧ ¬ Own x.descriptors.log := by
  refine ⟨_, rfl, rfl, rfl, fun h => ?_⟩
  exact absurd (h ⟨0, .release, some 1⟩ (by decide) 1 rfl) (by decide)

end Apple

end MediumOverlay
