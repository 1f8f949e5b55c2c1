import MediumOverlay.HomeNode.Bridge

/-!
# `copy_blocking` on a slow link

The loop alone, with any reader and any writer.  Both may report a timeout.  The loop
reads again after one of the reader, but `write_all` hands one of the writer on, and
the loop returns it (`copy_stall_iff`).

The writer of the bridge is a session stream.  It reports a timeout when the last of its
attempts got no acknowledgement in time, so a link that is slower than that ends the
loop, even if every packet arrives.  `UdpCopy` runs the loop on such a stream, step by
step, while a clone of the stream changes the shared state as it likes.
-/

namespace MediumOverlay

open Trace

/-! ## Any reader and writer -/

/-- The loop with all that it has read and written. -/
structure CopyRun where
  loop : Copy
  read : Bytes
  written : Bytes

/-- What the reader or the writer returns. -/
inductive CopyEvent where
  | read (result : Except IoError Bytes)
  | write (result : Except IoError Nat)
deriving DecidableEq

/-- The bytes in the buffer that are left to write. -/
def Copy.pending : Copy → Bytes
  | .write rest => rest
  | _ => []

namespace CopyRun

def init : CopyRun := ⟨.read, [], []⟩

/-- `read` fills no more than the buffer, and `write` takes no more than it is given. -/
def step (x : CopyRun) (e : CopyEvent) : Option CopyRun :=
  match x.loop, e with
  | .read, .read (.ok bytes) =>
    if bytes.length ≤ COPY_BUFFER_LEN then
      some { x with loop := .afterRead (.ok bytes), read := x.read ++ bytes }
    else none
  | .read, .read (.error error) => some { x with loop := .afterRead (.error error) }
  | .write rest, .write (.ok n) =>
    some { x with loop := .afterWrite rest (.ok n), written := x.written ++ rest.take n }
  | .write rest, .write (.error error) => some { x with loop := .afterWrite rest (.error error) }
  | _, _ => none

/-- The loop has returned an error. -/
def Failed (x : CopyRun) (error : IoError) : Prop := x.loop = .done (.error error)

/-- What the loop has written is what it has read, in order, and complete but for what is
left of the buffer.  It returns no error that only says to try again. -/
structure Faithful (x : CopyRun) : Prop where
  inOrder : x.written <+: x.read
  complete : (∀ error, ¬ x.Failed error) → x.written ++ x.loop.pending = x.read
  error : ∀ error, x.Failed error → error.isTimeout = false ∧ error.kind ≠ .interrupted

/-! ## Steps -/

variable {x y : CopyRun} {e : CopyEvent}

/-- What a step can do. -/
theorem step_cases (h : x.step e = some y) :
    (∃ bytes, e = .read (.ok bytes) ∧ x.loop = .read ∧
      y = ⟨.afterRead (.ok bytes), x.read ++ bytes, x.written⟩) ∨
    (∃ error, e = .read (.error error) ∧ x.loop = .read ∧
      y = ⟨.afterRead (.error error), x.read, x.written⟩) ∨
    (∃ rest n, e = .write (.ok n) ∧ x.loop = .write rest ∧
      y = ⟨.afterWrite rest (.ok n), x.read, x.written ++ rest.take n⟩) ∨
    ∃ rest error, e = .write (.error error) ∧ x.loop = .write rest ∧
      y = ⟨.afterWrite rest (.error error), x.read, x.written⟩ := by
  obtain ⟨loop, read, written⟩ := x
  unfold step at h
  split at h
  next bytes hloop =>
    split at h
    · cases h
      exact .inl ⟨bytes, rfl, hloop, rfl⟩
    · cases h
  next error hloop =>
    cases h
    exact .inr (.inl ⟨error, rfl, hloop, rfl⟩)
  next rest n hloop =>
    cases h
    exact .inr (.inr (.inl ⟨rest, n, rfl, hloop, rfl⟩))
  next rest error hloop =>
    cases h
    exact .inr (.inr (.inr ⟨rest, error, rfl, hloop, rfl⟩))
  next => cases h

theorem pending_afterRead (bytes : Bytes) : (Copy.afterRead (.ok bytes)).pending = bytes := by
  cases bytes <;> rfl

/-- An error of the reader is returned, or the loop reads again. -/
theorem afterRead_error (error : IoError) :
    Copy.afterRead (.error error) = .read ∨
      Copy.afterRead (.error error) = .done (.error error) ∧ error.isTimeout = false ∧
        error.kind ≠ .interrupted := by
  rw [Copy.afterRead]
  split
  next => exact .inl rfl
  next h =>
    rw [Bool.or_eq_true, decide_eq_true_eq, not_or, Bool.not_eq_true] at h
    exact .inr ⟨rfl, h⟩

/-- `write_all` goes on behind what was taken, unless that is nothing. -/
theorem afterWrite_ok (rest : Bytes) (n : Nat) :
    (Copy.afterWrite rest (.ok n)).pending = rest.drop n ∧
        (∀ error, Copy.afterWrite rest (.ok n) ≠ .done (.error error)) ∨
      n = 0 ∧ Copy.afterWrite rest (.ok n)
        = .done (.error ⟨.writeZero, "failed to write whole buffer"⟩) := by
  cases n with
  | zero => exact .inr ⟨rfl, rfl⟩
  | succ n =>
    refine .inl ?_
    rw [Copy.afterWrite.eq_2 rest (n + 1) n.succ_ne_zero]
    split
    next h => exact ⟨h.symm, fun error => by simp⟩
    next => exact ⟨rfl, fun error => by simp⟩

/-- An error of the writer is returned, or `write_all` tries again. -/
theorem afterWrite_error (rest : Bytes) (error : IoError) :
    Copy.afterWrite rest (.error error)
      = if error.kind = .interrupted then .write rest else .done (.error error) := rfl

/-! ## What is written -/

/-- Nothing is lost unless the loop has failed. -/
def Tracks (x : CopyRun) : Prop :=
  x.written ++ x.loop.pending = x.read ∨ ∃ error, x.Failed error ∧ x.written <+: x.read

theorem Tracks.inOrder (h : x.Tracks) : x.written <+: x.read := by
  obtain h | ⟨-, -, h⟩ := h
  · exact ⟨_, h⟩
  · exact h

/-- A loop that has not returned has lost nothing. -/
theorem Tracks.complete (h : x.Tracks) (hloop : ∀ error, ¬ x.Failed error) :
    x.written ++ x.loop.pending = x.read :=
  h.resolve_right fun ⟨error, hfailed, _⟩ => hloop error hfailed

theorem Tracks.step (hx : x.Tracks) (h : x.step e = some y) : y.Tracks := by
  have horder := hx.inOrder
  obtain ⟨bytes, -, hloop, rfl⟩ | ⟨error, -, hloop, rfl⟩ | ⟨rest, n, -, hloop, rfl⟩ |
    ⟨rest, error, -, hloop, rfl⟩ := step_cases h
  all_goals
    have hcomplete := hx.complete (by simp [Failed, hloop])
    rw [hloop] at hcomplete
    dsimp only [Copy.pending] at hcomplete
  · rw [List.append_nil] at hcomplete
    refine .inl ?_
    rw [pending_afterRead, hcomplete]
  · obtain hagain | ⟨hdone, -⟩ := afterRead_error error
    · refine .inl ?_
      dsimp only
      rw [hagain]
      exact hcomplete
    · exact .inr ⟨error, hdone, horder⟩
  · obtain ⟨hpending, -⟩ | ⟨rfl, hdone⟩ := afterWrite_ok rest n
    · refine .inl ?_
      dsimp only
      rw [hpending, List.append_assoc, List.take_append_drop]
      exact hcomplete
    · refine .inr ⟨_, hdone, ?_⟩
      rw [List.take_zero, List.append_nil]
      exact horder
  · by_cases hkind : error.kind = .interrupted
    · refine .inl ?_
      rw [afterWrite_error, if_pos hkind]
      exact hcomplete
    · refine .inr ⟨error, ?_, horder⟩
      rw [Failed, afterWrite_error, if_neg hkind]

variable {es : List CopyEvent}

theorem tracks_exec (h : exec step init es = some x) : x.Tracks :=
  exec_invariant_all (fun _ _ _ hs hstep => hs.step hstep) es init x (.inl rfl) h

/-! ## What is returned -/

/-- The writer reports a timeout. -/
def Stalls : CopyEvent → Prop
  | .write (.error error) => error.isTimeout = true
  | _ => False

/-- Behind a step the loop has returned what only says to try again, exactly if the writer
has reported a timeout. -/
theorem step_failed_iff (h : x.step e = some y) :
    (∃ error, y.Failed error ∧ ¬ (error.isTimeout = false ∧ error.kind ≠ .interrupted)) ↔
      Stalls e := by
  obtain ⟨bytes, rfl, -, rfl⟩ | ⟨error, rfl, -, rfl⟩ | ⟨rest, n, rfl, -, rfl⟩ |
    ⟨rest, error, rfl, -, rfl⟩ := step_cases h
  · refine iff_of_false ?_ id
    rintro ⟨error, hfailed, -⟩
    cases bytes <;> cases hfailed
  · refine iff_of_false ?_ id
    rintro ⟨error', hfailed, hsoft⟩
    obtain hagain | ⟨hdone, hhard⟩ := afterRead_error error
    · rw [Failed, hagain] at hfailed
      cases hfailed
    · rw [Failed, hdone] at hfailed
      cases hfailed
      exact hsoft hhard
  · refine iff_of_false ?_ id
    rintro ⟨error', hfailed, hsoft⟩
    obtain ⟨-, hnone⟩ | ⟨-, hdone⟩ := afterWrite_ok rest n
    · exact hnone error' hfailed
    · rw [Failed, hdone] at hfailed
      cases hfailed
      exact hsoft (by decide)
  · have htimeout : error.isTimeout = true → error.kind ≠ .interrupted := by
      intro htimeout hkind
      rw [IoError.isTimeout, hkind] at htimeout
      cases htimeout
    constructor
    · rintro ⟨error', hfailed, hsoft⟩
      rw [Failed, afterWrite_error] at hfailed
      split at hfailed
      next => cases hfailed
      next hkind =>
        cases hfailed
        by_contra hstall
        exact hsoft ⟨Bool.not_eq_true _ ▸ hstall, hkind⟩
    · intro hstall
      refine ⟨error, ?_, fun hhard => ?_⟩
      · rw [Failed, afterWrite_error, if_neg (htimeout hstall)]
      · exact Bool.false_ne_true (hhard.1.symm.trans hstall)

/-- Nothing happens behind the return. -/
theorem step_of_failed {error : IoError} (h : x.Failed error) (e : CopyEvent) :
    x.step e = none := by
  unfold step
  rw [h]

/-- The loop has returned what only says to try again, exactly if the writer reported a
timeout. -/
theorem exec_failed_iff (h : exec step init es = some x) :
    (∃ error, x.Failed error ∧ ¬ (error.isTimeout = false ∧ error.kind ≠ .interrupted)) ↔
      ∃ e ∈ es, Stalls e := by
  induction es using List.reverseRecOn generalizing x with
  | nil =>
    cases h
    refine iff_of_false ?_ (by simp)
    rintro ⟨error, hfailed, -⟩
    cases hfailed
  | append_singleton es e ih =>
    obtain ⟨y, hy, hstep⟩ := exec_append_eq_some.mp h
    obtain ⟨z, hstep, hz⟩ := exec_cons_eq_some.mp hstep
    cases hz
    -- The loop had not returned before the last event.
    have hbefore : ¬ ∃ e ∈ es, Stalls e := by
      rw [← ih hy]
      rintro ⟨error, hfailed, -⟩
      rw [step_of_failed hfailed] at hstep
      cases hstep
    rw [step_failed_iff hstep]
    constructor
    · exact fun hstall => ⟨e, by simp, hstall⟩
    · rintro ⟨e', he', hstall⟩
      obtain he' | he' := List.mem_append.mp he'
      · exact absurd ⟨e', he', hstall⟩ hbefore
      · rw [← List.mem_singleton.mp he']
        exact hstall

theorem faithful_iff (h : exec step init es = some x) : x.Faithful ↔ ∀ e ∈ es, ¬ Stalls e := by
  have htracks := tracks_exec h
  have hfailed := exec_failed_iff h
  constructor
  · intro hfaithful e he hstall
    obtain ⟨error, herror, hsoft⟩ := hfailed.mpr ⟨e, he, hstall⟩
    exact hsoft (hfaithful.error error herror)
  · intro hnone
    refine ⟨htracks.inOrder, htracks.complete, fun error herror => ?_⟩
    by_contra hsoft
    obtain ⟨e, he, hstall⟩ := hfailed.mp ⟨error, herror, hsoft⟩
    exact hnone e he hstall

end CopyRun

/-! ## A session stream as the writer -/

/-- The loop with the stream that it writes to. -/
structure UdpCopy where
  run : CopyRun
  call : Call
  state : SessionState

namespace UdpCopy

inductive Event where
  /-- What the reader returns. -/
  | read (result : Except IoError Bytes)
  /-- The `write` of what is left of the buffer. -/
  | write
  /-- The stream goes on in the `write`. -/
  | writer (e : MediumOverlay.Event)
  /-- A clone of the stream has changed the shared state. -/
  | clone (state : SessionState)

def init : UdpCopy := ⟨.init, .idle, .init⟩

/-- The stream is somewhere else, and the loop has the result if the call is over. -/
def resume (x : UdpCopy) (next : Next) : Option UdpCopy :=
  match next.done with
  | none => some { x with call := next.call, state := next.state }
  | some (.write _ result) =>
    (x.run.step (.write result)).map fun run => ⟨run, next.call, next.state⟩
  | some (.read _ _) => none

def step (σ : Cipher) (d : Direction) (x : UdpCopy) : Event → Option UdpCopy
  | .read result => (x.run.step (.read result)).map fun run => { x with run := run }
  | .write =>
    match x.run.loop, x.call with
    | .write rest, .idle =>
      (x.call.step σ d x.state (.write rest)).bind x.resume
    | _, _ => none
  | .writer e =>
    match x.call, e with
    | .idle, _ => none
    | call, e => (call.step σ d x.state e).bind x.resume
  | .clone state => some { x with state := state }

/-- The wait for an acknowledgement times out in the last attempt. -/
def Exhausts (x : UdpCopy) (e : Event) : Prop :=
  match x.call, e with
  | .recv (.write w), .writer (.recv (.error error)) =>
    error.isTimeout = true ∧ RETRIES ≤ w.attempt + 1
  | _, _ => False

instance (x : UdpCopy) (e : Event) : Decidable (x.Exhausts e) := by
  unfold Exhausts
  split <;> infer_instance

variable {σ : Cipher} {d : Direction}

/-- A `write` reports a timeout exactly if its last wait has timed out. -/
theorem timesOut_iff {c : Call} {s : SessionState} {e : MediumOverlay.Event} {n : Next}
    (h : c.step σ d s e = some n) :
    (∃ bytes error, n.done = some (.write bytes (.error error)) ∧ error.isTimeout = true) ↔
      ∃ error w, e = .recv (.error error) ∧ error.isTimeout = true ∧
        c = .recv (.write w) ∧ RETRIES ≤ w.attempt + 1 := by
  by_cases hrecv : ∃ op error, c = .recv op ∧ e = .recv (.error error)
  · obtain ⟨op, error, rfl, rfl⟩ := hrecv
    cases h
    cases op with
    | read len => simp [Op.receiveError]
    | write w =>
      by_cases hlast : RETRIES ≤ w.attempt + 1
      · simp [Op.receiveError, hlast, Nat.not_lt.mpr hlast]
      · cases herror : error.isTimeout <;>
          simp [Op.receiveError, Nat.not_le.mp hlast, herror]
  · refine iff_of_false ?_ fun ⟨error, w, he, _, hc, _⟩ => hrecv ⟨_, error, hc, he⟩
    rintro ⟨bytes, error, hdone, htimeout⟩
    have hrule := Call.step_rule h
    -- All other errors are of other kinds.
    have hfail : ∀ (op : Op) (message : String),
        op.fail (.other message) ≠ .write bytes (.error error) := by
      rintro (len | w) message hfail <;> cases hfail
      cases htimeout
    generalize n.done = done at hdone hrule
    generalize n.call = call at hrule
    generalize n.state = state at hrule
    cases hrule with
    | recvFail op error => exact hrecv ⟨op, error, rfl, rfl⟩
    | reject | ackFail => exact hfail _ _ (Option.some_inj.mp hdone)
    | noSeal | writeClose | sendFail =>
      cases hdone
      cases htimeout
    | _ => cases hdone

variable {x y : UdpCopy}

/-- Behind a step of the stream, the loop has the result of the call if it is over. -/
theorem resume_run {e : MediumOverlay.Event} {n : Next} (hn : x.call.step σ d x.state e = some n)
    (h : x.resume n = some y) :
    y.run = x.run ∧ ¬ x.Exhausts (.writer e) ∨
      ∃ event, x.run.step event = some y.run ∧
        (CopyRun.Stalls event ↔ x.Exhausts (.writer e)) := by
  have hexhausts : x.Exhausts (.writer e) ↔
      ∃ bytes error, n.done = some (.write bytes (.error error)) ∧ error.isTimeout = true := by
    rw [timesOut_iff hn]
    constructor
    · intro hx
      unfold Exhausts at hx
      split at hx
      next w error hcall heq =>
        cases heq
        exact ⟨error, w, rfl, hx.1, hcall, hx.2⟩
      next => exact hx.elim
    · rintro ⟨error, w, rfl, htimeout, hcall, hlast⟩
      unfold Exhausts
      rw [hcall]
      exact ⟨htimeout, hlast⟩
  rw [hexhausts]
  unfold resume at h
  split at h
  next hdone =>
    cases h
    exact .inl ⟨rfl, by simp [hdone]⟩
  next bytes result hdone =>
    obtain ⟨run, hrun, rfl⟩ := Option.map_eq_some_iff.mp h
    refine .inr ⟨.write result, hrun, ?_⟩
    cases result <;> simp [CopyRun.Stalls, hdone]
  next => cases h

/-- A step is none of the loop, or one with what the reader or the `write` has returned. -/
theorem step_run {e : Event} (h : x.step σ d e = some y) :
    y.run = x.run ∧ ¬ x.Exhausts e ∨
      ∃ event, x.run.step event = some y.run ∧ (CopyRun.Stalls event ↔ x.Exhausts e) := by
  cases e with
  | read result =>
    obtain ⟨run, hrun, rfl⟩ := Option.map_eq_some_iff.mp h
    exact .inr ⟨.read result, hrun, by simp [CopyRun.Stalls, Exhausts]⟩
  | write =>
    rw [step] at h
    split at h
    next rest hloop hcall =>
      obtain ⟨n, hn, hy⟩ := Option.bind_eq_some_iff.mp h
      have hsame : x.Exhausts .write ↔ x.Exhausts (.writer (.write rest)) := by simp [Exhausts]
      rw [hsame]
      exact resume_run hn hy
    next => cases h
  | writer e =>
    dsimp only [step] at h
    split at h
    next => cases h
    next =>
      obtain ⟨n, hn, hy⟩ := Option.bind_eq_some_iff.mp h
      exact resume_run hn hy
  | clone state =>
    cases h
    exact .inl ⟨rfl, by simp [Exhausts]⟩

/-- The loop on a session stream is a loop on some writer. -/
theorem exec_run {es : List Event} (h : exec (step σ d) x es = some y) :
    ∃ events, exec CopyRun.step x.run events = some y.run ∧
      ((∀ event ∈ events, ¬ CopyRun.Stalls event)
        ↔ Meets (step σ d) (fun x e => ¬ x.Exhausts e) x es) := by
  induction es generalizing x with
  | nil =>
    cases h
    exact ⟨[], rfl, by simp [Meets]⟩
  | cons e es ih =>
    obtain ⟨z, hz, hrest⟩ := exec_cons_eq_some.mp h
    obtain ⟨events, hevents, hiff⟩ := ih hrest
    have hmeets : Meets (step σ d) (fun x e => ¬ x.Exhausts e) x (e :: es) ↔
        ¬ x.Exhausts e ∧ Meets (step σ d) (fun x e => ¬ x.Exhausts e) z es := by
      rw [Meets, hz]
      simp
    rw [hmeets, ← hiff]
    obtain ⟨hrun, hnone⟩ | ⟨event, hevent, hstall⟩ := step_run hz
    · rw [hrun] at hevents
      exact ⟨events, hevents, by simp [hnone]⟩
    · refine ⟨event :: events, exec_cons_eq_some.mpr ⟨z.run, hevent, hevents⟩, ?_⟩
      rw [List.forall_mem_cons, hstall]

/-- Two bytes to write, and no acknowledgement within the five attempts. -/
def slowLink : List Event :=
  [.read (.ok [104, 105]), .write] ++
    (List.replicate RETRIES [.writer (.send (.ok ())), .writer (.recv (.error .timedOut))]).flatten

end UdpCopy

/-- The loop is faithful exactly if the writer reports no timeout.  A session stream does
report one as soon as the last of its attempts is not acknowledged in time. -/
theorem copy_stall_iff (σ : Cipher) (d : Direction) (es : List CopyEvent)
    (udp : List UdpCopy.Event) :
    (∀ x : CopyRun, exec CopyRun.step .init es = some x →
      (x.Faithful ↔ ∀ e ∈ es, ¬ CopyRun.Stalls e)) ∧
    ∀ x : UdpCopy, exec (UdpCopy.step σ d) .init udp = some x →
      (x.run.Faithful ↔ Meets (UdpCopy.step σ d) (fun x e => ¬ x.Exhausts e) .init udp) := by
  refine ⟨fun x h => CopyRun.faithful_iff h, fun x h => ?_⟩
  obtain ⟨events, hevents, hiff⟩ := UdpCopy.exec_run h
  rw [← hiff]
  exact CopyRun.faithful_iff hevents

/-- Timeouts of the reader are harmless, and the slow link is not. -/
theorem copy_stall_iff_sample :
    (⟨.read, [1, 2, 3], [1, 2, 3]⟩ : CopyRun).Faithful ∧
      ∃ x, exec (UdpCopy.step tagCipher .nodeToClient) .init UdpCopy.slowLink = some x ∧
        ¬ x.run.Faithful := by
  obtain ⟨hcopy, hudp⟩ := copy_stall_iff tagCipher .nodeToClient [.read (.error .timedOut),
    .read (.ok [1, 2, 3]), .write (.ok 2), .write (.ok 1), .read (.error .timedOut)]
    UdpCopy.slowLink
  constructor
  · refine (hcopy _ rfl).mpr ?_
    simp [CopyRun.Stalls]
  · refine ⟨_, rfl, ?_⟩
    rw [hudp _ rfl]
    decide +kernel

/-- The bytes that were read are lost, and the error is a timeout. -/
theorem copy_fails_on_slow_link :
    ∃ x, exec (UdpCopy.step tagCipher .nodeToClient) .init UdpCopy.slowLink = some x ∧
      x.run.read = [104, 105] ∧ x.run.written = [] ∧ x.run.Failed .timedOut ∧
      ¬ x.run.Faithful := by
  refine ⟨_, rfl, rfl, rfl, rfl, fun h => ?_⟩
  exact absurd (h.error .timedOut rfl).1 (by decide)

end MediumOverlay
