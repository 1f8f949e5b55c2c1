import MediumOverlay.HomeNode.RequestForwarding

/-!
# The bytes of an HTTP service

The proxy of an HTTP service moves bytes in three ways: a request that it has buffered, the
first chunk of the response, and then `copy_bidirectional`.  A read may return more than the
request, and the rest is in the buffer as well.

A `Transfer` is a proxy together with what has gone in and out on both sides, inside TLS.
Up to the copy, what has come in on one side has gone out on the other or is still held
(`Transfer.Held`), and in the copy that stays so.  A response of the proxy itself is the only
other thing that is written, and behind it there is no copy.
-/

namespace MediumOverlay

open Trace

/-! ## The test for a whole request -/

/-- More bytes do not make a whole request a part of one. -/
theorem completeHttpRequest_append {data : Bytes} (h : completeHttpRequest data = true)
    (rest : Bytes) : completeHttpRequest (data ++ rest) = true := by
  unfold completeHttpRequest at h ⊢
  cases hend : headerEnd data with
  | none =>
    rw [hend] at h
    cases h
  | some k =>
    have hle := headerEnd_le hend
    have htake : (data ++ rest).take k = data.take k :=
      List.take_append_of_le_length (by omega)
    rw [hend] at h
    rw [headerEnd_of_append hend rest]
    dsimp only at h ⊢
    rw [htake]
    split at h
    next => rfl
    next headers _ =>
      split at h
      next length hlength =>
        simp only [decide_eq_true_eq, List.length_append] at h ⊢
        omega
      next => rfl

/-! ## What goes in and out -/

namespace CopyDirection

/-- A direction that has passed the end on holds nothing. -/
def Tidy (d : CopyDirection) : Prop := d.finished = true → d.eof = true ∧ d.pending = []

theorem tidy_start : start.Tidy := fun h => by cases h

variable {d d' : CopyDirection}

theorem read_eq_some {bytes : Bytes} (h : d.read bytes = some d') :
    d'.pending = d.pending ++ bytes ∧ (d.Tidy → d'.Tidy) := by
  unfold read at h
  split at h
  next => cases h
  next hlive =>
    have heof : d.eof = false := by simp_all
    have hopen : d.Tidy → d.finished = false := by
      intro htidy
      cases hfinished : d.finished with
      | false => rfl
      | true =>
        rw [(htidy hfinished).1] at heof
        cases heof
    split at h
    next hempty =>
      cases h
      refine ⟨by simp [List.isEmpty_iff.mp hempty], fun htidy hfinished => ?_⟩
      rw [hopen htidy] at hfinished
      cases hfinished
    next =>
      cases h
      refine ⟨rfl, fun htidy hfinished => ?_⟩
      rw [hopen htidy] at hfinished
      cases hfinished

theorem wrote_eq_some {n : Nat} (h : d.wrote n = some d') :
    d.pending.take n ++ d'.pending = d.pending ∧ (d.Tidy → d'.Tidy) := by
  obtain ⟨hn, h⟩ := Option.ite_none_right_eq_some.mp h
  cases h
  refine ⟨List.take_append_drop n d.pending, fun htidy hfinished => ?_⟩
  rw [(htidy hfinished).2] at hn
  simp at hn
  omega

theorem shutdown_eq_some (h : d.shutdown = some d') :
    d.pending = [] ∧ d'.pending = [] ∧ d'.Tidy := by
  obtain ⟨⟨heof, hpending, -⟩, h⟩ := Option.ite_none_right_eq_some.mp h
  cases h
  exact ⟨hpending, hpending, fun _ => ⟨heof, hpending⟩⟩

end CopyDirection

/-- The stages of a response of the proxy itself, and the last one. -/
def Stage.isAside : Stage → Bool
  | .respond _ | .closing | .done _ => true
  | _ => false

def Stage.isCopy : Stage → Bool
  | .copy _ _ => true
  | _ => false

namespace ServiceProxy

/-- The bytes that a read of the inbound side returns. -/
def Event.fromClient : Event → Bytes
  | .read bytes => bytes
  | _ => []

def Event.fromTarget : Event → Bytes
  | .targetRead bytes => bytes
  | _ => []

/-- The bytes that a step writes to the inbound side. -/
def gives (p : ServiceProxy) : Event → Bytes
  | .write n => p.outgoing.take n
  | _ => []

/-- What a step of an HTTP service moves, to the target and to the client. -/
inductive Moves (p : ServiceProxy) : Event → Stage → Bytes → Bytes → Prop where
  | raw (e : Event) (hclient : e.fromClient = []) (htarget : e.fromTarget = []) :
      Moves p e p.stage [] []
  | accept (hstage : p.stage = .accept) : Moves p .accepted (.request []) [] []
  | read (buffer bytes : Bytes) (hstage : p.stage = .request buffer) :
      Moves p (.read bytes) (afterRequestRead buffer bytes) [] []
  | connect (request : Bytes) (hstage : p.stage = .connect (some request)) :
      Moves p .connected (sending request) [] []
  | send (rest : Bytes) (n : Nat) (hstage : p.stage = .send rest) :
      Moves p (.targetWrite n) (sending (rest.drop n)) (rest.take n) []
  | first (bytes : Bytes) (hstage : p.stage = .first) :
      Moves p (.targetRead bytes) (.forward bytes) [] []
  | forward (rest : Bytes) (n : Nat) (hstage : p.stage = .forward rest) :
      Moves p (.write n) (.forward (rest.drop n)) [] (rest.take n)
  | flushed (hstage : p.stage = .forward []) : Moves p .flushed (.copy .start .start) [] []
  | copyRead (t i t' : CopyDirection) (bytes : Bytes) (hstage : p.stage = .copy t i)
      (h : t.read bytes = some t') : Moves p (.read bytes) (.copy t' i) [] []
  | copyTargetWrite (t i t' : CopyDirection) (n : Nat) (hstage : p.stage = .copy t i)
      (h : t.wrote n = some t') :
      Moves p (.targetWrite n) (.copy t' i) (t.pending.take n) []
  | copyTargetShutdown (t i t' : CopyDirection) (hstage : p.stage = .copy t i)
      (h : t.shutdown = some t') : Moves p .targetShutdown (copying t' i) [] []
  | copyTargetRead (t i i' : CopyDirection) (bytes : Bytes) (hstage : p.stage = .copy t i)
      (h : i.read bytes = some i') : Moves p (.targetRead bytes) (.copy t i') [] []
  | copyWrite (t i i' : CopyDirection) (n : Nat) (hstage : p.stage = .copy t i)
      (h : i.wrote n = some i') : Moves p (.write n) (.copy t i') [] (i.pending.take n)
  | copyClosed (t i i' : CopyDirection) (hstage : p.stage = .copy t i)
      (h : i.shutdown = some i') : Moves p .closed (copying t i') [] []
  | copyFails (t i : CopyDirection) (e : Event) (error : AnyhowError)
      (hstage : p.stage = .copy t i) (hclient : e.fromClient = []) (htarget : e.fromTarget = []) :
      Moves p e (fails error) [] []
  | aside (e : Event) (stage : Stage) (toTarget toClient : Bytes) (haside : stage.isAside = true)
      (hcopy : p.stage.isCopy = false) : Moves p e stage toTarget toClient

variable {p : ServiceProxy}

theorem touches_copy {t i : CopyDirection} (h : p.stage = .copy t i) (n : Nat) (stage : Stage) :
    (p.touches (.targetWrite n) stage).flatMap TargetEffect.bytes = t.pending.take n := by
  unfold touches
  rw [h]
  simp [TargetEffect.bytes]

variable {e : Event}

/-- Only a write of the inbound side gives the client bytes. -/
theorem gives_eq_nil (p : ServiceProxy) (he : ∀ n, e ≠ .write n) : p.gives e = [] := by
  cases e with
  | write n => exact absurd rfl (he n)
  | _ => rfl

theorem Moves.quiet {stage : Stage} (htarget : ∀ n, e ≠ .targetWrite n)
    (hclient : ∀ n, e ≠ .write n) (h : Moves p e stage [] []) :
    Moves p e stage ((p.touches e stage).flatMap TargetEffect.bytes) (p.gives e) := by
  rwa [touches_eq_nil p htarget, gives_eq_nil p hclient]

theorem moves_of_next {stage : Stage} (hmode : p.service.tlsMode = .http)
    (hconnect : p.stage ≠ .connect none) (h : p.next e = some stage) :
    Moves p e stage ((p.touches e stage).flatMap TargetEffect.bytes) (p.gives e) := by
  unfold next at h
  split at h
  -- Impossible steps first, then the responses of the proxy, and errors.
  all_goals try contradiction
  all_goals try (cases h; exact .aside _ _ _ _ rfl (by rw [‹p.stage = _›]; rfl))
  all_goals try (cases h; exact (Moves.copyFails _ _ _ _ ‹_› rfl rfl).quiet nofun nofun)
  next =>
    obtain ⟨-, h⟩ := Option.ite_none_right_eq_some.mp h
    cases h
    exact (Moves.raw _ rfl rfl).quiet nofun nofun
  next =>
    obtain ⟨-, h⟩ := Option.ite_none_right_eq_some.mp h
    cases h
    exact (Moves.raw _ rfl rfl).quiet nofun nofun
  next hstage =>
    rw [hmode] at h
    cases h
    exact (Moves.accept hstage).quiet nofun nofun
  next buffer bytes hstage =>
    obtain ⟨-, h⟩ := Option.ite_none_right_eq_some.mp h
    cases h
    exact (Moves.read buffer bytes hstage).quiet nofun nofun
  next request hstage =>
    cases h
    exact (Moves.connect request hstage).quiet nofun nofun
  next rest n hstage =>
    obtain ⟨-, h⟩ := Option.ite_none_right_eq_some.mp h
    cases h
    rw [touches_send hstage]
    exact .send rest n hstage
  next bytes hstage =>
    split at h
    next => cases h
    next =>
      split at h
      next =>
        cases h
        exact .aside _ _ _ _ rfl (by rw [hstage]; rfl)
      next =>
        cases h
        exact (Moves.first bytes hstage).quiet nofun nofun
  next rest n hstage =>
    obtain ⟨-, h⟩ := Option.ite_none_right_eq_some.mp h
    cases h
    rw [touches_eq_nil p (by simp), gives, outgoing, hstage]
    exact .forward rest n hstage
  next hstage =>
    cases h
    exact (Moves.flushed hstage).quiet nofun nofun
  next rest n hstage =>
    obtain ⟨-, h⟩ := Option.ite_none_right_eq_some.mp h
    cases h
    exact .aside _ _ _ _ rfl (by rw [hstage]; rfl)
  next t i bytes hstage =>
    obtain ⟨t', ht, rfl⟩ := Option.map_eq_some_iff.mp h
    exact (Moves.copyRead t i t' bytes hstage ht).quiet nofun nofun
  next t i n hstage =>
    obtain ⟨t', ht, rfl⟩ := Option.map_eq_some_iff.mp h
    rw [touches_copy hstage]
    exact .copyTargetWrite t i t' n hstage ht
  next t i hstage =>
    obtain ⟨t', ht, rfl⟩ := Option.map_eq_some_iff.mp h
    exact (Moves.copyTargetShutdown t i t' hstage ht).quiet nofun nofun
  next t i bytes hstage =>
    obtain ⟨i', hi, rfl⟩ := Option.map_eq_some_iff.mp h
    exact (Moves.copyTargetRead t i i' bytes hstage hi).quiet nofun nofun
  next t i n hstage =>
    obtain ⟨i', hi, rfl⟩ := Option.map_eq_some_iff.mp h
    rw [touches_eq_nil p (by simp), gives, outgoing, hstage]
    exact .copyWrite t i i' n hstage hi
  next t i hstage =>
    obtain ⟨i', hi, rfl⟩ := Option.map_eq_some_iff.mp h
    exact (Moves.copyClosed t i i' hstage hi).quiet nofun nofun

/-- A proxy, with the bytes of both sides inside TLS. -/
structure Transfer where
  proxy : ServiceProxy
  fromClient : Bytes
  fromTarget : Bytes
  toClient : Bytes

namespace Transfer

def start (service : ProxyService) : Transfer := ⟨.start service, [], [], []⟩

def step (x : Transfer) (e : Event) : Option Transfer :=
  (x.proxy.step e).map fun proxy =>
    ⟨proxy, x.fromClient ++ e.fromClient, x.fromTarget ++ e.fromTarget,
      x.toClient ++ x.proxy.gives e⟩

/-- The bytes that the target has got. -/
def toTarget (x : Transfer) : Bytes := x.proxy.sent

end Transfer

end ServiceProxy

/-- The bytes of the client that a stage still holds. -/
def Stage.heldForTarget : Stage → Bytes
  | .request buffer => buffer
  | .connect buffer => buffer.getD []
  | .send rest => rest
  | .copy toTarget _ => toTarget.pending
  | _ => []

/-- The bytes of the target that a stage still holds. -/
def Stage.heldForClient : Stage → Bytes
  | .forward rest => rest
  | .copy _ toInbound => toInbound.pending
  | _ => []

namespace ServiceProxy

namespace Transfer

/-- What has come in has gone out on the other side, or is held. -/
structure Held (x : Transfer) : Prop where
  toTarget : x.toTarget ++ x.proxy.stage.heldForTarget = x.fromClient
  toClient : x.toClient ++ x.proxy.stage.heldForClient = x.fromTarget

end Transfer

/-- A stage that keeps a step of the request as it is. -/
structure Keeps (stage : Stage) (held : Bytes) : Prop where
  forTarget : stage.heldForTarget = held
  forClient : stage.heldForClient = []
  request : stage ≠ .connect none
  copy : ∀ t i, stage ≠ .copy t i

theorem keeps_afterRequestRead (buffer bytes : Bytes) :
    Keeps (afterRequestRead buffer bytes) (buffer ++ bytes) := by
  unfold afterRequestRead
  split
  next hempty =>
    rw [List.isEmpty_iff.mp hempty, List.append_nil]
    exact ⟨rfl, rfl, by simp, by simp⟩
  next =>
    split
    · exact ⟨rfl, rfl, by simp, by simp⟩
    · exact ⟨rfl, rfl, by simp, by simp⟩

theorem keeps_sending (rest : Bytes) : Keeps (sending rest) rest := by
  unfold sending
  split
  next hempty =>
    rw [List.isEmpty_iff.mp hempty]
    exact ⟨rfl, rfl, by simp, by simp⟩
  next => exact ⟨rfl, rfl, by simp, by simp⟩

variable {t i : CopyDirection}

/-- The stage behind the end of a direction holds what the directions hold. -/
theorem held_copying (ht : t.Tidy) (hi : i.Tidy) :
    (copying t i).heldForTarget = t.pending ∧ (copying t i).heldForClient = i.pending
      ∧ (copying t i = .copy t i ∨ copying t i = .done (.ok ())) := by
  unfold copying
  split
  next hfinished =>
    rw [Bool.and_eq_true] at hfinished
    rw [(ht hfinished.1).2, (hi hfinished.2).2]
    exact ⟨rfl, rfl, .inr rfl⟩
  next => exact ⟨rfl, rfl, .inl rfl⟩

/-- A step hands on what it takes in, or holds it. -/
structure Conserves (p : ServiceProxy) (e : Event) (stage : Stage) (toTarget toClient : Bytes) :
    Prop where
  toTarget : toTarget ++ stage.heldForTarget = p.stage.heldForTarget ++ e.fromClient
  toClient : toClient ++ stage.heldForClient = p.stage.heldForClient ++ e.fromTarget
  request : stage ≠ .connect none
  tidy : ∀ t i, stage = .copy t i → t.Tidy ∧ i.Tidy

variable {p : ServiceProxy} {e : Event} {stage : Stage} {toTarget : Bytes}

theorem Keeps.conserves {held : Bytes} (h : Keeps stage held)
    (hheld : toTarget ++ held = p.stage.heldForTarget ++ e.fromClient)
    (hclient : p.stage.heldForClient = []) (htarget : e.fromTarget = []) :
    Conserves p e stage toTarget [] where
  toTarget := by rw [h.forTarget, hheld]
  toClient := by rw [h.forClient, hclient, htarget]
  request := h.request
  tidy t i hcopy := absurd hcopy (h.copy t i)

variable {toClient : Bytes}

/-- A step of the copy that does not fail. -/
theorem conserves_copying {t' i' : CopyDirection} (hstage : p.stage = .copy t i)
    (ht : toTarget ++ t'.pending = t.pending ++ e.fromClient)
    (hi : toClient ++ i'.pending = i.pending ++ e.fromTarget) (ht' : t'.Tidy) (hi' : i'.Tidy)
    (h : stage = .copy t' i' ∨ stage = copying t' i') :
    Conserves p e stage toTarget toClient ∧ (stage.isCopy = true ∨ stage = .done (.ok ())) := by
  obtain ⟨htarget, hclient, hcases⟩ := held_copying ht' hi'
  have hcopy : Conserves p e (.copy t' i') toTarget toClient := by
    refine ⟨by rw [hstage]; exact ht, by rw [hstage]; exact hi, by simp, ?_⟩
    rintro t i hcopy
    cases hcopy
    exact ⟨ht', hi'⟩
  obtain rfl | rfl := h
  · exact ⟨hcopy, .inl rfl⟩
  · obtain hsame | hdone := hcases
    · rw [hsame]
      exact ⟨hcopy, .inl rfl⟩
    · refine ⟨⟨?_, ?_, by simp [hdone], by simp [hdone]⟩, .inr hdone⟩
      · rw [htarget, hstage]
        exact ht
      · rw [hclient, hstage]
        exact hi

/-- The steps of the copy. -/
theorem Moves.of_copy (h : Moves p e stage toTarget toClient) (hstage : p.stage = .copy t i)
    (ht : t.Tidy) (hi : i.Tidy) :
    (Conserves p e stage toTarget toClient ∧ (stage.isCopy = true ∨ stage = .done (.ok ())))
      ∨ ∃ error, stage = .done (.error error) ∧ toTarget = [] ∧ toClient = []
        ∧ e.fromClient = [] ∧ e.fromTarget = [] := by
  cases h with
  | raw e hclient htarget =>
    refine .inl (conserves_copying hstage ?_ ?_ ht hi (.inl hstage))
    · rw [hclient, List.append_nil, List.nil_append]
    · rw [htarget, List.append_nil, List.nil_append]
  | copyRead t i t' bytes hcopy hread =>
    cases hstage.symm.trans hcopy
    obtain ⟨hpending, htidy⟩ := CopyDirection.read_eq_some hread
    exact .inl (conserves_copying hstage hpending (by simp [Event.fromTarget])
      (htidy ht) hi (.inl rfl))
  | copyTargetWrite t i t' n hcopy hwrote =>
    cases hstage.symm.trans hcopy
    obtain ⟨hpending, htidy⟩ := CopyDirection.wrote_eq_some hwrote
    exact .inl (conserves_copying hstage (by simpa [Event.fromClient] using hpending)
      (by simp [Event.fromTarget]) (htidy ht) hi (.inl rfl))
  | copyTargetShutdown t i t' hcopy hshutdown =>
    cases hstage.symm.trans hcopy
    obtain ⟨hpending, hpending', htidy⟩ := CopyDirection.shutdown_eq_some hshutdown
    exact .inl (conserves_copying hstage (by simp [hpending, hpending', Event.fromClient])
      (by simp [Event.fromTarget]) htidy hi (.inr rfl))
  | copyTargetRead t i i' bytes hcopy hread =>
    cases hstage.symm.trans hcopy
    obtain ⟨hpending, htidy⟩ := CopyDirection.read_eq_some hread
    exact .inl (conserves_copying hstage (by simp [Event.fromClient]) hpending
      ht (htidy hi) (.inl rfl))
  | copyWrite t i i' n hcopy hwrote =>
    cases hstage.symm.trans hcopy
    obtain ⟨hpending, htidy⟩ := CopyDirection.wrote_eq_some hwrote
    exact .inl (conserves_copying hstage (by simp [Event.fromClient])
      (by simpa [Event.fromTarget] using hpending) ht (htidy hi) (.inl rfl))
  | copyClosed t i i' hcopy hshutdown =>
    cases hstage.symm.trans hcopy
    obtain ⟨hpending, hpending', htidy⟩ := CopyDirection.shutdown_eq_some hshutdown
    exact .inl (conserves_copying hstage (by simp [Event.fromClient])
      (by simp [hpending, hpending', Event.fromTarget]) ht htidy (.inr rfl))
  | copyFails t i e error hcopy hclient htarget =>
    exact .inr ⟨error, rfl, rfl, rfl, hclient, htarget⟩
  | aside e stage toTarget toClient haside hcopy =>
    rw [hstage] at hcopy
    cases hcopy
  | accept hother | read _ _ hother | connect _ hother | send _ _ hother | first _ hother
  | forward _ _ hother | flushed hother =>
    rw [hstage] at hother
    cases hother

/-- The steps in front of the copy, up to a response of the proxy itself. -/
theorem Moves.conserves (h : Moves p e stage toTarget toClient) (hcopy : p.stage.isCopy = false)
    (hrequest : p.stage ≠ .connect none) (haside : stage.isAside = false) :
    p.stage.isAside = false ∧ Conserves p e stage toTarget toClient := by
  cases h with
  | raw e hclient htarget =>
    refine ⟨haside, by rw [hclient, List.append_nil, List.nil_append],
      by rw [htarget, List.append_nil, List.nil_append], hrequest, fun t i hstage => ?_⟩
    rw [hstage] at hcopy
    cases hcopy
  | accept hstage =>
    rw [hstage]
    exact ⟨rfl, by rw [hstage]; rfl, by rw [hstage]; rfl, by simp, by simp⟩
  | read buffer bytes hstage =>
    refine ⟨by rw [hstage]; rfl, (keeps_afterRequestRead buffer bytes).conserves ?_ ?_ rfl⟩
    · rw [hstage]
      rfl
    · rw [hstage]
      rfl
  | connect request hstage =>
    refine ⟨by rw [hstage]; rfl, (keeps_sending request).conserves ?_ ?_ rfl⟩
    · simp [hstage, Stage.heldForTarget, Event.fromClient]
    · rw [hstage]
      rfl
  | send rest n hstage =>
    refine ⟨by rw [hstage]; rfl, (keeps_sending (rest.drop n)).conserves ?_ ?_ rfl⟩
    · simp [hstage, Stage.heldForTarget, Event.fromClient]
    · rw [hstage]
      rfl
  | first bytes hstage =>
    exact ⟨by rw [hstage]; rfl, by rw [hstage]; rfl, by rw [hstage]; rfl, by simp, by simp⟩
  | forward rest n hstage =>
    refine ⟨by rw [hstage]; rfl, by rw [hstage]; rfl, ?_, by simp, by simp⟩
    simp [hstage, Stage.heldForClient, Event.fromTarget]
  | flushed hstage =>
    refine ⟨by rw [hstage]; rfl, by rw [hstage]; rfl, by rw [hstage]; rfl, by simp, ?_⟩
    rintro t i hstart
    cases hstart
    exact ⟨CopyDirection.tidy_start, CopyDirection.tidy_start⟩
  | aside e stage toTarget toClient hother _ =>
    rw [hother] at haside
    cases haside
  | copyRead _ _ _ _ hstage _ | copyTargetWrite _ _ _ _ hstage _ | copyTargetShutdown _ _ _ hstage _
  | copyTargetRead _ _ _ _ hstage _ | copyWrite _ _ _ _ hstage _ | copyClosed _ _ _ hstage _
  | copyFails _ _ _ _ hstage _ _ =>
    rw [hstage] at hcopy
    cases hcopy

namespace Transfer

/-- What a run keeps, as long as the proxy does not answer itself. -/
structure Sound (x : Transfer) : Prop where
  mode : x.proxy.service.tlsMode = .http
  request : x.proxy.stage ≠ .connect none
  held : x.proxy.stage.isAside = false → x.Held
  tidy : ∀ t i, x.proxy.stage = .copy t i → t.Tidy ∧ i.Tidy

variable {x y : Transfer} {e : Event}

theorem step_moves (hx : x.Sound) (h : x.step e = some y) :
    ∃ toTarget toClient, Moves x.proxy e y.proxy.stage toTarget toClient
      ∧ y.proxy.service = x.proxy.service ∧ y.toTarget = x.toTarget ++ toTarget
      ∧ y.toClient = x.toClient ++ toClient ∧ y.fromClient = x.fromClient ++ e.fromClient
      ∧ y.fromTarget = x.fromTarget ++ e.fromTarget := by
  obtain ⟨proxy, hproxy, rfl⟩ := Option.map_eq_some_iff.mp h
  obtain ⟨stage, hnext, rfl⟩ := Option.map_eq_some_iff.mp hproxy
  refine ⟨_, _, moves_of_next hx.mode hx.request hnext, rfl, ?_, rfl, rfl, rfl⟩
  simp [toTarget, sent]

/-- What has come in stays accounted for. -/
theorem Held.step {toTarget toClient : Bytes} (hx : x.Held)
    (h : Conserves x.proxy e y.proxy.stage toTarget toClient)
    (htarget : y.toTarget = x.toTarget ++ toTarget) (hclient : y.toClient = x.toClient ++ toClient)
    (hfromClient : y.fromClient = x.fromClient ++ e.fromClient)
    (hfromTarget : y.fromTarget = x.fromTarget ++ e.fromTarget) : y.Held where
  toTarget := by
    rw [htarget, List.append_assoc, h.toTarget, ← List.append_assoc, hx.toTarget, hfromClient]
  toClient := by
    rw [hclient, List.append_assoc, h.toClient, ← List.append_assoc, hx.toClient, hfromTarget]

/-- A transfer in the copy, or at its end. -/
structure Transparent (x : Transfer) : Prop where
  stays : x.proxy.stage.isCopy = true ∨ ∃ result, x.proxy.stage = .done result
  toTarget : x.toTarget <+: x.fromClient
  toClient : x.toClient <+: x.fromTarget
  held : ∀ t i, x.proxy.stage = .copy t i →
    x.toTarget ++ t.pending = x.fromClient ∧ x.toClient ++ i.pending = x.fromTarget
  complete : x.proxy.stage = .done (.ok ()) → x.toTarget = x.fromClient ∧ x.toClient = x.fromTarget

theorem Held.transparent (h : x.Held)
    (hstage : x.proxy.stage.isCopy = true ∨ x.proxy.stage = .done (.ok ())) : x.Transparent where
  stays := hstage.imp_right fun hdone => ⟨_, hdone⟩
  toTarget := ⟨_, h.toTarget⟩
  toClient := ⟨_, h.toClient⟩
  held t i hcopy := by
    have htarget := h.toTarget
    have hclient := h.toClient
    rw [hcopy] at htarget hclient
    exact ⟨htarget, hclient⟩
  complete hdone := by
    have htarget := h.toTarget
    have hclient := h.toClient
    rw [hdone] at htarget hclient
    exact ⟨(List.append_nil _).symm.trans htarget, (List.append_nil _).symm.trans hclient⟩

theorem Sound.step (hx : x.Sound) (h : x.step e = some y) : y.Sound := by
  obtain ⟨toTarget, toClient, hmoves, hservice, htarget, hclient, hfromClient, hfromTarget⟩ :=
    step_moves hx h
  have hmode : y.proxy.service.tlsMode = .http := hservice ▸ hx.mode
  by_cases haside : y.proxy.stage.isAside = true
  · -- Nothing is claimed behind a response of the proxy.
    refine ⟨hmode, ?_, fun hnot => ?_, ?_⟩
    · intro hconnect
      rw [hconnect] at haside
      cases haside
    · rw [haside] at hnot
      cases hnot
    · intro t i hcopy
      rw [hcopy] at haside
      cases haside
  · rw [Bool.not_eq_true] at haside
    obtain ⟨hbefore, hconserves⟩ :
        x.proxy.stage.isAside = false ∧ Conserves x.proxy e y.proxy.stage toTarget toClient := by
      cases hstage : x.proxy.stage with
      | copy t i =>
        obtain ⟨ht, hi⟩ := hx.tidy t i hstage
        obtain ⟨hconserves, -⟩ | ⟨error, hdone, -⟩ := hmoves.of_copy hstage ht hi
        · exact ⟨rfl, hconserves⟩
        · rw [hdone] at haside
          cases haside
      | _ =>
        rw [← hstage]
        exact hmoves.conserves (by rw [hstage]; rfl) hx.request haside
    refine ⟨hmode, hconserves.request, fun _ => ?_, hconserves.tidy⟩
    exact (hx.held hbefore).step hconserves htarget hclient hfromClient hfromTarget

theorem Transparent.step (hx : x.Sound) (htransparent : x.Transparent) (h : x.step e = some y) :
    y.Transparent := by
  obtain ⟨toTarget, toClient, hmoves, -, htarget, hclient, hfromClient, hfromTarget⟩ :=
    step_moves hx h
  cases hstage : x.proxy.stage with
  | copy t i =>
    obtain ⟨ht, hi⟩ := hx.tidy t i hstage
    have hheld : x.Held := hx.held (by rw [hstage]; rfl)
    obtain ⟨hconserves, hcases⟩ | ⟨error, hdone, rfl, rfl, hnone, hnone'⟩ :=
      hmoves.of_copy hstage ht hi
    · exact (hheld.step hconserves htarget hclient hfromClient hfromTarget).transparent hcases
    · rw [List.append_nil] at htarget hclient
      rw [hnone, List.append_nil] at hfromClient
      rw [hnone', List.append_nil] at hfromTarget
      refine ⟨.inr ⟨_, hdone⟩, ?_, ?_, by simp [hdone], by simp [hdone]⟩
      · rw [htarget, hfromClient]
        exact htransparent.toTarget
      · rw [hclient, hfromTarget]
        exact htransparent.toClient
  | done result =>
    obtain ⟨proxy, hproxy, -⟩ := Option.map_eq_some_iff.mp h
    obtain ⟨stage, hnext, -⟩ := Option.map_eq_some_iff.mp hproxy
    unfold next at hnext
    rw [hstage] at hnext
    cases hnext
  | _ =>
    have hstays := htransparent.stays
    rw [hstage] at hstays
    obtain hcopy | ⟨result, hdone⟩ := hstays
    · cases hcopy
    · cases hdone

theorem sound_start {service : ProxyService} (htls : service.tlsConfig.isSome = true)
    (hmode : service.tlsMode = .http) : (start service).Sound := by
  rw [start, start_eq htls]
  exact ⟨hmode, by simp, fun _ => ⟨rfl, rfl⟩, by simp⟩

end Transfer

/-- Once the proxy of an HTTP service copies, the target has got the bytes of the client and
the client those of the target, up to what the copy holds, and that is nothing at its end.
The test for a whole request does not change its answer when more bytes arrive. -/
theorem http_proxy_transparent {service : ProxyService} (htls : service.tlsConfig.isSome = true)
    (hmode : service.tlsMode = .http) {es fs : List Event} {x y : Transfer}
    (hrun : exec Transfer.step (.start service) es = some x) (hcopy : x.proxy.stage.isCopy = true)
    (hcopies : exec Transfer.step x fs = some y) :
    y.Transparent ∧
      ∀ data rest, completeHttpRequest data = true → completeHttpRequest (data ++ rest) = true := by
  have hx : x.Sound :=
    exec_invariant_all (fun _ _ _ hx hstep => hx.step hstep) es _ x
      (Transfer.sound_start htls hmode) hrun
  have haside : x.proxy.stage.isAside = false := by
    cases hstage : x.proxy.stage <;> simp_all [Stage.isCopy, Stage.isAside]
  have hy : y.Sound ∧ y.Transparent := by
    refine exec_invariant_all (I := fun y => y.Sound ∧ y.Transparent) ?_ fs x y ?_ hcopies
    · rintro x e y ⟨hx, htransparent⟩ hstep
      exact ⟨hx.step hstep, htransparent.step hx hstep⟩
    · exact ⟨hx, (hx.held haside).transparent (.inl hcopy)⟩
  exact ⟨hy.2, fun _ rest h => completeHttpRequest_append h rest⟩

/-- A request with a byte of the next one behind it, and a response in two parts. -/
def sampleRequest : List Event :=
  [.accepted, .read [71, 13, 10, 13, 10, 71], .connected, .targetWrite 4, .targetWrite 2,
    .targetRead [72, 84], .write 2, .flushed]

def sampleCopy : List Event :=
  [.targetRead [84], .read [13], .write 1, .targetWrite 1, .read [], .targetShutdown,
    .targetRead [], .closed]

def sampleCopying : Transfer :=
  ⟨⟨webService, .copy .start .start, [], [],
      [.connect webService.target, .write webService.target [71, 13, 10, 13],
        .write webService.target [10, 71]]⟩,
    [71, 13, 10, 13, 10, 71], [72, 84], [72, 84]⟩

def sampleCopied : Transfer :=
  ⟨⟨webService, .done (.ok ()), [], [],
      sampleCopying.proxy.effects ++ [.write webService.target [13]]⟩,
    [71, 13, 10, 13, 10, 71, 13], [72, 84, 84], [72, 84, 84]⟩

theorem http_proxy_transparent_sample :
    exec Transfer.step (.start webService) sampleRequest = some sampleCopying
      ∧ exec Transfer.step sampleCopying sampleCopy = some sampleCopied
      ∧ sampleCopied.toTarget = [71, 13, 10, 13, 10, 71, 13] ∧ sampleCopied.Transparent := by
  have hrun : exec Transfer.step (.start webService) sampleRequest = some sampleCopying := rfl
  have hcopies : exec Transfer.step sampleCopying sampleCopy = some sampleCopied := rfl
  exact ⟨hrun, hcopies, rfl, (http_proxy_transparent rfl rfl hrun rfl hcopies).1⟩

end ServiceProxy

end MediumOverlay
