import MediumOverlay.Crypto.SessionToken
import MediumOverlay.Transport.Listener

/-!
# A `Hello` in the name of another

The listener routes by source address, and it opens a session for every `Hello`
whose key it has not seen lately.  The token is not looked at: the node verifies
it when the bridge hands the `SessionHello` to the local proxy, and by then the
inbox of the address has been replaced.

So a `Hello` with any token, sent under the address of a client, takes over the
traffic of the client's session (`forged_takes_over`).  `keepsSession_iff` says
that this is all that can happen to the session.
-/

namespace MediumOverlay

open Trace

/-- The burst of acknowledgements is sent as a whole. -/
def SocketIo.AcksSent (io : SocketIo) : Prop :=
  ∀ failed ∈ io.failedSend, ACK_BURST_PACKETS ≤ failed.1

instance (io : SocketIo) : Decidable io.AcksSent :=
  inferInstanceAs (Decidable (∀ failed ∈ io.failedSend, ACK_BURST_PACKETS ≤ failed.1))

theorem sendAckBurst_ok_iff {io : SocketIo} {addr : SocketAddr} {seq : UInt64} :
    (sendAckBurst io addr ⟨.helloAck, seq, []⟩).2 = .ok () ↔ io.AcksSent := by
  obtain ⟨encoded, hencoded⟩ : ∃ encoded, encodePacket ⟨.helloAck, seq, []⟩ = .ok encoded :=
    ⟨_, if_neg (by simp)⟩
  simp only [sendAckBurst, hencoded, SocketIo.burst, SocketIo.AcksSent]
  cases io.failedSend with
  | none => simp
  | some failed =>
    by_cases h : failed.1 < ACK_BURST_PACKETS
    · simp [h]
    · simp [h, Nat.le_of_not_lt h]

namespace Listener

/-- The `Hello` of an event, if it parses. -/
def Event.hello? (codec : Codec) : Event → Option SessionHello
  | .received _ _ datagram _ => (helloOf codec datagram).bind Except.toOption
  | .failed _ | .drop => none

/-- The listener opens a session for a `Hello` of `peer`. -/
def TakesOver (codec : Codec) (peer : SocketAddr) (l : Listener) (e : Event) : Prop :=
  match e with
  | .received now addr _ io => addr = peer ∧ io.AcksSent ∧ ((e.hello? codec).any fun hello =>
    !(isDuplicateHandshake l.recentHandshakes (hello.key addr) now).1) = true
  | .failed _ | .drop => False

instance (codec : Codec) (peer : SocketAddr) (l : Listener) :
    ∀ e, Decidable (TakesOver codec peer l e)
  | .received _ _ _ _ => inferInstanceAs (Decidable (_ ∧ _ ∧ _ = true))
  | .failed _ | .drop => .isFalse id

/-- The token of the `Hello`, if the event is one, does not verify under the secret
of the node.  `utc` is the time of day. -/
def Forged (tokens : TokenCodec) (sharedSecret : String) (utc : Nat → Int) (codec : Codec)
    (e : Event) : Prop :=
  match e with
  | .received now _ _ _ => ∀ hello ∈ e.hello? codec,
      (verifySessionToken tokens sharedSecret hello.token (utc now)).toOption = none
  | .failed _ | .drop => True

instance (tokens : TokenCodec) (sharedSecret : String) (utc : Nat → Int) (codec : Codec) :
    ∀ e, Decidable (Forged tokens sharedSecret utc codec e)
  | .received now addr datagram io => inferInstanceAs (Decidable
      (∀ hello ∈ (Event.received now addr datagram io).hello? codec,
        (verifySessionToken tokens sharedSecret hello.token (utc now)).toOption = none))
  | .failed _ | .drop => .isTrue trivial

/-- The event is no `Hello` of `peer`. -/
def Event.IsTraffic (codec : Codec) (peer : SocketAddr) (e : Event) : Prop :=
  match e with
  | .received _ addr _ _ => addr = peer → e.hello? codec = none
  | .failed _ | .drop => True

/-- Every packet of `peer` that comes from now on is pushed to the inbox, in the
order of arrival. -/
def KeepsSession (codec : Codec) (peer : SocketAddr) (inbox : Nat) (l : Listener) : Prop :=
  ∀ later l', (∀ e ∈ later, Event.IsTraffic codec peer e) →
    exec (step codec) l later = some l' →
    l'.sessions.boxes[inbox]? =
      (l.sessions.boxes[inbox]?).map (· ++ later.flatMap (Event.routed peer))

variable {codec : Codec} {l l' : Listener} {e : Event} {now : Nat} {addr peer : SocketAddr}
  {datagram : Bytes} {io : SocketIo} {hello : SessionHello} {inbox : Nat} {packets : List Packet}

/-! ## What a `Hello` does to the table -/

theorem handle_unacked (h : helloOf codec datagram = some (.ok hello)) (acks : ¬ io.AcksSent) :
    (l.handle codec now addr datagram io).sessions = l.sessions := by
  obtain ⟨packet, hp, hk, hparse⟩ := packetOf_of_helloOf h
  rw [handle_hello hp hk]
  simp only [handleHello, hparse]
  split
  next => simp
  next hack => exact absurd (sendAckBurst_ok_iff.mp hack) acks

theorem handle_opens (h : helloOf codec datagram = some (.ok hello)) (acks : io.AcksSent)
    (new : (isDuplicateHandshake l.recentHandshakes (hello.key addr) now).1 = false) :
    (l.handle codec now addr datagram io).sessions = l.sessions.register addr := by
  obtain ⟨packet, hp, hk, hparse⟩ := packetOf_of_helloOf h
  rw [handle_hello hp hk]
  simp only [handleHello, hparse, new, sendAckBurst_ok_iff.mpr acks]
  rw [if_neg Bool.false_ne_true]
  obtain ⟨more, h, -⟩ := openSession_eq _ addr hello io
  rw [h]

theorem helloOf_of_mem (h : hello ∈ (helloOf codec datagram).bind Except.toOption) :
    helloOf codec datagram = some (.ok hello) := by
  obtain ⟨result, hresult, hok⟩ := Option.bind_eq_some_iff.mp h
  cases result with
  | error message => cases hok
  | ok hello' =>
    cases hok
    exact hresult

/-- The `Hello` replaces the inbox. -/
theorem TakesOver.superseded (h : TakesOver codec peer l e)
    (hold : l.sessions.Holds peer inbox packets) (hs : l.step codec e = some l') :
    l'.sessions.Superseded peer inbox := by
  cases e with
  | received now addr datagram io =>
    obtain ⟨rfl, acks, hany⟩ := h
    obtain ⟨hello, hhello, hnew⟩ := (Option.any_eq_true _ _).mp hany
    simp only [step] at hs
    split at hs
    next => cases hs
    next =>
      cases hs
      rw [loopTest_sessions, handle_opens (helloOf_of_mem hhello) acks (by simpa using hnew)]
      exact hold.superseded
  | failed _ | drop => exact h.elim

/-- Nothing else does. -/
theorem holds_of_not_takesOver (h : ¬ TakesOver codec peer l e)
    (hold : l.sessions.Holds peer inbox packets) (hs : l.step codec e = some l') :
    l'.sessions.Holds peer inbox (packets ++ e.routed peer) := by
  by_cases hdup : OnlyDuplicates codec peer l e
  · exact (isolated_step hold hdup hs).1
  · -- a new `Hello` of the peer that is not acknowledged
    cases e with
    | received now addr datagram io =>
      simp only [OnlyDuplicates, not_forall] at hdup
      obtain ⟨hello, hhello, rfl, hnew⟩ := hdup
      have hparsed := helloOf_of_mem hhello
      have acks : ¬ io.AcksSent := by
        intro acks
        refine h ⟨rfl, acks, (Option.any_eq_true _ _).mpr ⟨hello, hhello, ?_⟩⟩
        simpa using hnew
      obtain ⟨packet, hp, hk, -⟩ := packetOf_of_helloOf hparsed
      simp only [step] at hs
      split at hs
      next => cases hs
      next =>
        cases hs
        rw [loopTest_sessions, handle_unacked hparsed acks, Event.routed, routed_hello hp hk,
          List.append_nil]
        exact hold
    | failed _ | drop => exact absurd trivial hdup

theorem superseded_step (h : l.sessions.Superseded peer inbox) (hs : l.step codec e = some l') :
    l'.sessions.Superseded peer inbox := by
  cases step_change hs with
  | quiet _ sessions _ => rw [sessions]; exact h
  | push packet _ _ sessions _ => rw [sessions]; exact h.post _ packet
  | opened _ _ _ sessions _ => rw [sessions]; exact h.register _

/-! ## Whole runs -/

/-- At the end of a run the session has its inbox, unless some `Hello` took over. -/
theorem holds_or_superseded (es : List Event) (hold : l.sessions.Holds peer inbox packets)
    (run : exec (step codec) l es = some l') :
    Meets (step codec) (fun x e => ¬ TakesOver codec peer x e) l es ∧
        l'.sessions.Holds peer inbox (packets ++ es.flatMap (Event.routed peer)) ∨
      ¬ Meets (step codec) (fun x e => ¬ TakesOver codec peer x e) l es ∧
        l'.sessions.Superseded peer inbox := by
  induction es generalizing l packets with
  | nil =>
    cases run
    exact Or.inl ⟨trivial, by simpa using hold⟩
  | cons e es ih =>
    obtain ⟨l₁, h₁, hrest⟩ := exec_cons_eq_some.mp run
    by_cases htake : TakesOver codec peer l e
    · refine Or.inr ⟨fun hm => hm.1 htake, ?_⟩
      exact exec_invariant_all (fun _ _ _ h hs => superseded_step h hs) es l₁ l'
        (htake.superseded hold h₁) hrest
    · rcases ih (holds_of_not_takesOver htake hold h₁) hrest with ⟨hm, hend⟩ | ⟨hm, hend⟩
      · refine Or.inl ⟨⟨htake, ?_⟩, by simpa using hend⟩
        intro l₂ h₂
        rw [h₁] at h₂
        cases h₂
        exact hm
      · exact Or.inr ⟨fun h => hm (h.2 l₁ h₁), hend⟩

theorem not_takesOver_of_isTraffic (h : Event.IsTraffic codec peer e) :
    ¬ TakesOver codec peer l e := by
  cases e with
  | received now addr datagram io =>
    rintro ⟨rfl, -, hany⟩
    rw [h rfl] at hany
    cases hany
  | failed _ | drop => exact id

/-- A session that has its inbox keeps it through everything but a `Hello`. -/
theorem keepsSession_of_holds (hold : l.sessions.Holds peer inbox packets) :
    KeepsSession codec peer inbox l := by
  intro later l' traffic run
  have hmeets : Meets (step codec) (fun x e => ¬ TakesOver codec peer x e) l later := by
    clear run hold
    induction later generalizing l with
    | nil => trivial
    | cons e later ih =>
      refine ⟨not_takesOver_of_isTraffic (traffic e List.mem_cons_self), ?_⟩
      intro l₁ _
      exact ih fun e he => traffic e (List.mem_cons_of_mem _ he)
  rcases holds_or_superseded later hold run with ⟨-, hend⟩ | ⟨hnot, -⟩
  · rw [hend.box, hold.box]
    rfl
  · exact absurd hmeets hnot

/-- Once the reader has returned, nothing is pushed anywhere. -/
theorem keepsSession_of_returned (h : l.returned = true) : KeepsSession codec peer inbox l := by
  intro later l' traffic run
  have hfrozen : l'.sessions = l.sessions ∧ later.flatMap (Event.routed peer) = [] := by
    clear traffic
    induction later generalizing l with
    | nil =>
      cases run
      exact ⟨rfl, rfl⟩
    | cons e later ih =>
      obtain ⟨l₁, h₁, hrest⟩ := exec_cons_eq_some.mp run
      cases e with
      | received now addr datagram io => simp [step, h] at h₁
      | failed error => simp [step, h] at h₁
      | drop =>
        obtain ⟨-, h₁⟩ := Option.ite_none_right_eq_some.mp h₁
        cases h₁
        obtain ⟨hsessions, hrouted⟩ := ih (l := { l with running := false }) h hrest
        exact ⟨hsessions, by simpa [Event.routed] using hrouted⟩
  rw [hfrozen.1, hfrozen.2]
  simp

/-- The peer's next packet goes to the inbox that replaced this one. -/
theorem not_keepsSession_of_superseded (h : l.sessions.Superseded peer inbox)
    (live : l.returned = false) : ¬ KeepsSession codec peer inbox l := by
  intro hkeeps
  have hp : packetOf (MAGIC ++ [4, 0, 0, 0, 0, 0, 0, 0, 0, 0, 0]) = some ⟨.ack, 0, []⟩ := by
    decide +kernel
  have hstep : exec (step codec) l [.received 0 peer (MAGIC ++ [4, 0, 0, 0, 0, 0, 0, 0, 0, 0, 0])
      .ok] = some { l with sessions := l.sessions.post peer ⟨.ack, 0, []⟩ }.loopTest := by
    simp only [exec, step, live, handle_packet hp (by decide), Bool.false_eq_true, if_false,
      Option.bind_some]
  have hbox := hkeeps _ _ (by simp [Event.IsTraffic, Event.hello?, helloOf, hp]) hstep
  obtain ⟨j, hj, hlt⟩ := id h
  have hsome : inbox < l.sessions.boxes.length := hlt.trans (l.sessions.bounded peer j hj)
  rw [loopTest_sessions, h.box_post, List.getElem?_eq_getElem hsome] at hbox
  simp [Event.routed, routed, hp] at hbox

/-- **Takeover.**  A session has its inbox, and since then every `Hello` of its peer
with a token that verifies was a recognised duplicate.  Then its inbox gets every
later packet of the peer as long as no `Hello` with a token that does not verify
was taken for a new one, and from then on no more. -/
theorem keepsSession_iff (tokens : TokenCodec) (sharedSecret : String) (utc : Nat → Int)
    (es : List Event) (hold : l.sessions.Holds peer inbox packets)
    (inUse : Meets (step codec) (fun x e =>
      ¬ Forged tokens sharedSecret utc codec e → ¬ TakesOver codec peer x e) l es)
    (run : exec (step codec) l es = some l') :
    KeepsSession codec peer inbox l' ↔ l'.returned = true ∨ Meets (step codec) (fun x e =>
      Forged tokens sharedSecret utc codec e → ¬ TakesOver codec peer x e) l es := by
  have hmeets : Meets (step codec) (fun x e => ¬ TakesOver codec peer x e) l es ↔
      Meets (step codec) (fun x e =>
        Forged tokens sharedSecret utc codec e → ¬ TakesOver codec peer x e) l es := by
    refine ⟨fun hm => hm.combine (fun _ _ h _ _ => h) hm, fun hm => hm.combine ?_ inUse⟩
    intro x e hforged hverified
    by_cases hf : Forged tokens sharedSecret utc codec e
    · exact hforged hf
    · exact hverified hf
  rw [← hmeets]
  rcases holds_or_superseded es hold run with ⟨hm, hend⟩ | ⟨hm, hend⟩
  · exact ⟨fun _ => Or.inr hm, fun _ => keepsSession_of_holds hend⟩
  · refine ⟨?_, ?_⟩
    · intro hkeeps
      by_contra hnot
      rw [not_or, Bool.not_eq_true] at hnot
      exact not_keepsSession_of_superseded hend hnot.1 hkeeps
    · rintro (hret | hm')
      · exact keepsSession_of_returned hret
      · exact absurd hm' hm

/-! ### A client and someone with its address -/

/-- `serde_json` on the texts of the runs below. -/
def victimCodec : Codec :=
  { sampleCodec with
    parseHello := fun payload =>
      if payload = helloJson sampleToken then .ok ⟨sampleToken, "svc_web", none⟩
      else sampleCodec.parseHello payload
    parseHello_nil := ⟨"EOF while parsing a value at line 1 column 0", by decide +kernel⟩ }

/-- The client's `Hello`, with the token it was granted. -/
def victimHello : Event := arrives sampleClient ⟨.hello, 0, helloJson sampleToken⟩

/-- A `Hello` under the client's address with a token that nobody issued. -/
def forgedHello : Event := arrives sampleClient ⟨.hello, 0, helloJson "b"⟩

/-- The client's data and its `Hello` again, and the made-up token under another
address. -/
def inUseRun : List Event :=
  [arrives sampleClient ⟨.data, 0, [1]⟩, victimHello,
    arrives otherClient ⟨.hello, 0, helloJson "b"⟩, arrives sampleClient ⟨.data, 1, [3]⟩]

theorem keepsSession_iff_inUse : ∃ l₁ l, init.step victimCodec victimHello = some l₁ ∧
    exec (step victimCodec) l₁ inUseRun = some l ∧
    l.sessions.boxes[0]? = some [⟨.data, 0, [1]⟩, ⟨.data, 1, [3]⟩] ∧
    KeepsSession victimCodec sampleClient 0 l := by
  obtain ⟨l₁, first, accepted, hmeets, l, run, hbox⟩ :
      ∃ l₁, init.step victimCodec victimHello = some l₁ ∧
        l₁.incoming = [.ok ⟨sampleClient, ⟨sampleToken, "svc_web", none⟩, 0⟩] ∧
        Meets (step victimCodec) (fun x e => ¬ TakesOver victimCodec sampleClient x e) l₁
          inUseRun ∧
        ∃ l, exec (step victimCodec) l₁ inUseRun = some l ∧
          l.sessions.boxes[0]? = some [⟨.data, 0, [1]⟩, ⟨.data, 1, [3]⟩] := by
    decide +kernel
  have hiff := keepsSession_iff sampleTokenCodec sampleSecret (fun _ => sampleIssued) inUseRun
    (holds_of_accepted first accepted) (hmeets.combine (fun _ _ h _ _ => h) hmeets) run
  exact ⟨l₁, l, first, run, hbox,
    hiff.mpr (Or.inr (hmeets.combine (fun _ _ h _ _ => h) hmeets))⟩

/-- The client's data ends in an inbox that its session does not read. -/
theorem forged_takes_over : ∃ l₁ l₂ l₃, init.step victimCodec victimHello = some l₁ ∧
    l₁.incoming = [.ok ⟨sampleClient, ⟨sampleToken, "svc_web", none⟩, 0⟩] ∧
    verifySessionToken sampleTokenCodec sampleSecret sampleToken sampleIssued = .ok sampleClaims ∧
    Forged sampleTokenCodec sampleSecret (fun _ => sampleIssued) victimCodec forgedHello ∧
    l₁.step victimCodec forgedHello = some l₂ ∧
    l₂.step victimCodec (arrives sampleClient ⟨.data, 0, [1]⟩) = some l₃ ∧
    l₃.sessions.boxes = [[], [⟨.data, 0, [1]⟩]] ∧
    ¬ KeepsSession victimCodec sampleClient 0 l₂ := by
  obtain ⟨l₁, h₁, accepted, takes, l₂, h₂, hlive, l₃, h₃, hboxes⟩ :
      ∃ l₁, init.step victimCodec victimHello = some l₁ ∧
        l₁.incoming = [.ok ⟨sampleClient, ⟨sampleToken, "svc_web", none⟩, 0⟩] ∧
        TakesOver victimCodec sampleClient l₁ forgedHello ∧
        ∃ l₂, l₁.step victimCodec forgedHello = some l₂ ∧ l₂.returned = false ∧
          ∃ l₃, l₂.step victimCodec (arrives sampleClient ⟨.data, 0, [1]⟩) = some l₃ ∧
            l₃.sessions.boxes = [[], [⟨.data, 0, [1]⟩]] := by
    decide +kernel
  have hsuperseded := takes.superseded (holds_of_accepted h₁ accepted) h₂
  exact ⟨l₁, l₂, l₃, h₁, accepted, verifySessionToken_sample (by decide), by decide +kernel, h₂, h₃,
    hboxes, not_keepsSession_of_superseded hsuperseded hlive⟩

end Listener

end MediumOverlay
