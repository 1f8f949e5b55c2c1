import MediumOverlay.Transport.Endpoint

/-!
# Two clones and their inbox

The node does not read the socket of a session.  Its listener pushes the packets
of a peer to a `PacketInbox`, and the clones of the session's stream take them
from there: each call takes the first packet of a kind it wants and leaves the
others.  The bridge uses two clones, one that reads and one that writes.

A `read` looks at `pending_read` once, before it waits.  While it waits, the
writer may take a data packet from the inbox, deliver it to `pending_read` and
acknowledge it.  When `Close` arrives next, the waiting `read` returns `Ok(0)` and
leaves those bytes behind (`close_leaves_bytes`).  `ReaderFirst` excludes this.
-/

namespace MediumOverlay

open Reassembly Trace

/-- `PacketInbox::recv_matching`: the first packet that matches, and the others. -/
def recvMatching (predicate : Packet → Bool) : List Packet → Option (Packet × List Packet)
  | [] => none
  | p :: packets =>
    if predicate p then some (p, packets)
    else (recvMatching predicate packets).map fun (q, rest) => (q, p :: rest)

/-- The packet was in the inbox, and so were the packets that stay. -/
theorem recvMatching_mem {predicate : Packet → Bool} {packets : List Packet} {p : Packet}
    {rest : List Packet} (h : recvMatching predicate packets = some (p, rest)) :
    p ∈ packets ∧ ∀ q ∈ rest, q ∈ packets := by
  induction packets generalizing rest with
  | nil => cases h
  | cons q packets ih =>
    unfold recvMatching at h
    split at h
    next =>
      cases h
      exact ⟨List.mem_cons_self, fun _ => List.mem_cons_of_mem _⟩
    next =>
      obtain ⟨⟨p', rest'⟩, hfound, heq⟩ := Option.map_eq_some_iff.mp h
      cases heq
      obtain ⟨hp, hrest⟩ := ih hfound
      refine ⟨List.mem_cons_of_mem _ hp, ?_⟩
      intro r hr
      rcases List.mem_cons.mp hr with rfl | hr
      · exact List.mem_cons_self
      · exact List.mem_cons_of_mem _ (hrest r hr)

/-- A stream of the node with its inbox. -/
structure Clones where
  stream : Endpoint
  inbox : List Packet

namespace Clones

inductive Event where
  /-- The listener pushes a packet. -/
  | push (p : Packet)
  /-- A clone that waits takes a packet.  If none matches, its time is up. -/
  | recv (h : Handle)
  /-- Any other step of a clone. -/
  | call (h : Handle) (e : MediumOverlay.Event)

def init : Clones := ⟨.init, []⟩

/-- `recv_matching` of the clone `h`. -/
def recv (σ : Cipher) (d : Direction) (x : Clones) (h : Handle) : Option Clones :=
  match x.stream.call h with
  | .recv op =>
    match recvMatching op.wants x.inbox with
    | some (p, rest) => (x.stream.step σ d (h, .recv (.ok p))).map fun y => ⟨y, rest⟩
    | none =>
      (x.stream.step σ d (h, .recv (.error .timedOut))).map fun y => { x with stream := y }
  | _ => none

def step (σ : Cipher) (d : Direction) (x : Clones) : Event → Option Clones
  | .push p => some { x with inbox := x.inbox ++ [p] }
  | .recv h => x.recv σ d h
  | .call _ (.recv _) => none
  | .call h e => (x.stream.step σ d (h, e)).map fun y => { x with stream := y }

/-- The clone that takes the step. -/
def Event.handle : Event → Option Handle
  | .push _ => none
  | .recv h => some h
  | .call h _ => some h

/-- The clone stands in `handle_data_packet` with the packet at `recv_seq`. -/
def deliversNext (x : Clones) : Call → Bool
  | .handle _ p => p.seq = x.stream.state.recvSeq
  | _ => false

/-- The call is a `read` that waits for a packet. -/
def isWaiting : Call → Bool
  | .recv (.read _) => true
  | _ => false

/-- The writer delivers a packet only while the reader is not waiting. -/
def ReaderFirst (x : Clones) : Event → Prop
  | .call .writer .lock => ¬ (x.deliversNext x.stream.writer ∧ isWaiting x.stream.reader)
  | _ => True

instance (x : Clones) : ∀ ev, Decidable (x.ReaderFirst ev)
  | .call .writer .lock => inferInstanceAs (Decidable (¬ (_ ∧ _)))
  | .push _ | .recv _ | .call .reader _ | .call .writer (.read _) | .call .writer (.write _)
  | .call .writer (.recv _) | .call .writer (.send _) => .isTrue trivial

variable {σ : Cipher} {d : Direction} {p : ℕ → Bytes} {x y : Clones} {ev : Event}

/-- What a step of the clones can do. -/
inductive Moves (σ : Cipher) (d : Direction) (x : Clones) : Event → Clones → Prop where
  | push (p : Packet) : Moves σ d x (.push p) { x with inbox := x.inbox ++ [p] }
  | took (h : Handle) (op : Op) (p : Packet) (rest : List Packet) (z : Endpoint)
      (found : recvMatching op.wants x.inbox = some (p, rest))
      (step : x.stream.step σ d (h, .recv (.ok p)) = some z) : Moves σ d x (.recv h) ⟨z, rest⟩
  | timedOut (h : Handle) (z : Endpoint)
      (step : x.stream.step σ d (h, .recv (.error .timedOut)) = some z) :
      Moves σ d x (.recv h) { x with stream := z }
  | call (h : Handle) (e : MediumOverlay.Event) (z : Endpoint) (not_recv : ∀ q, e ≠ .recv q)
      (step : x.stream.step σ d (h, e) = some z) :
      Moves σ d x (.call h e) { x with stream := z }

theorem step_moves (hs : x.step σ d ev = some y) : Moves σ d x ev y := by
  cases ev with
  | push q =>
    cases hs
    exact .push q
  | recv h =>
    simp only [step, recv] at hs
    split at hs
    next op hop =>
      split at hs
      next q rest hfound =>
        obtain ⟨z, hz, rfl⟩ := Option.map_eq_some_iff.mp hs
        exact .took h op q rest z hfound hz
      next =>
        obtain ⟨z, hz, rfl⟩ := Option.map_eq_some_iff.mp hs
        exact .timedOut h z hz
    next => cases hs
  | call h e =>
    cases e with
    | recv q => cases hs
    | read _ | write _ | lock | send _ =>
      obtain ⟨z, hz, rfl⟩ := Option.map_eq_some_iff.mp hs
      exact .call h _ z (by simp) hz

/-- A step of the clones is a push, or a step of the stream by the same clone. -/
theorem step_eq_some (hs : x.step σ d ev = some y) :
    y.stream = x.stream ∧ ev.handle = none ∨
      ∃ h e, ev.handle = some h ∧ x.stream.step σ d (h, e) = some y.stream ∧
        (e = .lock → ev = .call h .lock) := by
  cases step_moves hs with
  | push q => exact Or.inl ⟨rfl, rfl⟩
  | took h op q rest z _ hz => exact Or.inr ⟨h, _, rfl, hz, fun he => by cases he⟩
  | timedOut h z hz => exact Or.inr ⟨h, _, rfl, hz, fun he => by cases he⟩
  | call h e z _ hz => exact Or.inr ⟨h, e, rfl, hz, fun he => by rw [he]⟩

end Clones

/-! ## What a waiting reader relies on -/

variable {s t : SessionState}

/-- A `read` waits only after it found nothing. -/
theorem Call.Rule.waits {σ : Cipher} {d : Direction} {c : Call} {e : Event} {r : Option Done}
    {len : Nat} (h : Call.Rule σ d s c e (.recv (.read len)) t r) : t = s ∧ s.pendingRead = [] := by
  generalize hc : Call.recv (.read len) = c' at h
  cases h with
  | wait len' at_read empty => exact ⟨rfl, empty⟩
  | ackSent op seq => cases op <;> cases hc
  | _ => cases hc

/-- A `read` with a buffer returns no bytes only on `Close`. -/
theorem Call.Rule.read_nil {σ : Cipher} {d : Direction} {c c' : Call} {e : Event} {len : Nat}
    (h : Call.Rule σ d s c e c' t (some (.read len (.ok [])))) (hlen : 0 < len) :
    c = .recv (.read len) ∧ t = s ∧ ∃ p, e = .recv (.ok p) ∧ p.kind = .close := by
  generalize hr : some (Done.read len (.ok [])) = r at h
  cases h with
  | fill len' at_read waiting =>
    simp only [Option.some.injEq, Done.read.injEq, Except.ok.injEq] at hr
    obtain ⟨rfl, htake⟩ := hr
    rcases List.take_eq_nil_iff.mp htake.symm with h0 | hnil
    · omega
    · exact absurd hnil waiting
  | readClose len' q kind =>
    cases hr
    exact ⟨rfl, rfl, q, rfl, kind⟩
  | recvFail op error => cases op <;> cases hr
  | reject op q forged => cases op <;> cases hr
  | ackFail op seq error => cases op <;> cases hr
  | _ => cases hr

/-- Only the packet at `recv_seq` reaches `pending_read`. -/
theorem SessionState.handleData_pendingRead {seq : UInt64} {plaintext : Bytes}
    (hne : seq ≠ s.recvSeq) (h : s.handleData seq plaintext = some t) :
    t.pendingRead = s.pendingRead := by
  rcases handleData_cases h with ⟨-, rfl⟩ | ⟨-, rfl⟩ | ⟨heq, -⟩
  · rfl
  · rfl
  · exact absurd heq hne

namespace Clones

variable {σ : Cipher} {d : Direction} {p : ℕ → Bytes} {x y : Clones} {ev : Event}

/-- A waiting reader has nothing to return. -/
def Waiting (x : Clones) : Prop :=
  ∀ len, x.stream.reader = .recv (.read len) → x.stream.state.pendingRead = []

theorem Waiting.step (hx : Waiting x) (first : x.ReaderFirst ev) (hs : x.step σ d ev = some y) :
    Waiting y := by
  intro len hlen
  rcases step_eq_some hs with ⟨hy, _⟩ | ⟨h, e, hh, hstep, hlock⟩
  · rw [hy] at hlen ⊢
    exact hx len hlen
  · obtain ⟨n, hy, hr⟩ := Endpoint.step_rule hstep
    rw [hy] at hlen ⊢
    cases h with
    | reader =>
      rw [show n.call = .recv (.read len) from hlen] at hr
      obtain ⟨hstate, hempty⟩ := hr.waits
      show n.state.pendingRead = []
      rw [hstate]
      exact hempty
    | writer =>
      have hempty := hx len hlen
      show n.state.pendingRead = []
      rcases hr.receiving with ⟨k, hstate, _, _⟩ | ⟨op, q, plaintext, hc, _, _, _, hhandle⟩ |
        ⟨_, hread, _⟩
      · rw [hstate, hempty]
        exact List.drop_nil
      · -- the writer delivers: the condition says it is not the next packet
        rw [hc] at hr
        rw [hlock hr.handle_lock] at first
        have hne : q.seq ≠ x.stream.state.recvSeq := by
          intro heq
          refine first ⟨?_, ?_⟩
          · rw [show x.stream.writer = .handle op q from hc]
            exact decide_eq_true heq
          · rw [show x.stream.reader = .recv (.read len) from hlen]
            rfl
        rw [SessionState.handleData_pendingRead hne hhandle]
        exact hempty
      · rw [hread]
        exact hempty

theorem receiving_step (ideal : IdealAead σ d.peer p) (hx : x.stream.Receiving p)
    (hs : x.step σ d ev = some y) : y.stream.Receiving p := by
  rcases step_eq_some hs with ⟨hy, _⟩ | ⟨h, e, _, hstep, _⟩
  · rw [hy]
    exact hx
  · exact hx.step ideal hstep

/-- **End of stream.**  While the writer delivers packets only when the reader is
not waiting, a `read` of the reader that returns `Ok(0)` leaves nothing behind:
`pending_read` is empty, and with an ideal AEAD the bytes of every packet
acknowledged in order were returned. -/
theorem eof_leaves_nothing (es : List Clones.Event)
    (first : Meets (Clones.step σ d) ReaderFirst init (es ++ [ev]))
    (run : exec (Clones.step σ d) init es = some x) (hs : x.step σ d ev = some y)
    (reader : ev.handle = some .reader) (len : Nat) (hlen : 0 < len)
    (eof : y.stream.log = x.stream.log ++ [.read len (.ok [])]) :
    y.stream.state.pendingRead = [] ∧ ∀ p, IdealAead σ d.peer p →
      returnedBytes y.stream.log = upTo p y.stream.state.recvSeq.toNat ∧
      ∀ q ∈ y.stream.sent, q.kind = .ack → q.seq < y.stream.state.recvSeq →
        upTo p (q.seq.toNat + 1) <+: returnedBytes y.stream.log := by
  have hwait : Waiting x := by
    refine exec_invariant ?_ es _ _ (fun _ h => by cases h) (Meets.of_append first) run
    intro s e t hI hok hs
    exact hI.step hok hs
  -- `Ok(0)` comes from `Close`, and the reader that took it was waiting
  have hempty : y.stream.state.pendingRead = [] := by
    rcases step_eq_some hs with ⟨_, hnone⟩ | ⟨h, e, hh, hstep, _⟩
    · rw [hnone] at reader
      cases reader
    · rw [hh] at reader
      cases reader
      obtain ⟨n, hy, hr⟩ := Endpoint.step_rule hstep
      have hdone : n.done = some (.read len (.ok [])) := by
        rw [hy] at eof
        have htail := List.append_cancel_left (show x.stream.log ++ n.done.toList = _ from eof)
        cases hd : n.done with
        | none => simp [hd] at htail
        | some r => simpa [hd] using htail
      rw [hdone] at hr
      obtain ⟨hcall, hstate, _⟩ := hr.read_nil hlen
      rw [hy]
      show n.state.pendingRead = []
      rw [hstate]
      exact hwait len hcall
  refine ⟨hempty, ?_⟩
  intro p ideal
  have hrec : y.stream.Receiving p := by
    refine receiving_step ideal ?_ hs
    exact exec_invariant_all (fun s e t hI hs => receiving_step ideal hI hs) es _ _
      (Endpoint.Receiving.init p) run
  have hall : returnedBytes y.stream.log = upTo p y.stream.state.recvSeq.toNat := by
    have hout := hrec.assembled.out_eq
    rwa [hempty, List.append_nil] at hout
  refine ⟨hall, ?_⟩
  intro q _ _ hq
  rw [hall]
  exact upTo_isPrefix p (UInt64.lt_iff_toNat_lt.mp hq)

/-! ### `Close` behind a packet -/

/-- Both clones wait, and a packet and `Close` are pushed. -/
def bothWaiting : List Clones.Event :=
  [.call .reader (.read 16), .call .writer (.write [1]), .call .writer (.send (.ok ())),
    .push (boxed .clientToNode 0 (abcdef 0)), .push ⟨.close, 0, []⟩]

/-- A clone takes the packet and acknowledges it. -/
def takes (h : Handle) : List Clones.Event :=
  [.recv h, .call h .lock, .call h (.send (.ok ()))]

/-- The reader takes the packet and returns it, and its next `read` gets `Close`. -/
def readerTakesRun : List Clones.Event :=
  bothWaiting ++ takes .reader ++ [.call .reader .lock, .call .reader (.read 16)]

theorem eof_leaves_nothing_readerTakes :
    ∃ x y, exec (Clones.step (onlyCipher abcdef) .nodeToClient) init readerTakesRun = some x ∧
      x.step (onlyCipher abcdef) .nodeToClient (.recv .reader) = some y ∧
      y.stream.log = x.stream.log ++ [.read 16 (.ok [])] ∧
      returnedBytes y.stream.log = [97, 98, 99] ∧ y.stream.state.pendingRead = [] := by
  obtain ⟨x, hx, y, hy, heof, hret⟩ :
      ∃ x, exec (Clones.step (onlyCipher abcdef) .nodeToClient) init readerTakesRun = some x ∧
        ∃ y, x.step (onlyCipher abcdef) .nodeToClient (.recv .reader) = some y ∧
          y.stream.log = x.stream.log ++ [.read 16 (.ok [])] ∧
          returnedBytes y.stream.log = [97, 98, 99] := by
    decide +kernel
  have first : Meets (Clones.step (onlyCipher abcdef) .nodeToClient) ReaderFirst init
      (readerTakesRun ++ [.recv .reader]) := by decide +kernel
  exact ⟨x, y, hx, hy, heof, hret, (eof_leaves_nothing readerTakesRun first hx hy rfl 16
    (by decide) heof).1⟩

/-- The writer takes the packet, and the reader is left with `Close`. -/
def writerTakesRun : List Clones.Event := bothWaiting ++ takes .writer

theorem close_leaves_bytes :
    ∃ x y, exec (Clones.step (onlyCipher abcdef) .nodeToClient) init writerTakesRun = some x ∧
      x.step (onlyCipher abcdef) .nodeToClient (.recv .reader) = some y ∧
      y.stream.log = x.stream.log ++ [.read 16 (.ok [])] ∧ returnedBytes y.stream.log = [] ∧
      ⟨.ack, 0, []⟩ ∈ y.stream.sent ∧ y.stream.state.recvSeq = 1 ∧
      y.stream.state.pendingRead = [97, 98, 99] := by
  obtain ⟨x, hx, y, hy, hfacts⟩ :
      ∃ x, exec (Clones.step (onlyCipher abcdef) .nodeToClient) init writerTakesRun = some x ∧
        ∃ y, x.step (onlyCipher abcdef) .nodeToClient (.recv .reader) = some y ∧
          y.stream.log = x.stream.log ++ [.read 16 (.ok [])] ∧
          returnedBytes y.stream.log = [] ∧ ⟨.ack, 0, []⟩ ∈ y.stream.sent ∧
          y.stream.state.recvSeq = 1 ∧ y.stream.state.pendingRead = [97, 98, 99] := by
    decide +kernel
  exact ⟨x, y, hx, hy, hfacts⟩

end Clones

end MediumOverlay
