import MediumOverlay.Transport.Takeover

/-!
# The table of the listener and the streams it serves

`active_sessions` gets an entry for every address that opens a session, and nothing
takes an entry out.  The stream of a session is dropped when its bridge ends, and the
listener does not learn of it: the entry stays, and what the address sends is still
pushed to the inbox, which no one reads any more.

`Lifetimes` is the listener together with the streams that have been dropped and with
the history of its handshakes, which are the `Hello`s that opened a session: one that
repeats a recent handshake is no new one.  `Tracked` says that the table is determined by
that history.  An entry has a stream, or its handshake is of the last 30 seconds, or it is
*stale*.  `listener_bounded` is about runs without stale entries.
-/

namespace MediumOverlay.Listener

open Trace

/-- The listener, its streams and its history. -/
structure Lifetimes where
  listener : Listener
  /-- The inboxes of the accepted streams that have been dropped. -/
  dropped : List Nat
  /-- The sources and times of the handshakes.  The number of one is that of its inbox. -/
  handshakes : List (SocketAddr × Nat)
  now : Nat

namespace Lifetimes

inductive Event where
  | reader (e : Listener.Event)
  /-- The last handle on the stream of an accepted session is dropped. -/
  | dropStream (inbox : Nat)
  | tick (now : Nat)

def init : Lifetimes := ⟨.init, [], [], 0⟩

/-- The sessions that were sent over the channel. -/
def accepted (x : Lifetimes) : List AcceptedUdpSession :=
  x.listener.incoming.filterMap Except.toOption

/-- The number of accepted sessions whose stream is alive. -/
def alive (x : Lifetimes) : Nat :=
  (x.accepted.filter fun session => session.inbox ∉ x.dropped).length

/-- The number of handshakes of the last 30 seconds. -/
def recent (x : Lifetimes) : Nat :=
  (x.handshakes.filter fun h => x.now - h.2 ≤ DUPLICATE_HANDSHAKE_WINDOW).length

def step (codec : Codec) (x : Lifetimes) : Event → Option Lifetimes
  | .reader e =>
    (x.listener.step codec e).map fun l =>
      match e with
      | .received now addr _ _ =>
        { x with
          listener := l
          handshakes :=
            x.handshakes ++ if TakesOver codec addr x.listener e then [(addr, now)] else []
          now := now }
      | .failed _ | .drop => { x with listener := l }
  | .dropStream inbox =>
    if (x.accepted.any fun session => session.inbox = inbox) ∧ inbox ∉ x.dropped then
      some { x with dropped := x.dropped ++ [inbox] }
    else none
  | .tick now => some { x with now := now }

/-! ## What is measured -/

/-- The table has no more entries than there are streams and recent handshakes. -/
def Bounded (x : Lifetimes) : Prop :=
  x.listener.sessions.table.keys.length ≤ x.alive + x.recent

/-- No inbox of a dropped stream has changed. -/
def Undisturbed (x y : Lifetimes) : Prop :=
  ∀ n ∈ x.dropped, y.listener.sessions.boxes[n]? = x.listener.sessions.boxes[n]?

/-- The stream of a session is alive. -/
def HasStream (x : Lifetimes) (n : Nat) : Prop :=
  (∃ session ∈ x.accepted, session.inbox = n) ∧ n ∉ x.dropped

instance (x : Lifetimes) (n : Nat) : Decidable (x.HasStream n) :=
  inferInstanceAs (Decidable (_ ∧ _))

/-- The handshake is the last one of its address. -/
def IsLast (x : Lifetimes) (n : Nat) (h : SocketAddr × Nat) : Prop :=
  x.handshakes[n]? = some h ∧ ∀ later ∈ x.handshakes.drop (n + 1), later.1 ≠ h.1

instance (x : Lifetimes) (n : Nat) (h : SocketAddr × Nat) : Decidable (x.IsLast n h) :=
  inferInstanceAs (Decidable (_ ∧ ∀ later ∈ x.handshakes.drop (n + 1), _))

/-- The time of an event. -/
def timeOf (x : Lifetimes) : Event → Nat
  | .reader (.received now _ _ _) | .tick now => now
  | .reader (.failed _) | .reader .drop | .dropStream _ => x.now

/-- The stream is dropped. -/
def Event.drops (n : Nat) : Event → Bool
  | .dropStream inbox => inbox = n
  | .reader _ | .tick _ => false

/-- At an event, the last session of every address has a stream that it does not lose, or its
handshake is of the last 30 seconds. -/
def Fresh (x : Lifetimes) (e : Event) : Prop :=
  ∀ p ∈ x.handshakes.zipIdx, x.IsLast p.2 p.1 → ¬x.HasStream p.2 ∨ e.drops p.2 →
    x.timeOf e - p.1.2 ≤ DUPLICATE_HANDSHAKE_WINDOW

instance (x : Lifetimes) (e : Event) : Decidable (x.Fresh e) :=
  inferInstanceAs (Decidable (∀ p ∈ x.handshakes.zipIdx, _ → _ → _))

/-- A packet does not come from an address whose last session has lost its stream. -/
def Delivers (x : Lifetimes) : Event → Prop
  | .reader (.received _ addr datagram _) => ∀ packet ∈ packetOf datagram, packet.kind ≠ .hello →
      ∀ n ∈ x.dropped, ∀ h ∈ x.handshakes, h.1 = addr → ¬x.IsLast n h
  | .reader (.failed _) | .reader .drop | .dropStream _ | .tick _ => True

instance (x : Lifetimes) : ∀ e, Decidable (x.Delivers e)
  | .reader (.received _ _ datagram _) =>
    inferInstanceAs (Decidable (∀ packet ∈ packetOf datagram, _ → ∀ n ∈ x.dropped, _))
  | .reader (.failed _) | .reader .drop | .dropStream _ | .tick _ => .isTrue trivial

variable {codec : Codec} {x y : Lifetimes} {e : Event} {l l' : Listener} {now : Nat}
  {addr : SocketAddr} {datagram : Bytes} {io : SocketIo}

/-! ## The table follows the history -/

theorem step_received (h : l.step codec (.received now addr datagram io) = some l') :
    l'.sessions = (l.handle codec now addr datagram io).sessions := by
  simp only [Listener.step] at h
  split at h
  next => cases h
  next =>
    cases h
    rfl

/-- A `Hello` that opens a session takes over. -/
theorem takesOver_of_register {hello : SessionHello}
    (h : l.step codec (.received now addr datagram io) = some l')
    (parsed : helloOf codec datagram = some (.ok hello))
    (new : (isDuplicateHandshake l.recentHandshakes (hello.key addr) now).1 = false)
    (sessions : l'.sessions = l.sessions.register addr) :
    TakesOver codec addr l (.received now addr datagram io) := by
  refine ⟨rfl, ?_, ?_⟩
  · by_contra hacks
    rw [step_received h, handle_unacked parsed hacks] at sessions
    have hlength := congrArg (fun m => m.boxes.length) sessions
    simp [Mailboxes.register] at hlength
  · simp [Listener.Event.hello?, parsed, Except.toOption, new]

/-- A `Hello` that takes over opens an inbox. -/
theorem length_boxes_of_takesOver (h : l.step codec (.received now addr datagram io) = some l')
    (takes : TakesOver codec addr l (.received now addr datagram io)) :
    l'.sessions.boxes.length = l.sessions.boxes.length + 1 := by
  obtain ⟨-, acks, hany⟩ := takes
  obtain ⟨hello, hhello, hnew⟩ := (Option.any_eq_true _ _).mp hany
  rw [step_received h, handle_opens (helloOf_of_mem hhello) acks (by simpa using hnew)]
  simp [Mailboxes.register]

/-- The history goes on with the `Hello`s that take over. -/
theorem registered_step {handshakes : List (SocketAddr × Nat)}
    (hreg : l.sessions.Registered (handshakes.map Prod.fst))
    (h : l.step codec (.received now addr datagram io) = some l') :
    l'.sessions.Registered ((handshakes ++ if TakesOver codec addr l
      (.received now addr datagram io) then [(addr, now)] else []).map Prod.fst) := by
  have hnot : l'.sessions.boxes.length = l.sessions.boxes.length →
      ¬ TakesOver codec addr l (.received now addr datagram io) := by
    intro hlength htakes
    have := length_boxes_of_takesOver h htakes
    omega
  cases step_change h with
  | quiet none sessions incoming =>
    rw [if_neg (hnot (by rw [sessions])), List.append_nil, sessions]
    exact hreg
  | push packet decoded kind sessions incoming =>
    have hpost := hreg.post addr packet
    rw [if_neg (hnot (by rw [sessions, hpost.boxes, hreg.boxes])), List.append_nil, sessions]
    exact hpost
  | opened hello parsed new sessions incoming =>
    rw [if_pos (takesOver_of_register h parsed new sessions), sessions, List.map_append]
    exact hreg.register addr

/-! ## Runs -/

/-- The table is that of the history, and its inboxes have been there. -/
structure Tracked (x : Lifetimes) : Prop where
  registered : x.listener.sessions.Registered (x.handshakes.map Prod.fst)
  accepted : ∀ session ∈ x.accepted, session.inbox < x.listener.sessions.boxes.length
  dropped : ∀ n ∈ x.dropped, n < x.listener.sessions.boxes.length

theorem init_tracked : Tracked init where
  registered := Mailboxes.registered_empty
  accepted := by simp [Lifetimes.accepted, init, Listener.init]
  dropped := by simp [init]

/-- The inboxes and the sessions stay, and a new session has the newest inbox. -/
theorem accepted_step {e : Listener.Event} (h : l.step codec e = some l') :
    l.sessions.boxes.length ≤ l'.sessions.boxes.length ∧ l.incoming ⊆ l'.incoming ∧
      ∀ session, .ok session ∈ l'.incoming →
        .ok session ∈ l.incoming ∨ session.inbox < l'.sessions.boxes.length := by
  cases step_change h with
  | quiet none sessions incoming =>
    obtain ⟨more, hmore, herr⟩ := incoming
    refine ⟨by rw [sessions], hmore ▸ List.subset_append_left _ _, fun session hs => Or.inl ?_⟩
    rw [hmore] at hs
    rcases List.mem_append.mp hs with hs | hs
    · exact hs
    · obtain ⟨error, herror⟩ := herr _ hs
      cases herror
  | push packet decoded kind sessions incoming =>
    refine ⟨?_, incoming ▸ List.Subset.refl _, fun session hs => Or.inl (incoming ▸ hs)⟩
    rw [sessions, Mailboxes.post]
    split
    · rfl
    · simp
  | opened hello parsed new sessions incoming =>
    obtain ⟨more, hmore, hall⟩ := incoming
    have hlength : l'.sessions.boxes.length = l.sessions.boxes.length + 1 := by
      simp [sessions, Mailboxes.register]
    refine ⟨by omega, hmore ▸ List.subset_append_left _ _, fun session hs => ?_⟩
    rw [hmore] at hs
    rcases List.mem_append.mp hs with hs | hs
    · exact Or.inl hs
    · rcases hall _ hs with ⟨error, herror⟩ | hok
      · cases herror
      · cases hok
        exact Or.inr (by rw [hlength]; exact Nat.lt_succ_self _)

theorem mem_accepted_iff {session : AcceptedUdpSession} :
    session ∈ x.accepted ↔ .ok session ∈ x.listener.incoming := by
  unfold accepted
  rw [List.mem_filterMap]
  constructor
  · rintro ⟨message, hmem, hok⟩
    cases message with
    | error => cases hok
    | ok =>
      cases hok
      exact hmem
  · exact fun hmem => ⟨.ok session, hmem, rfl⟩

/-- A step of the reader. -/
theorem Tracked.reader (h : Tracked x) {e : Listener.Event}
    (hs : x.listener.step codec e = some y.listener) (dropped : y.dropped = x.dropped)
    (registered : y.listener.sessions.Registered (y.handshakes.map Prod.fst)) : Tracked y := by
  obtain ⟨hgrow, -, hnew⟩ := accepted_step hs
  refine ⟨registered, ?_, ?_⟩
  · intro session hsession
    rcases hnew session (mem_accepted_iff.mp hsession) with hold | hlt
    · exact (h.accepted session (mem_accepted_iff.mpr hold)).trans_le hgrow
    · exact hlt
  · rw [dropped]
    exact fun n hn => (h.dropped n hn).trans_le hgrow

theorem step_tracked (h : Tracked x) (hs : step codec x e = some y) : Tracked y := by
  cases e with
  | reader e =>
    obtain ⟨l', hl, hy⟩ := Option.map_eq_some_iff.mp hs
    cases e with
    | received now addr datagram io =>
      subst hy
      exact h.reader hl rfl (registered_step h.registered hl)
    | failed | drop =>
      subst hy
      refine h.reader hl rfl ?_
      cases step_change hl with
      | quiet none sessions incoming =>
        rw [sessions]
        exact h.registered
  | dropStream inbox =>
    obtain ⟨⟨hany, -⟩, hy⟩ := Option.ite_none_right_eq_some.mp hs
    cases hy
    obtain ⟨session, hmem, hinbox⟩ := List.any_eq_true.mp hany
    refine ⟨h.registered, h.accepted, ?_⟩
    intro n hn
    rcases List.mem_append.mp hn with hn | hn
    · exact h.dropped n hn
    · rw [List.mem_singleton.mp hn, ← of_decide_eq_true hinbox]
      exact h.accepted session hmem
  | tick now =>
    cases hs
    exact ⟨h.registered, h.accepted, h.dropped⟩

/-- The entry of an address is that of its last handshake. -/
theorem Tracked.isLast (h : Tracked x) {n : Nat}
    (hlookup : x.listener.sessions.table.lookup addr = some n) :
    ∃ time, x.IsLast n (addr, time) := by
  obtain ⟨hget, hlater⟩ := (h.registered.lookup addr n).mp hlookup
  rw [List.getElem?_map] at hget
  obtain ⟨⟨_, time⟩, hentry, rfl⟩ := Option.map_eq_some_iff.mp hget
  refine ⟨time, hentry, fun later hmem heq => hlater ?_⟩
  rw [← List.map_drop, ← heq]
  exact List.mem_map_of_mem hmem

/-! ### No packet for a dropped stream -/

theorem undisturbed_of_delivers (h : Tracked x) (hs : step codec x e = some y)
    (delivers : x.Delivers e) : x.Undisturbed y := by
  intro n hn
  cases e with
  | reader e =>
    obtain ⟨l', hl, hy⟩ := Option.map_eq_some_iff.mp hs
    have hlistener : y.listener = l' := by
      subst hy
      cases e <;> rfl
    rw [hlistener]
    cases step_change hl with
    | quiet none sessions incoming => rw [sessions]
    | @push now addr _ _ _ packet decoded kind sessions incoming =>
      rw [sessions, Mailboxes.box_post_eq_iff addr packet (h.dropped n hn)]
      intro hlookup
      obtain ⟨time, hlast⟩ := h.isLast hlookup
      exact delivers packet decoded kind n hn _ (List.mem_of_getElem? hlast.1) rfl hlast
    | opened hello parsed new sessions incoming =>
      rw [sessions, Mailboxes.register, List.getElem?_append_left (h.dropped n hn)]
  | dropStream inbox =>
    obtain ⟨-, hy⟩ := Option.ite_none_right_eq_some.mp hs
    cases hy
    rfl
  | tick now =>
    cases hs
    rfl

/-! ### The size of the table -/

/-- An entry without a stream counts as a recent handshake. -/
theorem bounded_of_forall_isLast (h : Tracked x)
    (hentry : ∀ n h, x.IsLast n h →
      x.HasStream n ∨ x.now - h.2 ≤ DUPLICATE_HANDSHAKE_WINDOW) : x.Bounded := by
  -- the inboxes with a stream, and those of recent handshakes
  let streams := ((x.accepted.filter fun session => session.inbox ∉ x.dropped).map
    AcceptedUdpSession.inbox).toFinset
  let recents := ((x.handshakes.zipIdx.filter fun p =>
    x.now - p.1.2 ≤ DUPLICATE_HANDSHAKE_WINDOW).map Prod.snd).toFinset
  have hstreams : streams.card ≤ x.alive := by
    refine (List.toFinset_card_le _).trans ?_
    rw [List.length_map, alive]
  have hrecents : recents.card ≤ x.recent := by
    refine (List.toFinset_card_le _).trans ?_
    rw [List.length_map, recent, ← List.zipIdx_map_fst 0 x.handshakes, List.filter_map,
      List.length_map, List.zipIdx_map_fst]
    rfl
  have hcover : (x.handshakes.map Prod.fst).toFinset.image some
      ⊆ (streams ∪ recents).image fun n => x.handshakes[n]?.map Prod.fst := by
    intro a ha
    obtain ⟨addr, haddr, rfl⟩ := Finset.mem_image.mp ha
    have hkey := (h.registered.mem addr).mpr (List.mem_toFinset.mp haddr)
    obtain ⟨n, hlookup⟩ := Option.isSome_iff_exists.mp (AList.lookup_isSome.mpr hkey)
    obtain ⟨time, hlast⟩ := h.isLast hlookup
    refine Finset.mem_image.mpr ⟨n, Finset.mem_union.mpr ?_, by rw [hlast.1]; rfl⟩
    refine (hentry n _ hlast).imp ?_ ?_
    · rintro ⟨⟨session, hmem, rfl⟩, hdropped⟩
      exact List.mem_toFinset.mpr (List.mem_map_of_mem (List.mem_filter.mpr
        ⟨hmem, decide_eq_true hdropped⟩))
    · intro hrecent
      refine List.mem_toFinset.mpr (List.mem_map.mpr ⟨((addr, time), n), ?_, rfl⟩)
      exact List.mem_filter.mpr
        ⟨List.mem_zipIdx_iff_getElem?.mpr hlast.1, decide_eq_true hrecent⟩
  calc x.listener.sessions.table.keys.length
      = (x.handshakes.map Prod.fst).toFinset.card := by
        rw [h.registered.length_keys, List.card_toFinset]
    _ = ((x.handshakes.map Prod.fst).toFinset.image some).card :=
        (Finset.card_image_of_injective _ (Option.some_injective _)).symm
    _ ≤ (streams ∪ recents).card := (Finset.card_le_card hcover).trans Finset.card_image_le
    _ ≤ x.alive + x.recent := (Finset.card_union_le _ _).trans (Nat.add_le_add hstreams hrecents)

/-- What a step leaves of the history, of the streams and of the time. -/
structure Grows (x : Lifetimes) (e : Event) (y : Lifetimes) : Prop where
  now : y.now = x.timeOf e
  handshakes : ∃ more, y.handshakes = x.handshakes ++ more ∧ ∀ h ∈ more, h.2 = y.now
  accepted : ∀ session ∈ x.accepted, session ∈ y.accepted
  dropped : ∀ n ∈ y.dropped, n ∈ x.dropped ∨ e.drops n = true

theorem step_grows (hs : step codec x e = some y) : Grows x e y := by
  cases e with
  | reader e =>
    obtain ⟨l', hl, hy⟩ := Option.map_eq_some_iff.mp hs
    have haccepted := (accepted_step hl).2.1
    subst hy
    cases e with
    | received now addr datagram io =>
      refine ⟨rfl, ⟨_, rfl, ?_⟩, fun session hmem =>
        mem_accepted_iff.mpr (haccepted (mem_accepted_iff.mp hmem)), fun _ => .inl⟩
      intro handshake hmem
      split at hmem
      · rw [List.mem_singleton.mp hmem]
      · cases hmem
    | failed | drop =>
      exact ⟨rfl, ⟨[], by simp, by simp⟩, fun session hmem =>
        mem_accepted_iff.mpr (haccepted (mem_accepted_iff.mp hmem)), fun _ => .inl⟩
  | dropStream inbox =>
    obtain ⟨-, hy⟩ := Option.ite_none_right_eq_some.mp hs
    cases hy
    refine ⟨rfl, ⟨[], by simp, by simp⟩, fun _ => id, fun n hn => ?_⟩
    refine (List.mem_append.mp hn).imp id fun hn => ?_
    rw [List.mem_singleton.mp hn, Event.drops, decide_eq_true rfl]
  | tick now =>
    cases hs
    exact ⟨rfl, ⟨[], by simp, by simp⟩, fun _ => id, fun _ => .inl⟩

/-- What was fresh before the step counts after it, and so does what the step opens. -/
theorem bounded_of_fresh (h : Tracked x) (hs : step codec x e = some y) (fresh : x.Fresh e) :
    y.Bounded := by
  obtain ⟨hnow, ⟨more, hmore, hnew⟩, haccepted, hdropped⟩ := step_grows hs
  refine bounded_of_forall_isLast (step_tracked h hs) fun n handshake hlast => ?_
  by_cases hstream : y.HasStream n
  · exact .inl hstream
  · right
    obtain ⟨hget, hlater⟩ := hlast
    rw [hmore] at hget hlater
    by_cases hn : n < x.handshakes.length
    · rw [List.getElem?_append_left hn] at hget
      rw [List.drop_append_of_le_length hn] at hlater
      have hold : x.IsLast n handshake :=
        ⟨hget, fun later hmem => hlater later (List.mem_append_left _ hmem)⟩
      rw [hnow]
      refine fresh (handshake, n) (List.mem_zipIdx_iff_getElem?.mpr hget) hold ?_
      by_contra hlives
      obtain ⟨hhas, hne⟩ := not_or.mp hlives
      obtain ⟨⟨session, hmem, hinbox⟩, hdrop⟩ := not_not.mp hhas
      refine hstream ⟨⟨session, haccepted session hmem, hinbox⟩, fun hmem => ?_⟩
      exact (hdropped n hmem).elim hdrop hne
    · rw [List.getElem?_append_right (Nat.le_of_not_lt hn)] at hget
      rw [hnew _ (List.mem_of_getElem? hget), Nat.sub_self]
      exact Nat.zero_le _

/-- **The table and its streams.**  In a run without stale entries, in which no packet comes from
an address whose last session has lost its stream, after every step the table has at most one
entry for each live stream and each handshake of the last 30 seconds, and no step pushes a
packet to the inbox of a dropped stream. -/
theorem listener_bounded (codec : Codec) (es : List Event)
    (h : Meets (step codec) (fun x e => x.Fresh e ∧ x.Delivers e) init es) :
    Meets (step codec) (fun x e => ∀ y ∈ step codec x e, y.Bounded ∧ x.Undisturbed y) init es := by
  refine .of_invariant (fun x e y hx hs => step_tracked hx hs) ?_ es init init_tracked h
  rintro x e hx ⟨fresh, delivers⟩ y hs
  exact ⟨bounded_of_fresh hx hs fresh, undisturbed_of_delivers hx hs delivers⟩

/-- A packet of the client, at a time. -/
def packetAt (now : Nat) : Event :=
  .reader (.received now sampleClient ((encodePacket ⟨.data, 0, [1]⟩).toOption.getD []) .ok)

/-- A client opens a session, it is served for 40 seconds, and then it opens another one, whose
stream is dropped at once. -/
def freshRun : List Event :=
  [.reader (arrives sampleClient ⟨.hello, 0, helloJson "a"⟩), packetAt 40000000000,
    .reader (.received 40000000000 sampleClient
      ((encodePacket ⟨.hello, 0, helloJson "b"⟩).toOption.getD []) .ok), .dropStream 1]

theorem listener_bounded_fresh : ∃ x, exec (step sampleCodec) init freshRun = some x
    ∧ x.listener.sessions.table.keys.length = 1 ∧ x.alive = 1 ∧ x.recent = 1
    ∧ Meets (step sampleCodec)
      (fun x e => ∀ y ∈ step sampleCodec x e, y.Bounded ∧ x.Undisturbed y) init freshRun := by
  obtain ⟨x, hrun, hx⟩ : ∃ x, exec (step sampleCodec) init freshRun = some x
      ∧ x.listener.sessions.table.keys.length = 1 ∧ x.alive = 1 ∧ x.recent = 1 := by
    decide +kernel
  exact ⟨x, hrun, hx.1, hx.2.1, hx.2.2, listener_bounded sampleCodec freshRun (by decide +kernel)⟩

/-- A client opens a session, and its stream is dropped. -/
def droppedRun : List Event :=
  [.reader (arrives sampleClient ⟨.hello, 0, helloJson "a"⟩), .dropStream 0]

/-- The entry outlives the stream, and a packet 31 seconds later goes to its inbox. -/
theorem entry_outlives_stream : ∃ x y, exec (step sampleCodec) init droppedRun = some x ∧
    step sampleCodec x (packetAt 31000000000) = some y ∧
    (y.listener.sessions.table.keys.length = 1 ∧ y.alive = 0 ∧ y.recent = 0) ∧
    (x.dropped = [0] ∧ x.listener.sessions.boxes = [[]] ∧
      y.listener.sessions.boxes = [[⟨.data, 0, [1]⟩]]) := by
  obtain ⟨x, hrun, y, hstep, hy⟩ : ∃ x, exec (step sampleCodec) init droppedRun = some x ∧
      ∃ y, step sampleCodec x (packetAt 31000000000) = some y ∧
        (y.listener.sessions.table.keys.length = 1 ∧ y.alive = 0 ∧ y.recent = 0) ∧
        (x.dropped = [0] ∧ x.listener.sessions.boxes = [[]] ∧
          y.listener.sessions.boxes = [[⟨.data, 0, [1]⟩]]) := by
    decide +kernel
  exact ⟨x, y, hrun, hstep, hy⟩

end Lifetimes

end MediumOverlay.Listener
