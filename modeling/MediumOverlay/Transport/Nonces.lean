import MediumOverlay.Transport.Session

/-!
# The sessions of one grant

A client keeps a session grant and opens sessions from it as it needs them: one
to warm up, one per connection, one after a failure, several at once when it
races candidates.  Each is a new `UdpSessionStream` at both ends.  Its key is the
digest of the grant's token, and its sequence numbers start at 0.

The nonce of a chunk is its direction and its sequence number.  So two sessions
of one grant seal their first chunks under the same key and the same nonce
(`two_sessions_share_nonce`), and so does a `write` that follows a failed one with
other bytes.  `Disciplined` excludes both, and then the nonce determines the
plaintext, whatever the network does.
-/

namespace MediumOverlay

open Trace

/-- The digest that turns a token into a key, and the AEAD under a key. -/
structure Aead where
  digest : String → Bytes
  cipher : Bytes → Cipher

/-- A call of `encrypt`, with the session that made it. -/
structure Encryption where
  session : Nat
  direction : Direction
  seq : UInt64
  key : Bytes
  plaintext : Bytes
deriving DecidableEq, Repr

def Encryption.nonce (a : Encryption) : Bytes := nonceBytes a.direction a.seq

/-- The sessions opened from one grant, and every call of `encrypt` so far. -/
structure Grant where
  sessions : List Session
  encryptions : List Encryption

namespace Grant

inductive Event where
  /-- The client connects and the node accepts: `UdpSessionStream::new` at both ends. -/
  | «open»
  | session (i : Nat) (d : Direction) (h : Handle) (e : MediumOverlay.Event)

def init : Grant := ⟨[], []⟩

/-- The call of `encrypt` in a `write`. -/
def encryptedBy (key : Bytes) (i : Nat) (d : Direction) (x : Endpoint) :
    MediumOverlay.Event → List Encryption
  | .write bytes => [⟨i, d, x.state.sendSeq, key, chunkOf bytes⟩]
  | _ => []

/-- A step of a client that holds a grant with this token.  The packets that
arrive are arbitrary. -/
def step (aead : Aead) (token : String) (x : Grant) : Event → Option Grant
  | .open => some { x with sessions := x.sessions ++ [.init] }
  | .session i d h e =>
    let key := aead.digest token
    x.sessions[i]?.bind fun s =>
      ((s.side d).step (aead.cipher key) d (h, e)).map fun z =>
        ⟨x.sessions.set i (s.put d z), x.encryptions ++ encryptedBy key i d (s.side d) e⟩

/-- What was encrypted under one key and nonce is one plaintext. -/
def NoncesUsedOnce (x : Grant) : Prop :=
  ∀ a ∈ x.encryptions, ∀ b ∈ x.encryptions,
    a.key = b.key → a.nonce = b.nonce → a.plaintext = b.plaintext

instance (x : Grant) : Decidable x.NoncesUsedOnce :=
  inferInstanceAs (Decidable (∀ a ∈ x.encryptions, ∀ b ∈ x.encryptions,
    a.key = b.key → a.nonce = b.nonce → a.plaintext = b.plaintext))

/-- In each direction one session of the grant writes, and a `write` after a
failed one offers the same chunk. -/
def Disciplined (x : Grant) : Event → Prop
  | .session i d _ (.write bytes) =>
    (∀ a ∈ x.encryptions, a.direction = d → a.session = i) ∧
      ∀ s ∈ x.sessions[i]?, (s.side d).RetriesSame (.write bytes)
  | _ => True

instance (x : Grant) : ∀ ev, Decidable (x.Disciplined ev)
  | .session i d _ (.write bytes) => inferInstanceAs (Decidable (
      (∀ a ∈ x.encryptions, a.direction = d → a.session = i) ∧
        ∀ s ∈ x.sessions[i]?, (s.side d).RetriesSame (.write bytes)))
  | .open | .session _ _ _ (.read _) | .session _ _ _ .lock | .session _ _ _ (.recv _)
  | .session _ _ _ (.send _) => .isTrue trivial

/-! ## The invariant -/

/-- Every encryption is of the chunk at its number in the stream of its session. -/
structure Streams (key : Bytes) (x : Grant) : Prop where
  tracking : ∀ (i : Nat) (s : Session), x.sessions[i]? = some s → ∀ d, (s.side d).Tracking
  key : ∀ a ∈ x.encryptions, a.key = key
  /-- One session per direction. -/
  single : ∀ a ∈ x.encryptions, ∀ b ∈ x.encryptions, a.direction = b.direction →
    a.session = b.session
  stream : ∀ a ∈ x.encryptions, ∃ s, x.sessions[a.session]? = some s ∧
    (s.side a.direction).stream[a.seq.toNat]? = some a.plaintext

variable {aead : Aead} {token : String} {key : Bytes} {x y : Grant} {i : Nat} {d : Direction}
  {h : Handle} {e : MediumOverlay.Event} {s : Session} {z : Endpoint}

theorem Streams.init (key : Bytes) : Streams key Grant.init := by
  refine ⟨?_, ?_, ?_, ?_⟩
  · intro i s hs
    cases hs
  · intro a ha
    cases ha
  · intro a ha
    cases ha
  · intro a ha
    cases ha

/-- A new session changes no other. -/
theorem Streams.opened (hx : Streams key x) :
    Streams key { x with sessions := x.sessions ++ [.init] } := by
  refine ⟨?_, hx.key, hx.single, ?_⟩
  · intro i s hs d
    rcases List.mem_append.mp (List.mem_of_getElem? hs) with hin | hin
    · obtain ⟨j, hj⟩ := List.mem_iff_getElem?.mp hin
      exact hx.tracking j s hj d
    · rw [List.mem_singleton.mp hin]
      cases d <;> exact .init
  · intro a ha
    obtain ⟨s, hs, hi⟩ := hx.stream a ha
    exact ⟨s, Endpoint.getElem?_of_isPrefix (List.prefix_append _ _) hs, hi⟩

/-- A disciplined step extends the stream of its end. -/
theorem Streams.stream_isPrefix (hx : Streams key x) (hs : x.sessions[i]? = some s)
    (ok : x.Disciplined (.session i d h e))
    (hz : (s.side d).step (aead.cipher key) d (h, e) = some z) (d' : Direction) :
    (s.side d').stream <+: ((s.put d z).side d').stream := by
  rcases Direction.eq_or_eq_peer d d' with rfl | rfl
  · rw [Session.side_put_self]
    refine Endpoint.stream_isPrefix (hx.tracking i s hs d') ?_ hz
    cases e with
    | write bytes => exact ok.2 s hs
    | read _ | lock | recv _ | send _ => trivial
  · rw [Session.side_put_peer]

theorem Streams.tracking_set (hx : Streams key x) (hs : x.sessions[i]? = some s)
    (hz : (s.side d).step (aead.cipher key) d (h, e) = some z) :
    ∀ (j : Nat) (t : Session), (x.sessions.set i (s.put d z))[j]? = some t →
      ∀ d', (t.side d').Tracking := by
  intro j t ht d'
  by_cases hj : i = j
  · subst hj
    rw [List.getElem?_set_self (List.getElem?_eq_some_iff.mp hs).1] at ht
    cases ht
    rcases Direction.eq_or_eq_peer d d' with rfl | rfl
    · rw [Session.side_put_self]
      exact (hx.tracking i s hs d').step hz
    · rw [Session.side_put_peer]
      exact hx.tracking i s hs d.peer
  · rw [List.getElem?_set_ne hj] at ht
    exact hx.tracking j t ht d'

/-- An encryption of the past stays in the stream of its session. -/
theorem Streams.stream_set (hx : Streams key x) (hs : x.sessions[i]? = some s)
    (ok : x.Disciplined (.session i d h e))
    (hz : (s.side d).step (aead.cipher key) d (h, e) = some z) {a : Encryption}
    (ha : a ∈ x.encryptions) : ∃ t, (x.sessions.set i (s.put d z))[a.session]? = some t ∧
      (t.side a.direction).stream[a.seq.toNat]? = some a.plaintext := by
  obtain ⟨t, ht, hi⟩ := hx.stream a ha
  by_cases hj : i = a.session
  · subst hj
    rw [hs] at ht
    cases ht
    refine ⟨s.put d z, List.getElem?_set_self (List.getElem?_eq_some_iff.mp hs).1, ?_⟩
    exact Endpoint.getElem?_of_isPrefix (hx.stream_isPrefix hs ok hz a.direction) hi
  · exact ⟨t, by rw [List.getElem?_set_ne hj, ht], hi⟩

/-- The chunk of a `write` is in the stream at the number it is sealed under. -/
theorem stream_of_write {x z : Endpoint} {σ : Cipher} {bytes : Bytes} (hx : x.Tracking)
    (hz : x.step σ d (h, .write bytes) = some z) :
    z.stream[x.state.sendSeq.toNat]? = some (chunkOf bytes) := by
  obtain ⟨r, _, hr⟩ := hx.accounted hz
  cases hr with
  | offer bytes' at_write was accepted opened _ =>
    cases at_write
    rw [Endpoint.stream, accepted, opened, ← hx.count]
    simp
  | quiet _ _ _ not_write => exact absurd rfl (not_write bytes)
  | fail _ _ _ _ _ _ not_write => exact absurd rfl (not_write bytes)
  | accept _ _ _ _ _ not_write => exact absurd rfl (not_write bytes)

/-- A disciplined step of one end keeps the invariant. -/
theorem Streams.session (hx : Streams key x) (hs : x.sessions[i]? = some s)
    (ok : x.Disciplined (.session i d h e))
    (hz : (s.side d).step (aead.cipher key) d (h, e) = some z) :
    Streams key
      ⟨x.sessions.set i (s.put d z), x.encryptions ++ encryptedBy key i d (s.side d) e⟩ := by
  have hold : ∀ a ∈ x.encryptions, _ := fun a ha => hx.stream_set hs ok hz ha
  cases e with
  | write bytes =>
    have hnew : ∀ a ∈ encryptedBy key i d (s.side d) (.write bytes),
        a = ⟨i, d, (s.side d).state.sendSeq, key, chunkOf bytes⟩ :=
      fun a ha => List.mem_singleton.mp ha
    refine ⟨hx.tracking_set hs hz, ?_, ?_, ?_⟩
    · intro a ha
      rcases List.mem_append.mp ha with ha | ha
      · exact hx.key a ha
      · rw [hnew a ha]
    · intro a ha b hb hd
      -- an old and a new encryption of one direction: the condition is about the old
      rcases List.mem_append.mp ha with ha | ha
      · rcases List.mem_append.mp hb with hb | hb
        · exact hx.single a ha b hb hd
        · rw [hnew b hb] at hd ⊢
          exact ok.1 a ha hd
      · rcases List.mem_append.mp hb with hb | hb
        · rw [hnew a ha] at hd ⊢
          exact (ok.1 b hb hd.symm).symm
        · rw [hnew a ha, hnew b hb]
    · intro a ha
      rcases List.mem_append.mp ha with ha | ha
      · exact hold a ha
      · rw [hnew a ha]
        refine ⟨s.put d z, List.getElem?_set_self (List.getElem?_eq_some_iff.mp hs).1, ?_⟩
        rw [Session.side_put_self]
        exact stream_of_write (hx.tracking i s hs d) hz
  | read _ | lock | recv _ | send _ =>
    simp only [encryptedBy, List.append_nil]
    exact ⟨hx.tracking_set hs hz, hx.key, hx.single, hold⟩

theorem Streams.step (hx : Streams (aead.digest token) x) {ev : Grant.Event}
    (ok : x.Disciplined ev) (hs : x.step aead token ev = some y) :
    Streams (aead.digest token) y := by
  cases ev with
  | «open» =>
    cases hs
    exact hx.opened
  | session i d h e =>
    obtain ⟨s, hi, hy⟩ := Option.bind_eq_some_iff.mp hs
    obtain ⟨z, hz, rfl⟩ := Option.map_eq_some_iff.mp hy
    exact hx.session hi ok hz

/-- **Nonces.**  In every run in which each direction is written by one session
of the grant and failed writes are retried with the same chunk, whatever is
encrypted under one key and nonce is one plaintext. -/
theorem noncesUsedOnce_of_disciplined (es : List Grant.Event)
    (ok : Meets (Grant.step aead token) Disciplined init es)
    (run : exec (Grant.step aead token) init es = some x) : x.NoncesUsedOnce := by
  have hx : Streams (aead.digest token) x := by
    refine exec_invariant ?_ es _ _ (Streams.init _) ok run
    intro s ev t hI hok hs
    exact hI.step hok hs
  -- one nonce is one direction and one number, and the direction has one stream
  intro a ha b hb _ hnonce
  obtain ⟨hdir, hseq⟩ := nonceBytes_inj hnonce
  obtain ⟨s, hs, hi⟩ := hx.stream a ha
  obtain ⟨t, ht, hj⟩ := hx.stream b hb
  rw [hx.single a ha b hb hdir, ht] at hs
  cases hs
  rw [hdir, hseq, hj] at hi
  exact (Option.some.inj hi).symm

/-! ### Two sessions -/

/-- The token is the key, and the tag of a box is its nonce. -/
def tagAead : Aead := ⟨fun token => token.toUTF8.data.toList, fun _ => tagCipher⟩

/-- One session sends two chunks, the second once more after it was not
acknowledged, and the node answers on the same session. -/
def oneSessionRun : List Grant.Event :=
  .open :: ([.write [97], .send (.ok ()), .recv (.ok ⟨.ack, 0, []⟩), .lock, .write [98],
      .send (.ok ()), .recv (.error ⟨.other, ""⟩), .write [98]] : List MediumOverlay.Event).map
        (Grant.Event.session 0 .clientToNode .writer)
    ++ ([.open, .session 0 .nodeToClient .writer (.write [99])] : List Grant.Event)

theorem noncesUsedOnce_oneSession :
    (exec (Grant.step tagAead "token") init oneSessionRun).map (fun x => x.encryptions.length)
        = some 4 ∧
      ∃ x, exec (Grant.step tagAead "token") init oneSessionRun = some x ∧ x.NoncesUsedOnce := by
  have hrun : (exec (Grant.step tagAead "token") init oneSessionRun).isSome := by decide +kernel
  obtain ⟨x, hx⟩ := Option.isSome_iff_exists.mp hrun
  exact ⟨by decide +kernel, x, hx,
    noncesUsedOnce_of_disciplined oneSessionRun (by decide +kernel) hx⟩

/-- A connection and a reconnection, each sending its first chunk. -/
def twoSessionsRun : List Grant.Event :=
  [.open, .session 0 .clientToNode .writer (.write [97]), .open,
    .session 1 .clientToNode .writer (.write [98])]

theorem two_sessions_share_nonce :
    (exec (Grant.step tagAead "token") init twoSessionsRun).map
        (fun x => x.encryptions.map fun a => (a.key, a.nonce, a.plaintext))
      = some [((tagAead.digest "token"), [0, 0, 0, 0, 0, 0, 0, 0, 0, 0, 0, 0], [97]),
          ((tagAead.digest "token"), [0, 0, 0, 0, 0, 0, 0, 0, 0, 0, 0, 0], [98])] ∧
      ∃ x, exec (Grant.step tagAead "token") init twoSessionsRun = some x ∧
        ¬ x.NoncesUsedOnce := by
  constructor <;> decide +kernel

end Grant

end MediumOverlay
