import MediumOverlay.Lib.Reassembly
import MediumOverlay.Transport.Packet

/-!
# The state of a session stream

`SessionState` is what the handles of one `UdpSessionStream` share behind its
mutex, and the functions here are the critical sections that change it.

`SessionState.handleData` is the critical section of `handle_data_packet`.  A
packet before `recv_seq` changes nothing, a packet beyond it is kept in
`pending_packets` unless one is kept already, and the packet at `recv_seq` goes
to `pending_read` together with every kept packet that follows it.  That loop
removes one entry of `pending_packets` per turn, so the number of entries bounds
it.

The counters are `u64`.  Rust's `+= 1` panics when such a counter overflows, and
the functions are undefined there.

`handleData_assembled` says that the three branches are the transitions of the
reassembly receiver: the state keeps the packets it was handed in order.
-/

namespace MediumOverlay

open Reassembly

/-- `u64 += 1`, undefined on overflow. -/
def checkedSucc (n : UInt64) : Option UInt64 :=
  if n.toNat + 1 < 2 ^ 64 then some (n + 1) else none

theorem checkedSucc_toNat {n m : UInt64} (h : checkedSucc n = some m) :
    m.toNat = n.toNat + 1 := by
  unfold checkedSucc at h
  split at h
  next hlt =>
    cases h
    simp only [UInt64.toNat_add, UInt64.toNat_one]
    omega
  next => cases h

/-- A counter below the last value has a successor. -/
theorem checkedSucc_of_lt {n : UInt64} (h : n.toNat + 1 < 2 ^ 64) :
    checkedSucc n = some (n + 1) := by
  simp only [checkedSucc, if_pos h]

/-- `SessionState`. -/
structure SessionState where
  sendSeq : UInt64
  recvSeq : UInt64
  pendingRead : Bytes
  pendingPackets : Std.TreeMap UInt64 Bytes

namespace SessionState

/-- The state a new stream starts in. -/
def init : SessionState := ⟨0, 0, [], ∅⟩

/-- `pending_read.extend(plaintext); recv_seq += 1`. -/
def deliver (s : SessionState) (plaintext : Bytes) : Option SessionState :=
  (checkedSucc s.recvSeq).map fun next =>
    { s with pendingRead := s.pendingRead ++ plaintext, recvSeq := next }

/-- The `while let` loop of `handle_data_packet`, for at most `fuel` turns. -/
def drainPackets : Nat → SessionState → Option SessionState
  | 0, s => some s
  | fuel + 1, s =>
    match s.pendingPackets[s.recvSeq]? with
    | none => some s
    | some payload =>
      (deliver { s with pendingPackets := s.pendingPackets.erase s.recvSeq } payload).bind
        (drainPackets fuel)

/-- The critical section of `handle_data_packet`. -/
def handleData (s : SessionState) (seq : UInt64) (plaintext : Bytes) : Option SessionState :=
  if seq < s.recvSeq then
    some s
  else if s.recvSeq < seq then
    some { s with pendingPackets := s.pendingPackets.insertIfNew seq plaintext }
  else
    (s.deliver plaintext).bind fun t => t.drainPackets t.pendingPackets.size

/-- `pending_read.is_empty()` fails and `drain_pending` fills a buffer of `len`
bytes: the bytes that go to the buffer and the state left. -/
def drainPending (s : SessionState) (len : Nat) : Bytes × SessionState :=
  (s.pendingRead.take len, { s with pendingRead := s.pendingRead.drop len })

/-- The packet with this number is in the state: delivered, or kept for later. -/
def Recorded (s : SessionState) (seq : UInt64) : Prop :=
  seq < s.recvSeq ∨ seq ∈ s.pendingPackets

/-- The kept packets as a buffer indexed by sequence number. -/
def buffer (s : SessionState) (i : ℕ) : Option Bytes :=
  if i < 2 ^ 64 then s.pendingPackets[UInt64.ofNat i]? else none

theorem buffer_toNat (s : SessionState) (seq : UInt64) :
    s.buffer seq.toNat = s.pendingPackets[seq]? := by
  unfold buffer
  rw [if_pos seq.toNat_lt, UInt64.ofNat_toNat]

variable {seq : UInt64}

@[simp] theorem buffer_init (i : ℕ) : init.buffer i = none := by
  simp [buffer, init]

theorem ofNat_ne_of_ne_toNat {i : ℕ} (hi : i < 2 ^ 64) (h : i ≠ seq.toNat) :
    seq ≠ UInt64.ofNat i := by
  intro he
  apply h
  rw [he, UInt64.toNat_ofNat', Nat.mod_eq_of_lt hi]

/-! ## Delivering -/

variable {s t : SessionState} {plaintext : Bytes}

theorem deliver_eq_some (h : s.deliver plaintext = some t) :
    t.recvSeq.toNat = s.recvSeq.toNat + 1 ∧ t.pendingRead = s.pendingRead ++ plaintext ∧
      t.pendingPackets = s.pendingPackets ∧ t.sendSeq = s.sendSeq := by
  simp only [deliver, Option.map_eq_some_iff] at h
  obtain ⟨next, hnext, ht⟩ := h
  subst ht
  exact ⟨checkedSucc_toNat hnext, rfl, rfl, rfl⟩

theorem buffer_of_pendingPackets_eq (h : t.pendingPackets = s.pendingPackets) :
    t.buffer = s.buffer := by
  funext i
  simp only [buffer, h]

/-- One turn of the loop takes the packet at the cursor out of the buffer. -/
theorem buffer_erase (s : SessionState) (seq : UInt64)
    (h : t.pendingPackets = s.pendingPackets.erase seq) :
    t.buffer seq.toNat = none ∧ ∀ j ≠ seq.toNat, t.buffer j = s.buffer j := by
  refine ⟨?_, ?_⟩
  · rw [buffer_toNat, h, Std.TreeMap.getElem?_erase_self]
  · intro j hj
    by_cases hlt : j < 2 ^ 64
    · simp only [buffer, if_pos hlt, h, Std.TreeMap.getElem?_erase]
      rw [if_neg]
      rw [Std.LawfulEqCmp.compare_eq_iff_eq]
      exact ofNat_ne_of_ne_toNat hlt hj
    · simp only [buffer, if_neg hlt]

theorem buffer_insertIfNew (s : SessionState) (seq : UInt64) (plaintext : Bytes)
    (h : t.pendingPackets = s.pendingPackets.insertIfNew seq plaintext) :
    t.buffer seq.toNat = some ((s.buffer seq.toNat).getD plaintext) ∧
      ∀ j ≠ seq.toNat, t.buffer j = s.buffer j := by
  refine ⟨?_, ?_⟩
  · rw [buffer_toNat, buffer_toNat, h, Std.TreeMap.getElem?_insertIfNew]
    by_cases hmem : seq ∈ s.pendingPackets
    · rw [if_neg (fun hc => hc.2 hmem)]
      obtain ⟨b, hb⟩ := Option.isSome_iff_exists.mp
        (Std.TreeMap.isSome_getElem?_iff_mem.mpr hmem)
      rw [hb]
      rfl
    · rw [if_pos ⟨Std.ReflCmp.compare_self, hmem⟩,
        Std.TreeMap.getElem?_eq_none hmem]
      rfl
  · intro j hj
    by_cases hlt : j < 2 ^ 64
    · simp only [buffer, if_pos hlt, h, Std.TreeMap.getElem?_insertIfNew]
      rw [if_neg]
      rintro ⟨hc, _⟩
      rw [Std.LawfulEqCmp.compare_eq_iff_eq] at hc
      exact ofNat_ne_of_ne_toNat hlt hj hc
    · simp only [buffer, if_neg hlt]

theorem buffer_eq_none_of_size (h : s.pendingPackets.size = 0) (i : ℕ) : s.buffer i = none := by
  have hempty : s.pendingPackets.isEmpty := by
    rw [Std.TreeMap.isEmpty_eq_size_eq_zero, h]
    rfl
  unfold buffer
  split
  · exact Std.TreeMap.getElem?_of_isEmpty hempty
  · rfl

theorem size_erase_of_getElem? {b : Bytes} (h : s.pendingPackets[seq]? = some b) :
    (s.pendingPackets.erase seq).size = s.pendingPackets.size - 1 := by
  rw [Std.TreeMap.size_erase, if_pos]
  rw [Std.TreeMap.contains_eq_isSome_getElem?, h]
  rfl

/-- A packet before `recv_seq` is dropped, one beyond it is kept, and the one at
`recv_seq` is delivered with those that follow it. -/
theorem handleData_cases (h : s.handleData seq plaintext = some t) :
    (seq.toNat < s.recvSeq.toNat ∧ t = s) ∨
      (s.recvSeq.toNat < seq.toNat ∧
        t = { s with pendingPackets := s.pendingPackets.insertIfNew seq plaintext }) ∨
      (seq = s.recvSeq ∧ ∃ u, s.deliver plaintext = some u ∧
        u.drainPackets u.pendingPackets.size = some t) := by
  unfold handleData at h
  split at h
  next hlt =>
    cases h
    exact .inl ⟨UInt64.lt_iff_toNat_lt.mp hlt, rfl⟩
  next hge =>
    split at h
    next hgt =>
      cases h
      exact .inr (.inl ⟨UInt64.lt_iff_toNat_lt.mp hgt, rfl⟩)
    next hle =>
      have heq : seq.toNat = s.recvSeq.toNat := by
        rw [UInt64.lt_iff_toNat_lt] at hge hle
        omega
      exact .inr (.inr ⟨UInt64.toNat_inj.mp heq, Option.bind_eq_some_iff.mp h⟩)

/-! ## The drain loop -/

/-- A turn of the loop: the packet at the cursor leaves the map and is delivered. -/
def Turn (s : SessionState) (payload : Bytes) (t : SessionState) : Prop :=
  s.pendingPackets[s.recvSeq]? = some payload ∧
    deliver { s with pendingPackets := s.pendingPackets.erase s.recvSeq } payload = some t

/-- What every turn keeps, the loop keeps. -/
theorem drainPackets_invariant {I : SessionState → Prop}
    (hturn : ∀ s payload t, I s → Turn s payload t → I t) (fuel : Nat) (hs : I s)
    (h : drainPackets fuel s = some t) : I t := by
  induction fuel generalizing s with
  | zero =>
    cases h
    exact hs
  | succ fuel ih =>
    unfold drainPackets at h
    cases hb : s.pendingPackets[s.recvSeq]? with
    | none =>
      rw [hb] at h
      cases h
      exact hs
    | some payload =>
      rw [hb] at h
      obtain ⟨u, hu, ht⟩ := Option.bind_eq_some_iff.mp h
      exact ih (hturn s payload u hs ⟨hb, hu⟩) ht

section Assembly

variable {p : ℕ → Bytes} {P : Set ℕ} {out : Bytes} {s t : SessionState}

/-- A turn is a turn of the reassembly receiver. -/
theorem Turn.draining {payload : Bytes} (h : Turn s payload t)
    (hd : Draining p P s.recvSeq.toNat (out ++ s.pendingRead) s.buffer) :
    Draining p P t.recvSeq.toNat (out ++ t.pendingRead) t.buffer := by
  obtain ⟨hb, ht⟩ := h
  obtain ⟨hseq, hread, hpkts, _⟩ := deliver_eq_some ht
  obtain ⟨hnone, hold⟩ := buffer_erase s s.recvSeq hpkts
  rw [hseq, hread, ← List.append_assoc]
  exact hd.step (by rw [buffer_toNat, hb]) hnone hold

/-- The loop ends in an assembled state, given a turn for every entry. -/
theorem drainPackets_assembled (fuel : Nat) (hfuel : s.pendingPackets.size ≤ fuel)
    (hd : Draining p P s.recvSeq.toNat (out ++ s.pendingRead) s.buffer)
    (h : drainPackets fuel s = some t) :
    Assembled p P t.recvSeq.toNat (out ++ t.pendingRead) t.buffer := by
  induction fuel generalizing s with
  | zero =>
    cases h
    exact hd.finish (buffer_eq_none_of_size (Nat.le_zero.mp hfuel) _)
  | succ fuel ih =>
    unfold drainPackets at h
    cases hb : s.pendingPackets[s.recvSeq]? with
    | none =>
      rw [hb] at h
      cases h
      exact hd.finish (by rw [buffer_toNat, hb])
    | some payload =>
      rw [hb] at h
      obtain ⟨u, hu, ht⟩ := Option.bind_eq_some_iff.mp h
      -- the turn removes an entry, so the bound goes down with it
      have hsize : u.pendingPackets.size ≤ fuel := by
        rw [(deliver_eq_some hu).2.2.1, size_erase_of_getElem? hb]
        omega
      exact ih hsize (Turn.draining ⟨hb, hu⟩ hd) ht

/-- **Reassembly.**  Handing the state a packet keeps it assembled. -/
theorem handleData_assembled {seq : UInt64} {plaintext : Bytes}
    (hA : Assembled p P s.recvSeq.toNat (out ++ s.pendingRead) s.buffer)
    (hp : plaintext = p seq.toNat) (h : s.handleData seq plaintext = some t) :
    Assembled p (insert seq.toNat P) t.recvSeq.toNat (out ++ t.pendingRead) t.buffer := by
  subst hp
  rcases handleData_cases h with ⟨hlt, rfl⟩ | ⟨hgt, rfl⟩ | ⟨rfl, u, hu, ht⟩
  · exact hA.stale hlt
  · obtain ⟨hnew, hold⟩ := buffer_insertIfNew s seq (p seq.toNat)
      (t := { s with pendingPackets := s.pendingPackets.insertIfNew seq (p seq.toNat) }) rfl
    exact hA.ahead hgt hnew hold
  · -- delivering the packet starts the loop, with a turn for every kept packet
    obtain ⟨hseq, hread, hpkts, _⟩ := deliver_eq_some hu
    refine drainPackets_assembled _ (le_refl _) ?_ ht
    rw [hseq, hread, buffer_of_pendingPackets_eq hpkts, ← List.append_assoc]
    exact hA.next

/-- While the numbers handed over leave room for one more, no counter of the
loop overflows. -/
theorem drainPackets_defined (room : ∀ i ∈ P, i + 1 < 2 ^ 64) (fuel : Nat)
    (hd : Draining p P s.recvSeq.toNat (out ++ s.pendingRead) s.buffer) :
    ∃ t, drainPackets fuel s = some t := by
  induction fuel generalizing s with
  | zero => exact ⟨s, rfl⟩
  | succ fuel ih =>
    cases hb : s.pendingPackets[s.recvSeq]? with
    | none => exact ⟨s, by simp only [drainPackets, hb]⟩
    | some payload =>
      have hbuf : s.buffer s.recvSeq.toNat = some payload := by rw [buffer_toNat, hb]
      have hlt := room _ ((hd.buf_iff _ _).mp hbuf).1
      have hdel : deliver { s with pendingPackets := s.pendingPackets.erase s.recvSeq } payload
          = some { s with
              pendingPackets := s.pendingPackets.erase s.recvSeq
              pendingRead := s.pendingRead ++ payload
              recvSeq := s.recvSeq + 1 } := by
        simp only [deliver, checkedSucc_of_lt hlt, Option.map_some]
      obtain ⟨t, ht⟩ := ih (Turn.draining ⟨hb, hdel⟩ hd)
      exact ⟨t, by simp only [drainPackets, hb, hdel, Option.bind_some, ht]⟩

theorem handleData_defined (seq : UInt64) {plaintext : Bytes}
    (room : ∀ i ∈ insert seq.toNat P, i + 1 < 2 ^ 64)
    (hA : Assembled p P s.recvSeq.toNat (out ++ s.pendingRead) s.buffer)
    (hp : plaintext = p seq.toNat) : ∃ t, s.handleData seq plaintext = some t := by
  subst hp
  by_cases hlt : seq < s.recvSeq
  · exact ⟨s, by simp only [handleData, if_pos hlt]⟩
  · by_cases hgt : s.recvSeq < seq
    · refine ⟨{ s with pendingPackets := s.pendingPackets.insertIfNew seq (p seq.toNat) }, ?_⟩
      simp only [handleData, if_neg hlt, if_pos hgt]
    · have heq : seq.toNat = s.recvSeq.toNat := by
        rw [UInt64.lt_iff_toNat_lt] at hlt hgt
        omega
      have hroom := room _ (Set.mem_insert _ _)
      have hdel : s.deliver (p seq.toNat)
          = some { s with
              pendingRead := s.pendingRead ++ p seq.toNat
              recvSeq := s.recvSeq + 1 } := by
        simp only [deliver, checkedSucc_of_lt (heq ▸ hroom), Option.map_some]
      obtain ⟨hseq, hread, hpkts, _⟩ := deliver_eq_some hdel
      obtain ⟨t, ht⟩ := drainPackets_defined room s.pendingPackets.size (by
        rw [hseq, hread, buffer_of_pendingPackets_eq hpkts, ← List.append_assoc, heq]
        exact hA.next)
      exact ⟨t, by simp only [handleData, if_neg hlt, if_neg hgt, hdel, Option.bind_some, ht]⟩

end Assembly

/-! ## Recorded packets stay recorded -/

variable {i : UInt64}

theorem deliver_recorded (h : s.deliver plaintext = some t)
    (hi : i.toNat ≤ s.recvSeq.toNat ∨ i ∈ s.pendingPackets) : t.Recorded i := by
  obtain ⟨hseq, _, hpkts, _⟩ := deliver_eq_some h
  rcases hi with hi | hi
  · refine Or.inl (UInt64.lt_iff_toNat_lt.mpr ?_)
    omega
  · refine Or.inr ?_
    rw [hpkts]
    exact hi

theorem drainPackets_recorded (fuel : Nat) (h : drainPackets fuel s = some t) (hi : s.Recorded i) :
    t.Recorded i := by
  refine drainPackets_invariant (I := fun s => s.Recorded i) ?_ fuel hi h
  rintro s payload u hi ⟨_, hu⟩
  refine deliver_recorded hu ?_
  rcases hi with hi | hi
  · exact Or.inl (Nat.le_of_lt (UInt64.lt_iff_toNat_lt.mp hi))
  · -- the one entry that leaves the map is the one the cursor passes
    by_cases heq : s.recvSeq = i
    · exact Or.inl (by rw [heq])
    · refine Or.inr (Std.TreeMap.mem_erase.mpr ⟨?_, hi⟩)
      rw [ne_eq, Std.LawfulEqCmp.compare_eq_iff_eq]
      exact heq

/-- A handled packet is recorded, and so is every packet recorded before. -/
theorem handleData_recorded (h : s.handleData seq plaintext = some t)
    (hi : i = seq ∨ s.Recorded i) : t.Recorded i := by
  rcases handleData_cases h with ⟨hlt, rfl⟩ | ⟨-, rfl⟩ | ⟨hseq, u, hu, ht⟩
  · rcases hi with rfl | hi
    · exact Or.inl (UInt64.lt_iff_toNat_lt.mpr hlt)
    · exact hi
  · rcases hi with rfl | hi | hi
    · exact Or.inr Std.TreeMap.mem_insertIfNew_self
    · exact Or.inl hi
    · exact Or.inr (Std.TreeMap.mem_insertIfNew.mpr (Or.inr hi))
  · refine drainPackets_recorded _ ht (deliver_recorded hu ?_)
    rcases hi with rfl | hi | hi
    · exact Or.inl (by rw [hseq])
    · exact Or.inl (Nat.le_of_lt (UInt64.lt_iff_toNat_lt.mp hi))
    · exact Or.inr hi

/-! ## What handling a packet leaves alone -/

theorem drainPackets_sendSeq (fuel : Nat) (h : drainPackets fuel s = some t) :
    t.sendSeq = s.sendSeq := by
  refine drainPackets_invariant (I := fun u => u.sendSeq = s.sendSeq) ?_ fuel rfl h
  rintro u payload v hu ⟨_, hv⟩
  rw [(deliver_eq_some hv).2.2.2]
  exact hu

theorem handleData_sendSeq (h : s.handleData seq plaintext = some t) : t.sendSeq = s.sendSeq := by
  rcases handleData_cases h with ⟨-, rfl⟩ | ⟨-, rfl⟩ | ⟨-, u, hu, ht⟩
  · rfl
  · rfl
  · rw [drainPackets_sendSeq _ ht, (deliver_eq_some hu).2.2.2]

end SessionState

end MediumOverlay
