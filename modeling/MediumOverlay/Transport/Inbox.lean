import MediumOverlay.Lib.Trace
import MediumOverlay.Transport.Clones

/-!
# The inbox of a session

The reader of a socket pushes packets into an inbox, and any number of calls of `recv_matching`
take packets out of it, each the oldest that its predicate accepts.  A call holds the lock from
when it gets it until it returns or waits, so one such stretch is one step.  When a call is woken,
by a push, by its timeout or for no reason, and what the clock says then are part of the event.

A packet has the number of its push, and the returns are kept in a log with the queue that the
call found when it last held the lock.  `passed` carries the proofs: what a call left in the queue
and would have accepted is newer than what it took.  At the end the runs are compared with the
queue of a stream, on which a whole call is one operation.
-/

namespace MediumOverlay

open Trace

namespace PacketInbox

/-- A packet with the number of its push. -/
abbrev Entry : Type := Nat × Packet

/-- `position` and `remove`: the first entry that the predicate accepts, and the others. -/
def removeFirst (predicate : Packet → Bool) (packets : List Entry) : Option (Entry × List Entry) :=
  (packets.findIdx? fun e => predicate e.2).bind fun index =>
    packets[index]?.map fun e => (e, packets.eraseIdx index)

/-- What a call does with the lock. -/
inductive Turn where
  | returns (result : Except IoError Entry) (packets : List Entry)
  | waits

/-- A stretch of `recv_matching` with the lock. -/
def recvMatching (predicate : Packet → Bool) (timedOut expired : Bool) (packets : List Entry) :
    Turn :=
  if timedOut && !packets.any fun e => predicate e.2 then .returns (.error .timedOut) packets
  else
    match removeFirst predicate packets with
    | some (e, rest) => .returns (.ok e) rest
    | none => if expired then .returns (.error .timedOut) packets else .waits

inductive Phase where
  | called
  | waiting
  | returned
deriving DecidableEq

structure Receiver where
  predicate : Packet → Bool
  phase : Phase

/-- A call that returned, with the packets that it found when it last had the lock. -/
structure Return where
  call : Nat
  predicate : Packet → Bool
  found : List Entry
  result : Except IoError Entry

/-- What the call took. -/
def Return.taken (r : Return) : Option Entry :=
  match r.result with
  | .ok e => some e
  | .error _ => none

end PacketInbox

open PacketInbox

/-- `PacketInbox`, with the packets that were pushed, the calls and their returns. -/
structure PacketInbox where
  packets : List PacketInbox.Entry
  pushed : List Packet
  calls : List Receiver
  returns : List Return

namespace PacketInbox

inductive Event where
  | push (packet : Packet)
  | call (predicate : Packet → Bool)
  /-- A call gets the lock.  `timedOut` is what `wait_timeout` says, and `expired` compares the
  clock with the deadline. -/
  | lock (call : Nat) (timedOut expired : Bool)

/-- The packet of a push. -/
def Event.packet : Event → Option Packet
  | .push packet => some packet
  | _ => none

/-- The predicate of a call. -/
def Event.predicate : Event → Option (Packet → Bool)
  | .call predicate => some predicate
  | _ => none

def new : PacketInbox := ⟨[], [], [], []⟩

def push (x : PacketInbox) (packet : Packet) : PacketInbox :=
  { x with
    packets := x.packets ++ [(x.pushed.length, packet)]
    pushed := x.pushed ++ [packet] }

/-- A call returns and leaves the packets. -/
def finish (x : PacketInbox) (i : Nat) (predicate : Packet → Bool) (result : Except IoError Entry)
    (packets : List Entry) : PacketInbox :=
  { x with
    packets
    calls := x.calls.set i ⟨predicate, .returned⟩
    returns := x.returns ++ [⟨i, predicate, x.packets, result⟩] }

def step (x : PacketInbox) : Event → Option PacketInbox
  | .push packet => some (x.push packet)
  | .call predicate => some { x with calls := x.calls ++ [⟨predicate, .called⟩] }
  | .lock i timedOut expired =>
    match x.calls[i]? with
    | none => none
    | some ⟨predicate, phase⟩ =>
      if phase = .returned then none
      else
        match recvMatching predicate (timedOut && phase = .waiting) expired x.packets with
        | .waits => some { x with calls := x.calls.set i ⟨predicate, .waiting⟩ }
        | .returns result packets => some (x.finish i predicate result packets)

/-! ## One stretch with the lock -/

/-- The entry is the oldest that the predicate accepts. -/
structure IsFirst (predicate : Packet → Bool) (before : List Entry) (e : Entry) : Prop where
  accepts : predicate e.2 = true
  rejects : ∀ f ∈ before, predicate f.2 = false

/-- A call takes the oldest packet that its predicate accepts.  If there is none it waits or times
out. -/
theorem recvMatching_cases (predicate : Packet → Bool) (timedOut expired : Bool)
    (packets : List Entry) :
    (∃ before e after, packets = before ++ e :: after ∧ IsFirst predicate before e
        ∧ recvMatching predicate timedOut expired packets = .returns (.ok e) (before ++ after))
      ∨ (∀ f ∈ packets, predicate f.2 = false)
        ∧ (recvMatching predicate timedOut expired packets = .waits
          ∨ recvMatching predicate timedOut expired packets
            = .returns (.error .timedOut) packets) := by
  unfold recvMatching removeFirst
  cases hindex : packets.findIdx? fun e => predicate e.2 with
  | none =>
    refine .inr ⟨List.findIdx?_eq_none_iff.mp hindex, ?_⟩
    rw [Option.bind_none]
    split_ifs
    · exact .inr rfl
    · exact .inr rfl
    · exact .inl rfl
  | some index =>
    obtain ⟨hlt, haccepts, hrejects⟩ := List.findIdx?_eq_some_iff_getElem.mp hindex
    have hany : (packets.any fun e => predicate e.2) = true :=
      List.any_eq_true.mpr ⟨_, List.getElem_mem hlt, haccepts⟩
    refine .inl ⟨packets.take index, packets[index], packets.drop (index + 1), ?_,
      ⟨haccepts, fun f hf => ?_⟩, ?_⟩
    · rw [List.getElem_cons_drop, List.take_append_drop]
    · obtain ⟨j, hj, rfl⟩ := List.mem_take_iff_getElem.mp hf
      exact Bool.eq_false_iff.mpr (hrejects j (by omega))
    · rw [hany, Option.bind_some, List.getElem?_eq_getElem hlt, List.eraseIdx_eq_take_drop_succ]
      simp

/-- The call has not returned. -/
def Runs (x : PacketInbox) (i : Nat) (predicate : Packet → Bool) : Prop :=
  ∃ phase, x.calls[i]? = some ⟨predicate, phase⟩ ∧ phase ≠ .returned

/-- What a step can do. -/
inductive Moves (x : PacketInbox) : Event → PacketInbox → Prop where
  | push (packet : Packet) : Moves x (.push packet) (x.push packet)
  | call (predicate : Packet → Bool) :
      Moves x (.call predicate) { x with calls := x.calls ++ [⟨predicate, .called⟩] }
  | wait {i : Nat} {predicate : Packet → Bool} {timedOut expired : Bool}
      (runs : x.Runs i predicate) :
      Moves x (.lock i timedOut expired)
        { x with calls := x.calls.set i ⟨predicate, .waiting⟩ }
  | timeout {i : Nat} {predicate : Packet → Bool} {timedOut expired : Bool}
      (runs : x.Runs i predicate) (rejects : ∀ f ∈ x.packets, predicate f.2 = false) :
      Moves x (.lock i timedOut expired) (x.finish i predicate (.error .timedOut) x.packets)
  | take {i : Nat} {predicate : Packet → Bool} {timedOut expired : Bool}
      (runs : x.Runs i predicate) (before after : List Entry) (e : Entry)
      (packets : x.packets = before ++ e :: after) (first : IsFirst predicate before e) :
      Moves x (.lock i timedOut expired) (x.finish i predicate (.ok e) (before ++ after))

variable {x y : PacketInbox} {predicate : Packet → Bool} {packets : List Entry} {e : Entry}
  {i : Nat} {ev : Event}

theorem step_moves (h : x.step ev = some y) : Moves x ev y := by
  cases ev with
  | push packet =>
    cases h
    exact .push packet
  | call predicate =>
    cases h
    exact .call predicate
  | lock i timedOut expired =>
    rw [step] at h
    split at h
    next => cases h
    next predicate phase hcall =>
      split at h
      next => cases h
      next hphase =>
        have runs : x.Runs i predicate := ⟨phase, hcall, hphase⟩
        obtain ⟨before, e, after, hpackets, hfirst, hturn⟩ | ⟨hrejects, hturn | hturn⟩ :=
          recvMatching_cases predicate (timedOut && phase = .waiting) expired x.packets
        all_goals rw [hturn] at h
        all_goals cases h
        · exact .take runs before after e hpackets hfirst
        · exact .wait runs
        · exact .timeout runs hrejects

theorem step_pushed (x : PacketInbox) (ev : Event) (y : PacketInbox) (h : x.step ev = some y) :
    y.pushed = x.pushed ++ ev.packet.toList := by
  cases step_moves h with
  | push => rfl
  | call | wait | timeout | take => exact (List.append_nil _).symm

/-- A call keeps its predicate. -/
theorem Runs.map_set (runs : x.Runs i predicate) (phase : Phase) :
    (x.calls.set i ⟨predicate, phase⟩).map Receiver.predicate
      = x.calls.map Receiver.predicate := by
  obtain ⟨_, hcall, -⟩ := runs
  obtain ⟨hlt, hget⟩ := List.getElem?_eq_some_iff.mp hcall
  have hbound : i < (x.calls.map Receiver.predicate).length := by simpa using hlt
  have hself : (x.calls.map Receiver.predicate)[i] = predicate := by
    rw [List.getElem_map, hget]
  rw [List.map_set]
  exact hself ▸ List.set_getElem_self _

theorem step_predicates (x : PacketInbox) (ev : Event) (y : PacketInbox)
    (h : x.step ev = some y) :
    y.calls.map Receiver.predicate
      = x.calls.map Receiver.predicate ++ ev.predicate.toList := by
  cases step_moves h with
  | push => exact (List.append_nil _).symm
  | call => exact List.map_append
  | wait runs | timeout runs | take runs =>
    exact (runs.map_set _).trans (List.append_nil _).symm

/-! ## Runs -/

/-- The entries that were taken, in the order of the returns. -/
def taken (x : PacketInbox) : List Entry := x.returns.filterMap Return.taken

/-- What a call found when it returned. -/
inductive Return.Fair : Return → Prop where
  | timeout (call : Nat) {predicate : Packet → Bool} {found : List Entry}
      (rejects : ∀ f ∈ found, predicate f.2 = false) :
      Fair ⟨call, predicate, found, .error .timedOut⟩
  | took (call : Nat) {predicate : Packet → Bool} {before : List Entry} {e : Entry}
      (after : List Entry) (first : IsFirst predicate before e) :
      Fair ⟨call, predicate, before ++ e :: after, .ok e⟩

/-- The call returned before another, and took an older packet if it accepts that of the other. -/
def Return.Before (r s : Return) : Prop :=
  ∀ e f, r.result = .ok e → s.result = .ok f → r.predicate f.2 = true → e.1 < f.1

/-- A call returns once. -/
structure Once (x : PacketInbox) : Prop where
  nodup : (x.returns.map Return.call).Nodup
  returned : ∀ r ∈ x.returns, x.calls[r.call]? = some ⟨r.predicate, .returned⟩

/-- A call that runs is not in the log, so it can be changed. -/
theorem Once.set (h : Once x) (runs : x.Runs i predicate) (receiver : Receiver) :
    ∀ r ∈ x.returns, r.call ≠ i
      ∧ (x.calls.set i receiver)[r.call]? = some ⟨r.predicate, .returned⟩ := by
  obtain ⟨phase, hcall, hphase⟩ := runs
  intro r hr
  have hreturned := h.returned r hr
  have hne : r.call ≠ i := by
    rintro rfl
    rw [hcall] at hreturned
    cases hreturned
    exact hphase rfl
  rw [List.getElem?_set_ne hne.symm]
  exact ⟨hne, hreturned⟩

/-- A call that runs returns. -/
theorem Once.finish (h : Once x) (runs : x.Runs i predicate) (result : Except IoError Entry)
    (packets : List Entry) : Once (x.finish i predicate result packets) where
  nodup := by
    rw [PacketInbox.finish, List.map_append]
    refine h.nodup.append (List.nodup_singleton _) (List.disjoint_singleton.mpr ?_)
    intro hmem
    obtain ⟨r, hr, hcall⟩ := List.mem_map.mp hmem
    exact (h.set runs ⟨predicate, .returned⟩ r hr).1 hcall
  returned := by
    intro r hr
    obtain hr | hr := List.mem_append.mp hr
    · exact (h.set runs _ r hr).2
    · obtain ⟨phase, hcall, -⟩ := runs
      rw [List.mem_singleton.mp hr, PacketInbox.finish,
        List.getElem?_set_self (List.getElem?_eq_some_iff.mp hcall).1]

theorem Once.step (h : Once x) (hs : Moves x ev y) : Once y := by
  cases hs with
  | push packet => exact ⟨h.nodup, h.returned⟩
  | call predicate =>
    refine ⟨h.nodup, fun r hr => ?_⟩
    have hcall := h.returned r hr
    rwa [List.getElem?_append_left (List.getElem?_eq_some_iff.mp hcall).1]
  | wait runs => exact ⟨h.nodup, fun r hr => (h.set runs _ r hr).2⟩
  | timeout runs => exact h.finish runs _ _
  | take runs => exact h.finish runs _ _

structure Inv (x : PacketInbox) : Prop where
  conserved : ((x.packets ++ x.taken).map Prod.fst).Perm (List.range x.pushed.length)
  pushed : ∀ e ∈ x.packets ++ x.taken, x.pushed[e.1]? = some e.2
  sorted : x.packets.Pairwise fun e f => e.1 < f.1
  fair : ∀ r ∈ x.returns, r.Fair
  passed : ∀ r ∈ x.returns, ∀ e, r.result = .ok e →
    ∀ f ∈ x.packets, r.predicate f.2 = true → e.1 < f.1
  order : x.returns.Pairwise Return.Before

theorem Inv.lt_length (h : Inv x) (he : e ∈ x.packets ++ x.taken) : e.1 < x.pushed.length :=
  (List.getElem?_eq_some_iff.mp (h.pushed e he)).1

theorem Inv.push (h : Inv x) (packet : Packet) : Inv (x.push packet) where
  conserved := by
    have hmiddle : ((x.packets ++ [(x.pushed.length, packet)] ++ x.taken).map Prod.fst).Perm
        ((x.packets ++ x.taken).map Prod.fst ++ [x.pushed.length]) := by
      simp only [List.map_append, List.append_assoc]
      exact .append_left _ List.perm_append_comm
    rw [PacketInbox.push, List.length_append, List.length_singleton, List.range_succ]
    exact hmiddle.trans (h.conserved.append_right _)
  pushed := by
    have hold : ∀ e ∈ x.packets ++ x.taken, (x.pushed ++ [packet])[e.1]? = some e.2 := by
      intro e he
      rw [List.getElem?_append_left (h.lt_length he), h.pushed e he]
    intro e he
    obtain he | he := List.mem_append.mp he
    · obtain he | he := List.mem_append.mp he
      · exact hold e (List.mem_append_left _ he)
      · rw [List.mem_singleton.mp he]
        exact List.getElem?_concat_length
    · exact hold e (List.mem_append_right _ he)
  sorted := by
    refine List.pairwise_append.mpr ⟨h.sorted, List.pairwise_singleton _ _, ?_⟩
    intro e he f hf
    rw [List.mem_singleton.mp hf]
    exact h.lt_length (List.mem_append_left _ he)
  fair := h.fair
  passed := by
    intro r hr e he f hf haccepts
    obtain hf | hf := List.mem_append.mp hf
    · exact h.passed r hr e he f hf haccepts
    · have htaken : e ∈ x.taken := List.mem_filterMap.mpr ⟨r, hr, by rw [Return.taken, he]⟩
      rw [List.mem_singleton.mp hf]
      exact h.lt_length (List.mem_append_right _ htaken)
  order := h.order

/-- A call returns, with a packet of the queue or without. -/
theorem Inv.finish (h : Inv x) {result : Except IoError Entry}
    (fair : Return.Fair ⟨i, predicate, x.packets, result⟩) (sublist : packets.Sublist x.packets)
    (perm : (packets ++ result.toOption.toList).Perm x.packets)
    (passed : ∀ e, result = .ok e → ∀ f ∈ packets, predicate f.2 = true → e.1 < f.1) :
    Inv (x.finish i predicate result packets) := by
  have htaken : (x.finish i predicate result packets).taken
      = x.taken ++ result.toOption.toList := by
    rw [taken, PacketInbox.finish, List.filterMap_append]
    cases result <;> rfl
  have hall : (packets ++ (x.taken ++ result.toOption.toList)).Perm (x.packets ++ x.taken) :=
    calc (packets ++ (x.taken ++ result.toOption.toList)).Perm
          (packets ++ (result.toOption.toList ++ x.taken)) := .append_left _ List.perm_append_comm
      _ = (packets ++ result.toOption.toList) ++ x.taken := (List.append_assoc _ _ _).symm
      _ |>.Perm (x.packets ++ x.taken) := perm.append_right _
  constructor
  case conserved =>
    rw [htaken]
    exact (hall.map _).trans h.conserved
  case pushed =>
    rw [htaken]
    exact fun e he => h.pushed e (hall.subset he)
  case sorted => exact h.sorted.sublist sublist
  case fair =>
    intro s hs
    obtain hs | hs := List.mem_append.mp hs
    · exact h.fair s hs
    · rwa [List.mem_singleton.mp hs]
  case passed =>
    intro s hs e he f hf
    obtain hs | hs := List.mem_append.mp hs
    · exact h.passed s hs e he f (sublist.subset hf)
    · rw [List.mem_singleton.mp hs] at he ⊢
      exact passed e he f hf
  case order =>
    refine List.pairwise_append.mpr ⟨h.order, List.pairwise_singleton _ _, ?_⟩
    intro s hs t ht e f he hf
    rw [List.mem_singleton.mp ht] at hf
    cases hf
    -- What is taken now was in the queue when the others returned, or came later.
    exact h.passed s hs e he f (perm.subset (List.mem_append_right _ (List.mem_singleton_self _)))

theorem Inv.step (h : Inv x) (hs : Moves x ev y) : Inv y := by
  cases hs with
  | push packet => exact h.push packet
  | call | wait => exact ⟨h.conserved, h.pushed, h.sorted, h.fair, h.passed, h.order⟩
  | timeout runs rejects =>
    exact h.finish (.timeout _ rejects) (.refl _) (by rw [Except.toOption]; simp) nofun
  | take runs before after e packets first =>
    have hsorted := h.sorted
    rw [packets] at hsorted
    refine h.finish (by rw [packets]; exact .took _ after first) ?_ ?_ ?_
    · rw [packets]
      exact .append_left (List.sublist_cons_self _ _) _
    · rw [packets, List.append_assoc]
      exact .append_left _ List.perm_append_comm
    · rintro _ ⟨⟩ f hf haccepts
      obtain hf | hf := List.mem_append.mp hf
      · exact absurd (first.rejects f hf) (Bool.ne_false_iff.mpr haccepts)
      · exact (List.pairwise_cons.mp (List.pairwise_append.mp hsorted).2.1).1 f hf

/-- What a run with the events leads to. -/
structure Delivers (events : List Event) (x : PacketInbox) : Prop where
  /-- A packet that was pushed is in the queue or was taken, once. -/
  conserved : ((x.packets ++ x.taken).map Prod.fst).Perm
    (List.range (events.filterMap Event.packet).length)
  pushed : ∀ e ∈ x.packets ++ x.taken, (events.filterMap Event.packet)[e.1]? = some e.2
  sorted : x.packets.Pairwise fun e f => e.1 < f.1
  /-- A return is that of a call, which returns once. -/
  called : ∀ r ∈ x.returns, (events.filterMap Event.predicate)[r.call]? = some r.predicate
  nodup : (x.returns.map Return.call).Nodup
  fair : ∀ r ∈ x.returns, r.Fair
  order : x.returns.Pairwise Return.Before
  /-- A step appends what it pushes, or takes out the packet that it returns. -/
  next : ∀ ev y, x.step ev = some y →
    y.packets.map Prod.snd = x.packets.map Prod.snd ++ ev.packet.toList
      ∨ ∃ before e after r, x.packets = before ++ e :: after ∧ y.packets = before ++ after
        ∧ y.returns = x.returns ++ [r] ∧ r.found = x.packets ∧ r.result = .ok e

/-- **Delivery.**  In every run each packet of a push is in the queue or was taken by one call,
and the queue is in the order of the pushes.  Who returns a packet took the oldest that its
predicate accepts out of the queue, and who times out found none.  A call that returned earlier
took an older packet than any later one of which it would have accepted the packet. -/
theorem inbox_delivery (events : List Event) (x : PacketInbox)
    (hrun : exec step new events = some x) : Delivers events x := by
  have hnew : Inv new ∧ Once new := by
    refine ⟨⟨?_, ?_, ?_, ?_, ?_, ?_⟩, ?_, ?_⟩ <;> simp [new, taken]
  obtain ⟨hinv, honce⟩ := exec_invariant_all (I := fun x => Inv x ∧ Once x)
    (fun _ _ _ h hs => ⟨h.1.step (step_moves hs), h.2.step (step_moves hs)⟩) events new x hnew hrun
  have hpushed : x.pushed = events.filterMap Event.packet :=
    exec_log step_pushed events new x hrun
  have hcalls : x.calls.map Receiver.predicate = events.filterMap Event.predicate :=
    exec_log step_predicates events new x hrun
  refine ⟨hpushed ▸ hinv.conserved, hpushed ▸ hinv.pushed, hinv.sorted, ?_, honce.nodup,
    hinv.fair, hinv.order, ?_⟩
  · intro r hr
    rw [← hcalls, List.getElem?_map]
    rw [honce.returned r hr, Option.map_some]
  · intro ev y hs
    cases step_moves hs with
    | push => exact .inl List.map_append
    | call | wait | timeout => exact .inl (List.append_nil _).symm
    | take runs before after e packets first =>
      exact .inr ⟨before, e, after, _, packets, rfl, rfl, rfl, rfl⟩

/-- The second of two packets goes to a call that waited for it. -/
def sampleRun : List Event :=
  [.push ⟨.ack, 0, []⟩, .call (·.kind = .data), .lock 0 false false, .push ⟨.data, 1, []⟩,
    .lock 0 true true]

theorem inbox_delivery_sample :
    ∃ x, exec step new sampleRun = some x ∧ Delivers sampleRun x
      ∧ x.packets = [(0, ⟨.ack, 0, []⟩)] ∧ x.taken = [(1, ⟨.data, 1, []⟩)] := by
  refine ⟨_, rfl, inbox_delivery sampleRun _ rfl, ?_, ?_⟩ <;> rfl

/-! ## Calls that take effect at once -/

/-- The queue, what was pushed, and the calls with what they returned. -/
structure Sequential where
  packets : List Packet
  pushed : List Packet
  returns : List (Nat × (Packet → Bool) × Except IoError Packet)

inductive Sequential.Op where
  | push (packet : Packet)
  | recv (call : Nat) (predicate : Packet → Bool)

/-- The packet of a push. -/
def Sequential.Op.packet : Op → Option Packet
  | .push packet => some packet
  | .recv _ _ => none

/-- A push, or a whole call that waits for nothing. -/
def Sequential.step (x : Sequential) : Op → Sequential
  | .push packet => ⟨x.packets ++ [packet], x.pushed ++ [packet], x.returns⟩
  | .recv call predicate =>
    match MediumOverlay.recvMatching predicate x.packets with
    | some (packet, rest) => ⟨rest, x.pushed, x.returns ++ [(call, predicate, .ok packet)]⟩
    | none => { x with returns := x.returns ++ [(call, predicate, .error .timedOut)] }

def sequential (x : PacketInbox) : Sequential :=
  ⟨x.packets.map Prod.snd, x.pushed,
    x.returns.map fun r => (r.call, r.predicate, r.result.map Prod.snd)⟩

theorem recvMatching_append {before : List Packet} (h : ∀ p ∈ before, predicate p = false)
    (rest : List Packet) :
    MediumOverlay.recvMatching predicate (before ++ rest)
      = (MediumOverlay.recvMatching predicate rest).map (Prod.map id (before ++ ·)) := by
  induction before with
  | nil => exact Option.map_id'.symm
  | cons p before ih =>
    obtain ⟨hp, hbefore⟩ := List.forall_mem_cons.mp h
    rw [List.cons_append, MediumOverlay.recvMatching, hp, ih hbefore, Option.map_map]
    rfl

/-- A step is one operation with the packet that it pushes, or it cannot be seen. -/
theorem Moves.sequential (hs : Moves x ev y) :
    ∃ ops : List Sequential.Op, ops.filterMap Sequential.Op.packet = ev.packet.toList
      ∧ y.sequential = ops.foldl Sequential.step x.sequential := by
  cases hs with
  | push packet =>
    refine ⟨[.push packet], rfl, ?_⟩
    simp [PacketInbox.sequential, PacketInbox.push, Sequential.step]
  | call | wait => exact ⟨[], rfl, rfl⟩
  | @timeout i predicate _ _ _ rejects =>
    refine ⟨[.recv i predicate], rfl, ?_⟩
    have hnone := recvMatching_append (List.forall_mem_map.mpr rejects) []
    rw [List.append_nil] at hnone
    simp [PacketInbox.sequential, finish, Sequential.step, hnone, MediumOverlay.recvMatching,
      Except.map]
  | @take i predicate _ _ _ before after e packets first =>
    refine ⟨[.recv i predicate], rfl, ?_⟩
    simp [PacketInbox.sequential, finish, Sequential.step, packets, first.accepts, Except.map,
      recvMatching_append (List.forall_mem_map.mpr first.rejects), MediumOverlay.recvMatching]

/-- **Linearizability.**  However pushes, waits, timeouts and wake-ups interleave from some state
on, the queue and the returns are those of the pushes of the run and of whole calls, one after the
other.  As this holds for each part of a run, an operation takes effect between its call and its
return. -/
theorem inbox_linearizable (events : List Event) (x y : PacketInbox)
    (hrun : exec step x events = some y) :
    ∃ ops : List Sequential.Op,
      ops.filterMap Sequential.Op.packet = events.filterMap Event.packet
        ∧ y.sequential = ops.foldl Sequential.step x.sequential := by
  induction events generalizing x with
  | nil =>
    cases hrun
    exact ⟨[], rfl, rfl⟩
  | cons ev events ih =>
    obtain ⟨z, hstep, hrest⟩ := exec_cons_eq_some.mp hrun
    obtain ⟨first, hfirst, hz⟩ := (step_moves hstep).sequential
    obtain ⟨ops, hops, hy⟩ := ih z hrest
    refine ⟨first ++ ops, ?_, by rw [hy, hz, List.foldl_append]⟩
    rw [List.filterMap_append, hfirst, hops, List.filterMap_cons]
    cases ev.packet <;> rfl

theorem inbox_linearizable_sample :
    ∃ x ops, exec step new sampleRun = some x
      ∧ ops.filterMap Sequential.Op.packet = [⟨.ack, 0, []⟩, ⟨.data, 1, []⟩]
      ∧ x.sequential = List.foldl Sequential.step new.sequential ops := by
  obtain ⟨ops, hpushes, hops⟩ := inbox_linearizable sampleRun new _ rfl
  exact ⟨_, ops, rfl, hpushes, hops⟩

end PacketInbox

end MediumOverlay
