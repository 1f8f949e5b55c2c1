import Mathlib

/-!
# A ring buffer of packets

Packets lie one behind the other in a ring of `capacity` bytes, and a table with
`slots` entries says how long each one is.  A packet is never cut in two.  Where it
does not fit before the end of the ring, a padding entry takes that place and the
packet starts at the front.

A buffer that was empty when the first packet came has no padding until a packet is
taken out (`Fresh`), so what can be seen in it can be taken out
(`Unpadded.dequeue`).
-/

/-- The entries with their sizes, the oldest one first.  `none` is padding. -/
structure PacketBuffer (α : Type) where
  slots : Nat
  capacity : Nat
  readAt : Nat
  entries : List (Option α × Nat)
deriving DecidableEq, Repr

namespace PacketBuffer

variable {α : Type}

/-- An empty buffer. -/
def new (slots capacity : Nat) : PacketBuffer α := ⟨slots, capacity, 0, []⟩

/-- The number of bytes in use. -/
def length (buffer : PacketBuffer α) : Nat := (buffer.entries.map Prod.snd).sum

def isEmpty (buffer : PacketBuffer α) : Bool := buffer.entries.isEmpty

def isFull (buffer : PacketBuffer α) : Bool := buffer.slots ≤ buffer.entries.length

/-- The number of free bytes. -/
def window (buffer : PacketBuffer α) : Nat := buffer.capacity - buffer.length

/-- The number of free bytes before the end of the ring. -/
def contiguousWindow (buffer : PacketBuffer α) : Nat :=
  min buffer.window
    (buffer.capacity - (buffer.readAt + buffer.length) % buffer.capacity)

/-- Start again at the front if no byte is in use. -/
def clear (buffer : PacketBuffer α) : PacketBuffer α :=
  if buffer.length = 0 then { buffer with readAt := 0 } else buffer

/-- Add an entry.  An error holds the buffer as it was. -/
def push (buffer : PacketBuffer α) (entry : Option α × Nat) :
    Except (PacketBuffer α) (PacketBuffer α) :=
  if buffer.isFull then .error buffer
  else .ok { buffer with entries := buffer.entries ++ [entry] }

/-- Add a packet.  An error holds the buffer as it is left. -/
def enqueue (buffer : PacketBuffer α) (size : Nat) (packet : α) :
    Except (PacketBuffer α) (PacketBuffer α) :=
  if buffer.capacity < size ∨ buffer.isFull then .error buffer
  else
    let buffer := buffer.clear
    if buffer.window < size then .error buffer
    else if buffer.contiguousWindow < size then
      if buffer.window - buffer.contiguousWindow < size then .error buffer
      else do
        let buffer ← buffer.push (none, buffer.contiguousWindow)
        buffer.push (some packet, size)
    else buffer.push (some packet, size)

/-- The buffer after a packet was offered to it. -/
def offer (buffer : PacketBuffer α) (size : Nat) (packet : α) : PacketBuffer α :=
  match buffer.enqueue size packet with
  | .ok buffer => buffer
  | .error buffer => buffer

/-- The bytes of the first entries are free again. -/
def release (buffer : PacketBuffer α) (size : Nat) (entries : List (Option α × Nat)) :
    PacketBuffer α :=
  { buffer with readAt := (buffer.readAt + size) % buffer.capacity, entries }

/-- Take a packet out, with the padding in front of it. -/
def dequeue (buffer : PacketBuffer α) : Option (α × PacketBuffer α) :=
  match buffer.entries with
  | (some packet, size) :: rest => some (packet, buffer.release size rest)
  | (none, padding) :: (some packet, size) :: rest =>
    some (packet, buffer.release (padding + size) rest)
  | _ => none

/-- Take up to `n` packets out. -/
def drain : Nat → PacketBuffer α → PacketBuffer α
  | 0, buffer => buffer
  | n + 1, buffer =>
    match buffer.dequeue with
    | none => buffer
    | some (_, buffer) => drain n buffer

/-- The packets in the buffer. -/
def packets (buffer : PacketBuffer α) : List α := buffer.entries.filterMap Prod.fst

/-- There is no padding. -/
def Unpadded (buffer : PacketBuffer α) : Prop := ∀ entry ∈ buffer.entries, entry.1 ≠ none

/-- There is no padding and there will be none: the bytes in use start at the front. -/
structure Fresh (buffer : PacketBuffer α) : Prop where
  front : buffer.length = 0 ∨ buffer.readAt = 0
  unpadded : buffer.Unpadded

variable {buffer : PacketBuffer α}

theorem fresh_of_isEmpty (h : buffer.isEmpty) : buffer.Fresh := by
  have hnil : buffer.entries = [] := by simpa [isEmpty] using h
  exact ⟨.inl (by simp [length, hnil]), by simp [Unpadded, hnil]⟩

theorem contiguousWindow_of_readAt (h : buffer.readAt = 0) :
    buffer.contiguousWindow = buffer.window := by
  rw [contiguousWindow, h, Nat.zero_add]
  refine Nat.min_eq_left ?_
  rw [window]
  -- a ring in use to the last byte has no window on either side
  rcases Nat.lt_or_ge buffer.length buffer.capacity with hlt | hge
  · have hmod := Nat.mod_eq_of_lt hlt
    omega
  · omega

theorem Fresh.readAt_clear (h : buffer.Fresh) : buffer.clear.readAt = 0 := by
  unfold clear
  split
  next => rfl
  next hlen => exact h.front.resolve_left hlen

theorem entries_clear : buffer.clear.entries = buffer.entries := by
  unfold clear
  split <;> rfl

/-- A fresh buffer stays so, whatever is offered. -/
theorem Fresh.offer (h : buffer.Fresh) (size : Nat) (packet : α) :
    (buffer.offer size packet).Fresh := by
  have hclear : buffer.clear.Fresh :=
    ⟨.inr h.readAt_clear, fun entry hentry => h.unpadded entry (entries_clear ▸ hentry)⟩
  have hcont := contiguousWindow_of_readAt h.readAt_clear
  rw [PacketBuffer.offer, enqueue]
  by_cases hsize : buffer.capacity < size ∨ buffer.isFull
  · rw [if_pos hsize]
    exact h
  · by_cases hwindow : buffer.clear.window < size
    · simp only [if_neg hsize, if_pos hwindow]
      exact hclear
    · simp only [if_neg hsize, if_neg hwindow, hcont, push]
      split
      next b hb =>
        split at hb
        next => cases hb
        next =>
          cases hb
          refine ⟨.inr h.readAt_clear, fun entry hentry => ?_⟩
          rcases List.mem_append.mp hentry with hold | hnew
          · exact hclear.unpadded entry hold
          · simp [List.mem_singleton.mp hnew]
      next b hb =>
        split at hb <;> cases hb
        exact hclear

/-- A buffer without padding that is not empty has a packet to take out. -/
theorem Unpadded.dequeue (h : buffer.Unpadded) (hne : buffer.isEmpty = false) :
    ∃ packet rest, buffer.dequeue = some (packet, rest) ∧ rest.Unpadded
      ∧ buffer.packets = packet :: rest.packets
      ∧ buffer.entries.length = rest.entries.length + 1 := by
  cases hentries : buffer.entries with
  | nil => simp [isEmpty, hentries] at hne
  | cons entry rest =>
    obtain ⟨packet | packet, size⟩ := entry
    · exact absurd rfl (h (none, size) (hentries ▸ List.mem_cons_self))
    · refine ⟨packet, buffer.release size rest, ?_, ?_, ?_, ?_⟩
      · simp [PacketBuffer.dequeue, hentries]
      · intro entry hentry
        exact h entry (hentries ▸ List.mem_cons_of_mem _ hentry)
      · simp [packets, hentries, release]
      · simp [release]

end PacketBuffer
