import MediumOverlay.Lib.Fallible
import MediumOverlay.Netstack.Polls

/-!
# The listeners of the network stack

Before each poll of the interface `ensure_tcp_listeners` sees to it that every service
has a socket that listens on each of its two ports.  Sockets that have closed listen
again, and where all slots of a port are busy, a new one is added.  No slot is ever
taken away, so a port keeps as many slots as were once needed at the same time, and one
(`listeners_on_every_address`).

`poll_stages` is what a poll does to the slots, in four stages.
-/

namespace MediumOverlay.Netstack

open Fallible Trace

/-! ## The slots of a port -/

/-- The slot has a stream, or its socket a connection. -/
def TcpSlot.Busy (slot : TcpSlot) : Prop := slot.streamId ≠ none ∨ slot.socket.isActive = true

instance (slot : TcpSlot) : Decidable slot.Busy := inferInstanceAs (Decidable (_ ∨ _))

/-- The number of slots of a service and a port. -/
def slotCount (serviceId : String) (port : Nat) (slots : List TcpSlot) : Nat :=
  slots.countP fun slot => slot.serviceId = serviceId ∧ slot.port = port

/-- The number of those that are busy. -/
def busyCount (serviceId : String) (port : Nat) (slots : List TcpSlot) : Nat :=
  slots.countP fun slot => (slot.serviceId = serviceId ∧ slot.port = port) ∧ slot.Busy

variable {network : VirtualNetwork} {slot slot' : TcpSlot} {slots slots' : List TcpSlot}
  {serviceId : String} {port : Nat}

theorem slotCount_append (slots slots' : List TcpSlot) :
    slotCount serviceId port (slots ++ slots') =
      slotCount serviceId port slots + slotCount serviceId port slots' :=
  List.countP_append ..

/-- Slots that are for the same port one by one. -/
theorem slotCount_eq_of_forall₂
    (h : List.Forall₂ (fun a b : TcpSlot => b.serviceId = a.serviceId ∧ b.port = a.port)
      slots slots') : slotCount serviceId port slots' = slotCount serviceId port slots := by
  induction h with
  | nil => rfl
  | cons hslot _ ih =>
    rw [slotCount, slotCount, List.countP_cons, List.countP_cons, hslot.1, hslot.2]
    exact congrArg (· + _) ih

/-- If all slots of a port are busy, they are counted as busy. -/
theorem slotCount_eq_busyCount
    (h : ∀ slot ∈ slots, slot.serviceId = serviceId → slot.port = port → slot.Busy) :
    slotCount serviceId port slots = busyCount serviceId port slots := by
  refine List.countP_congr fun slot hslot => ?_
  simp only [decide_eq_true_eq]
  exact ⟨fun hfor => ⟨hfor, h slot hslot hfor.1 hfor.2⟩, And.left⟩

/-! ## Listening again -/

/-- A socket right after `listen`. -/
def TcpSocket.listening (endpoint : Option (Ipv4Address × Nat)) : TcpSocket :=
  { TcpSocket.new with state := .listen, endpoint }

/-- What listening again does to a slot. -/
structure Relistened (before after : TcpSlot) : Prop where
  serviceId : after.serviceId = before.serviceId
  port : after.port = before.port
  streamId : after.streamId = before.streamId
  isOpen : after.socket.isOpen = true
  busy : after.Busy ↔ before.Busy
  socket : (before.socket.isOpen = true ∧ after.socket = before.socket) ∨
    (before.socket.isOpen = false ∧ ∃ endpoint, after.socket = .listening endpoint)

theorem relistened (h : slot.Placed network) (hslot : relisten network slot = .ok slot') :
    Relistened slot slot' := by
  obtain ⟨service, hfind, -⟩ := h.service
  simp only [relisten, hfind] at hslot
  split at hslot
  next hopen =>
    cases hslot
    exact ⟨rfl, rfl, rfl, hopen, Iff.rfl, Or.inl ⟨hopen, rfl⟩⟩
  next hopen =>
    rw [TcpSocket.listen_of_not_isOpen hopen service.addr h.port_ne_zero] at hslot
    cases hslot
    -- a socket that is not open has no connection, and neither has one that listens
    have hactive : slot.socket.isActive = false := by
      unfold TcpSocket.isOpen at hopen
      unfold TcpSocket.isActive
      split at hopen <;> simp_all
    exact ⟨rfl, rfl, rfl, rfl, or_congr_right (by rw [hactive]; rfl),
      Or.inr ⟨Bool.eq_false_iff.mpr hopen, _, rfl⟩⟩

theorem forall₂_relisten (h : ∀ slot ∈ slots, slot.Placed network)
    (hslots : slots.mapM (relisten network) = .ok slots') :
    List.Forall₂ Relistened slots slots' := by
  induction slots generalizing slots' with
  | nil =>
    cases hslots
    exact .nil
  | cons slot slots ih =>
    obtain ⟨hplaced, hrest⟩ := List.forall_mem_cons.mp h
    rw [List.mapM_cons] at hslots
    obtain ⟨slot', hslot, hslots⟩ := bind_eq_ok_iff.mp hslots
    obtain ⟨rest, hmap, hslots⟩ := bind_eq_ok_iff.mp hslots
    cases hslots
    exact .cons (relistened hplaced hslot) (ih hrest hmap)

/-! ## New slots -/

/-- A slot is added if the port has no listener. -/
theorem addListener_cases {desired : String × Ipv4Address × Nat}
    (h : addListener network slots desired = .ok slots') :
    (hasListener slots desired.1 desired.2.2 = true ∧ slots' = slots) ∨
      (hasListener slots desired.1 desired.2.2 = false ∧ ∃ slot, slots' = slots ++ [slot] ∧
        slot.serviceId = desired.1 ∧ slot.port = desired.2.2 ∧ slot.streamId = none ∧
        (∃ endpoint, slot.socket = .listening endpoint) ∧
        hasListener slots' desired.1 desired.2.2 = true) := by
  obtain ⟨id, addr, port⟩ := desired
  unfold addListener at h
  dsimp only at h ⊢
  split at h
  next hlistener =>
    cases h
    exact Or.inl ⟨hlistener, rfl⟩
  next hlistener =>
    obtain ⟨socket, hlisten, h⟩ := bind_eq_ok_iff.mp h
    cases h
    have hsocket : ∃ endpoint, socket = .listening endpoint := by
      unfold TcpSocket.listen at hlisten
      split at hlisten
      next => cases hlisten
      next =>
        rw [if_neg (by decide)] at hlisten
        cases hlisten
        exact ⟨_, rfl⟩
    refine Or.inr ⟨by simpa using hlistener, _, rfl, rfl, rfl, rfl, hsocket, ?_⟩
    obtain ⟨endpoint, rfl⟩ := hsocket
    rw [hasListener_append]
    simp [hasListener, TcpSocket.listening]

/-- Over a list of desired listeners a port gets at most one slot, and only if it has no
listener. -/
theorem foldlM_addListener_count {desired : List (String × Ipv4Address × Nat)}
    (h : desired.foldlM (addListener network) slots = .ok slots') :
    slotCount serviceId port slots' = slotCount serviceId port slots ∨
      (slotCount serviceId port slots' = slotCount serviceId port slots + 1 ∧
        hasListener slots serviceId port = false) := by
  induction desired generalizing slots with
  | nil =>
    cases h
    exact Or.inl rfl
  | cons d desired ih =>
    rw [List.foldlM_cons] at h
    obtain ⟨slots₁, hadd, hfold⟩ := bind_eq_ok_iff.mp h
    have hrest := ih hfold
    rcases addListener_cases hadd with ⟨-, rfl⟩ | ⟨hnone, slot, rfl, hid, hport, -, -, hsome⟩
    · exact hrest
    · by_cases hfor : d.1 = serviceId ∧ d.2.2 = port
      · -- the port has its listener now, and gets no other
        obtain ⟨rfl, rfl⟩ := hfor
        have hone : slotCount d.1 d.2.2 [slot] = 1 := by simp [slotCount, hid, hport]
        rw [hsome, slotCount_append, hone] at hrest
        simp only [Bool.true_eq_false, and_false, or_false] at hrest
        exact Or.inr ⟨hrest, hnone⟩
      · have hzero : slotCount serviceId port [slot] = 0 := by
          simpa [slotCount, hid, hport] using hfor
        have hsame : hasListener (slots ++ [slot]) serviceId port =
            hasListener slots serviceId port := by
          rw [hasListener_append]
          have : hasListener [slot] serviceId port = false := by
            simp only [hasListener, List.any_cons, List.any_nil, Bool.or_false,
              decide_eq_false_iff_not, hid, hport]
            exact fun hall => hfor ⟨hall.1, hall.2.1⟩
          rw [this, Bool.or_false]
        rwa [hsame, slotCount_append, hzero, Nat.add_zero] at hrest

/-- What `ensure_tcp_listeners` does: closed sockets listen again, and slots without a
stream are added. -/
theorem ensureTcpListeners_slots (h : ∀ slot ∈ slots, slot.Placed network)
    (hensure : ensureTcpListeners network slots = .ok slots') :
    ∃ again added, slots' = again ++ added ∧ List.Forall₂ Relistened slots again ∧
      ∀ slot ∈ added, slot.streamId = none ∧ ∃ endpoint, slot.socket = .listening endpoint := by
  obtain ⟨again, hmap, hfold⟩ := bind_eq_ok_iff.mp hensure
  suffices hadded : ∃ added, slots' = again ++ added ∧
      ∀ slot ∈ added, slot.streamId = none ∧ ∃ endpoint, slot.socket = .listening endpoint by
    obtain ⟨added, heq, hall⟩ := hadded
    exact ⟨again, added, heq, forall₂_relisten h hmap, hall⟩
  clear hensure hmap
  generalize desiredListeners network = desired at hfold
  induction desired using List.reverseRecOn generalizing slots' with
  | nil =>
    cases hfold
    exact ⟨[], (List.append_nil again).symm, by simp⟩
  | append_singleton desired d ih =>
    rw [List.foldlM_append] at hfold
    obtain ⟨slots₁, hfold, hadd⟩ := bind_eq_ok_iff.mp hfold
    obtain ⟨slots₂, hadd, hlast⟩ := bind_eq_ok_iff.mp hadd
    cases hlast
    obtain ⟨added, rfl, hall⟩ := ih hfold
    rcases addListener_cases hadd with ⟨-, rfl⟩ | ⟨-, slot, rfl, -, -, hnone, hsocket, -⟩
    · exact ⟨added, rfl, hall⟩
    · refine ⟨added ++ [slot], List.append_assoc .., fun s hs => ?_⟩
      rcases List.mem_append.mp hs with hs | hs
      · exact hall s hs
      · rw [List.mem_singleton.mp hs]
        exact ⟨hnone, hsocket⟩

/-- A port without a listener has only busy slots, once the closed ones listen again. -/
theorem busy_of_not_hasListener (h : hasListener slots serviceId port = false)
    (hopen : ∀ slot ∈ slots, slot.socket.isOpen = true) :
    ∀ slot ∈ slots, slot.serviceId = serviceId → slot.port = port → slot.Busy := by
  intro slot hslot hid hport
  simp only [hasListener, List.any_eq_false, decide_eq_true_eq] at h
  by_cases hstream : slot.streamId = none
  · right
    have hstate : slot.socket.state ≠ .listen := fun hlisten =>
      h slot hslot ⟨hid, hport, hstream, hlisten⟩
    have hisOpen := hopen slot hslot
    unfold TcpSocket.isOpen at hisOpen
    unfold TcpSocket.isActive
    split at hisOpen <;> simp_all
  · exact Or.inl hstream

/-- **New slots.**  A port gets at most one, and only when all its slots are busy. -/
theorem ensureTcpListeners_count (h : ∀ slot ∈ slots, slot.Placed network)
    (hensure : ensureTcpListeners network slots = .ok slots') :
    slotCount serviceId port slots' = slotCount serviceId port slots ∨
      (slotCount serviceId port slots' = slotCount serviceId port slots + 1 ∧
        ∀ slot ∈ slots, slot.serviceId = serviceId → slot.port = port → slot.Busy) := by
  obtain ⟨slots₁, hmap, hfold⟩ := bind_eq_ok_iff.mp hensure
  have hrelisten := forall₂_relisten h hmap
  have hcount : slotCount serviceId port slots₁ = slotCount serviceId port slots :=
    slotCount_eq_of_forall₂ (hrelisten.imp fun _ _ hslot => ⟨hslot.serviceId, hslot.port⟩)
  rw [← hcount]
  refine (foldlM_addListener_count hfold).imp_right (And.imp_right fun hnone => ?_)
  have hopen : ∀ slot ∈ slots₁, slot.socket.isOpen = true :=
    MediumStack.forall_mem_of_forall₂ hrelisten (fun _ _ hslot _ => hslot.isOpen) h
  refine MediumStack.forall_mem_of_forall₂ hrelisten.flip ?_ (busy_of_not_hasListener hnone hopen)
  intro after before hslot hbusy hid hport
  exact hslot.busy.mp (hbusy (hslot.serviceId.trans hid) (hslot.port.trans hport))

/-! ## Polls and other calls -/

/-- The slots while the interface is polled. -/
def IfacePoll.evolve (io : IfacePoll) (slots : List TcpSlot) : List TcpSlot :=
  slots.mapIdx fun i slot => { slot with socket := io.tcp i slot.socket }

theorem IfacePoll.forall₂_evolve {R : TcpSlot → TcpSlot → Prop} (io : IfacePoll)
    (slots : List TcpSlot) (h : ∀ i slot, R slot { slot with socket := io.tcp i slot.socket }) :
    List.Forall₂ R slots (io.evolve slots) := by
  refine List.forall₂_iff_get.mpr ⟨by simp [IfacePoll.evolve], ?_⟩
  intro i hi hi'
  simpa [IfacePoll.evolve] using h i _

namespace MediumStack

variable {interface : Interface} {stack stack' : MediumStack interface}

/-- The four stages of a poll: the listeners, the first poll of the interface, the pump
and the second poll. -/
theorem poll_stages {now : Int} {first second : IfacePoll} {events : List TcpPumpEvent}
    (h : stack.poll now first second = .ok (events, stack')) :
    ∃ listening next pumped,
      ensureTcpListeners stack.network stack.tcpSlots = .ok listening ∧
      pumpTcp stack.network stack.nextTcpStream (first.evolve listening) =
        .ok (events, next, pumped) ∧
      stack'.tcpSlots = second.evolve pumped ∧ stack'.nextTcpStream = next ∧
      stack'.network = stack.network := by
  obtain ⟨prepared, hprepare, h⟩ := bind_eq_ok_iff.mp h
  obtain ⟨dns, hdns, hprepare⟩ := bind_eq_ok_iff.mp hprepare
  obtain ⟨listening, hlistening, hprepare⟩ := bind_eq_ok_iff.mp hprepare
  cases hprepare
  obtain ⟨⟨events', pumped⟩, hpump, h⟩ := bind_eq_ok_iff.mp h
  cases h
  obtain ⟨dns', hdns', hpump⟩ := bind_eq_ok_iff.mp hpump
  obtain ⟨⟨events', next, slots⟩, htcp, hpump⟩ := bind_eq_ok_iff.mp hpump
  cases hpump
  exact ⟨listening, next, slots, hlistening, htcp, rfl, rfl, rfl⟩

/-- Calls other than polls send for a slot or close it, if they do anything to the slots. -/
theorem step_forall₂ {R : TcpSlot → TcpSlot → Prop} (hrefl : ∀ slot, R slot slot)
    (hsend : ∀ slot tx, R slot { slot with socket := { slot.socket with tx } })
    (hclose : ∀ slot, R slot { slot with socket := slot.socket.close, streamId := none })
    {call : Call} (hother : ∀ now first second, call ≠ .poll now first second)
    (h : stack.step call = some stack') :
    stack'.network = stack.network ∧ stack'.nextTcpStream = stack.nextTcpStream ∧
      List.Forall₂ R stack.tcpSlots stack'.tcpSlots := by
  have hsame : List.Forall₂ R stack.tcpSlots stack.tcpSlots :=
    List.forall₂_same.mpr fun slot _ => hrefl slot
  cases call with
  | poll now first second => exact absurd rfl (hother now first second)
  | push packet =>
    cases h
    exact ⟨rfl, rfl, hsame⟩
  | pop =>
    cases h
    unfold popTunPacket
    split <;> exact ⟨rfl, rfl, hsame⟩
  | send streamId bytes =>
    cases h
    cases hsent : stack.sendTcp streamId bytes with
    | none => exact ⟨rfl, rfl, hsame⟩
    | some after =>
      obtain ⟨slots, rfl, hslots⟩ := sendTcp_forall₂ hsent
      refine ⟨rfl, rfl, hslots.imp ?_⟩
      rintro before _ ⟨tx, rfl⟩
      exact hsend before tx
  | close streamId =>
    cases h
    cases hclosed : stack.closeTcp streamId with
    | none => exact ⟨rfl, rfl, hsame⟩
    | some after =>
      obtain ⟨slots, rfl, hslots⟩ := closeTcp_forall₂ hclosed
      refine ⟨rfl, rfl, hslots.imp ?_⟩
      rintro before after (rfl | rfl)
      · exact hrefl _
      · exact hclose before

/-- The slots of the ports after a call are those before it, but for the listeners that a
poll adds. -/
theorem step_slotCount (serviceId : String) (port : Nat) {call : Call}
    (h : stack.step call = some stack') :
    stack'.network = stack.network ∧
      (slotCount serviceId port stack'.tcpSlots = slotCount serviceId port stack.tcpSlots ∨
        ∃ listening, ensureTcpListeners stack.network stack.tcpSlots = .ok listening ∧
          slotCount serviceId port stack'.tcpSlots = slotCount serviceId port listening) := by
  cases call with
  | poll now first second =>
    simp only [step] at h
    split at h
    next => cases h
    next events after hpoll =>
      cases h
      obtain ⟨listening, next, pumped, hlistening, hpump, hslots, -, hnetwork⟩ :=
        poll_stages hpoll
      refine ⟨hnetwork, Or.inr ⟨listening, hlistening, ?_⟩⟩
      have hfirst := first.forall₂_evolve (R := fun a b => b.serviceId = a.serviceId ∧
        b.port = a.port) listening fun _ _ => ⟨rfl, rfl⟩
      have hsecond := second.forall₂_evolve (R := fun a b => b.serviceId = a.serviceId ∧
        b.port = a.port) pumped fun _ _ => ⟨rfl, rfl⟩
      obtain ⟨events', next', pumped', hspec, hfollows, -⟩ :=
        pumpTcp_spec stack.network stack.nextTcpStream (first.evolve listening)
      rw [hpump] at hspec
      cases hspec
      have hpumped := hfollows.imp fun _ _ hslot => And.intro hslot.serviceId hslot.port
      rw [hslots, slotCount_eq_of_forall₂ hsecond, slotCount_eq_of_forall₂ hpumped,
        slotCount_eq_of_forall₂ hfirst]
  | push packet | pop | send streamId bytes | close streamId =>
    obtain ⟨hnetwork, -, hslots⟩ := step_forall₂ (R := fun a b => b.serviceId = a.serviceId ∧
      b.port = a.port) (fun _ => ⟨rfl, rfl⟩) (fun _ _ => ⟨rfl, rfl⟩) (fun _ => ⟨rfl, rfl⟩)
      (by simp) h
    exact ⟨hnetwork, Or.inl (slotCount_eq_of_forall₂ hslots)⟩

/-- At some point of the run as many slots of the port were busy as there are now, but
for one. -/
def WereBusy (start : MediumStack interface) (calls : List Call) (serviceId : String)
    (port count : Nat) : Prop :=
  ∃ before stack, before <+: calls ∧ exec step start before = some stack ∧
    count ≤ 1 + busyCount serviceId port stack.tcpSlots

/-- New listeners are within that bound. -/
theorem wereBusy_listening {start : MediumStack interface} {calls : List Call}
    {listening : List TcpSlot} (run : exec step start calls = some stack) (ready : stack.Ready)
    (h : WereBusy start calls serviceId port (slotCount serviceId port stack.tcpSlots))
    (hlistening : ensureTcpListeners stack.network stack.tcpSlots = .ok listening) :
    WereBusy start calls serviceId port (slotCount serviceId port listening) := by
  rcases ensureTcpListeners_count ready.slots hlistening with hsame | ⟨hmore, hbusy⟩
  · rw [hsame]
    exact h
  · refine ⟨calls, stack, List.prefix_refl calls, run, ?_⟩
    rw [hmore, slotCount_eq_busyCount hbusy, Nat.add_comm]

/-- The slots that the stack starts with: one for each service and port. -/
theorem slotCount_services {services : List VirtualService}
    (distinct : (services.map VirtualService.id).Nodup) :
    slotCount serviceId port (services.flatMap fun service =>
      [HTTP_PORT, HTTPS_PORT].map fun port =>
        ⟨.new, service.id, service.hostname, port, none⟩) ≤ 1 := by
  induction services with
  | nil => simp [slotCount]
  | cons service services ih =>
    rw [List.map_cons, List.nodup_cons] at distinct
    rw [List.flatMap_cons, slotCount_append]
    by_cases hid : service.id = serviceId
    · -- the other services have other ids
      have hzero : slotCount serviceId port (services.flatMap fun service =>
          [HTTP_PORT, HTTPS_PORT].map fun port =>
            (⟨.new, service.id, service.hostname, port, none⟩ : TcpSlot)) = 0 := by
        refine List.countP_eq_zero.mpr fun slot hslot => ?_
        obtain ⟨other, hother, hmem⟩ := List.mem_flatMap.mp hslot
        obtain ⟨p, -, rfl⟩ := List.mem_map.mp hmem
        have hne : other.id ≠ serviceId := by
          intro heq
          exact distinct.1 (List.mem_map.mpr ⟨other, hother, heq.trans hid.symm⟩)
        simp [hne]
      rw [hzero, Nat.add_zero]
      by_cases hport : port = HTTP_PORT
      · simp [slotCount, hid, hport, HTTP_PORT, HTTPS_PORT]
      · simp only [slotCount, List.map_cons, List.map_nil, hid, List.countP_cons,
          Ne.symm hport, List.countP_nil]
        split <;> simp
    · have hzero : slotCount serviceId port ([HTTP_PORT, HTTPS_PORT].map fun port =>
          (⟨.new, service.id, service.hostname, port, none⟩ : TcpSlot)) = 0 := by
        simp [slotCount, hid]
      rw [hzero, Nat.zero_add]
      exact ih distinct.2

/-- What a run keeps: the network, its readiness, and the bound on the slots of a port. -/
theorem run_wereBusy (serviceId : String) (port : Nat) {capacity : Nat}
    {start : MediumStack interface} (calls : List Call)
    (distinct : (network.services.map VirtualService.id).Nodup)
    (started : new interface capacity network = some start)
    (run : exec step start calls = some stack) :
    stack.network = network ∧ stack.Ready ∧
      WereBusy start calls serviceId port (slotCount serviceId port stack.tcpSlots) := by
  induction calls using List.reverseRecOn generalizing stack with
  | nil =>
    cases run
    refine ⟨?_, new_ready started, [], start, List.prefix_refl [], rfl, ?_⟩
    · obtain ⟨addrs, -, rfl⟩ := Option.map_eq_some_iff.mp started
      rfl
    · obtain ⟨addrs, -, rfl⟩ := Option.map_eq_some_iff.mp started
      exact (slotCount_services distinct).trans (Nat.le_add_right 1 _)
  | append_singleton calls call ih =>
    obtain ⟨before, hbefore, hcall⟩ := exec_append_eq_some.mp run
    obtain ⟨after, hcall, hnil⟩ := exec_cons_eq_some.mp hcall
    cases hnil
    obtain ⟨hnetwork, hready, hbusy⟩ := ih hbefore
    obtain ⟨hnetwork', hcount⟩ := step_slotCount serviceId port hcall
    refine ⟨hnetwork'.trans hnetwork, step_ready hready hcall, ?_⟩
    have hlater : ∀ {count}, WereBusy start calls serviceId port count →
        WereBusy start (calls ++ [call]) serviceId port count := by
      rintro count ⟨early, s, hearly, hrun, hle⟩
      exact ⟨early, s, hearly.trans (List.prefix_append _ _), hrun, hle⟩
    rcases hcount with hsame | ⟨listening, hlistening, hcount⟩
    · rw [hsame]
      exact hlater hbusy
    · rw [hcount]
      exact hlater (wereBusy_listening hbefore hready hbusy hlistening)

/-- The first service with an id is the one, if ids are distinct. -/
theorem find?_service {services : List VirtualService} {service : VirtualService}
    (distinct : (services.map VirtualService.id).Nodup) (hservice : service ∈ services) :
    services.find? (·.id = service.id) = some service := by
  induction services with
  | nil => cases hservice
  | cons first services ih =>
    rw [List.map_cons, List.nodup_cons] at distinct
    rcases List.mem_cons.mp hservice with rfl | hrest
    · simp
    · have hne : first.id ≠ service.id := by
        intro heq
        exact distinct.1 (List.mem_map.mpr ⟨service, hrest, heq.symm⟩)
      rw [List.find?_cons_of_neg (by simpa using hne)]
      exact ih distinct.2 hrest

/-- **Listeners.**  For a network whose services have distinct ids, in every state that
calls can reach: `ensure_tcp_listeners` succeeds, and then every service has a free slot
that listens on its own address, for each of the two ports.  Every socket is closed or
at the address of the service of its slot.  A port gets a new slot only if all its slots
are busy, and it has at most one more than were ever busy at the same time. -/
theorem listeners_on_every_address (interface : Interface) (capacity : Nat)
    (network : VirtualNetwork) (start stack : MediumStack interface) (calls : List Call)
    (distinct : (network.services.map VirtualService.id).Nodup)
    (started : new interface capacity network = some start)
    (run : exec step start calls = some stack) :
    ∃ listening, ensureTcpListeners stack.network stack.tcpSlots = .ok listening ∧
      (∀ service ∈ network.services, ∀ port ∈ [HTTP_PORT, HTTPS_PORT],
        ∃ slot ∈ listening, slot.serviceId = service.id ∧ slot.port = port ∧
          slot.streamId = none ∧ slot.socket.state = .listen ∧
          slot.socket.endpoint = some (service.addr, port)) ∧
      (∀ slot ∈ listening, slot.socket.state = .closed ∨
        ∃ service ∈ network.services, service.id = slot.serviceId ∧
          slot.socket.endpoint = some (service.addr, slot.port)) ∧
      (∀ serviceId port,
        slotCount serviceId port stack.tcpSlots < slotCount serviceId port listening →
          ∀ slot ∈ stack.tcpSlots, slot.serviceId = serviceId → slot.port = port → slot.Busy) ∧
      ∀ serviceId port,
        WereBusy start calls serviceId port (slotCount serviceId port listening) := by
  have hall := fun serviceId port => run_wereBusy serviceId port calls distinct started run
  obtain ⟨hnetwork, hready, -⟩ := hall "" 0
  obtain ⟨listening, hlistening, hplaced, hlisteners⟩ := ensureTcpListeners_spec hready.slots
  rw [hnetwork] at hplaced hlisteners
  refine ⟨listening, hlistening, ?_, ?_, ?_, ?_⟩
  · intro service hservice port hport
    have hlistener : hasListener listening service.id port = true := by
      rcases List.mem_pair.mp hport with rfl | rfl
      · exact (hlisteners service hservice).1
      · exact (hlisteners service hservice).2
    obtain ⟨slot, hslot, hfor⟩ := List.any_eq_true.mp hlistener
    obtain ⟨hid, hslotPort, hstream, hstate⟩ := of_decide_eq_true hfor
    refine ⟨slot, hslot, hid, hslotPort, hstream, hstate, ?_⟩
    obtain ⟨first, hfind, hendpoint⟩ := (hplaced slot hslot).service
    rw [hid, find?_service distinct hservice, Option.some.injEq] at hfind
    rw [hendpoint (by simp [hstate]), hfind, hslotPort]
  · intro slot hslot
    obtain ⟨service, hfind, hendpoint⟩ := (hplaced slot hslot).service
    by_cases hclosed : slot.socket.state = .closed
    · exact Or.inl hclosed
    · refine Or.inr ⟨service, List.mem_of_find?_eq_some hfind, ?_, hendpoint hclosed⟩
      simpa using List.find?_some hfind
  · intro serviceId port hmore
    rcases ensureTcpListeners_count hready.slots hlistening with hsame | ⟨-, hbusy⟩
    · exact absurd hmore (by rw [hsame]; exact Nat.lt_irrefl _)
    · exact hbusy
  · intro serviceId port
    exact wereBusy_listening run hready (hall serviceId port).2.2 hlistening

/-- Every socket that listens gets a SYN. -/
def connecting : IfacePoll where
  tcp _ socket :=
    if socket.state = .listen then { socket with state := .synReceived } else socket
  evolves _ socket := by
    split
    next hlisten => exact ⟨fun hclosed => by simp [hlisten] at hclosed, fun _ => rfl⟩
    next => exact .of_eq rfl rfl
  sent := 0
  written := []

/-- With both sockets of a service taken, two more listen. -/
theorem listeners_on_every_address_taken : ∃ stack listening,
    exec step sampleStack [.poll 0 connecting idle] = some stack ∧
      ensureTcpListeners stack.network stack.tcpSlots = .ok listening ∧ listening.length = 4 ∧
      ∀ service ∈ sampleNetwork.services, ∀ port ∈ [HTTP_PORT, HTTPS_PORT],
        ∃ slot ∈ listening, slot.serviceId = service.id ∧ slot.port = port ∧
          slot.streamId = none ∧ slot.socket.state = .listen ∧
          slot.socket.endpoint = some (service.addr, port) := by
  obtain ⟨stack, run, hstack⟩ :
      ∃ stack, exec step sampleStack [.poll 0 connecting idle] = some stack ∧
        (ensureTcpListeners stack.network stack.tcpSlots).toOption.all
          (fun listening => listening.length = 4) := by
    decide +kernel
  obtain ⟨listening, hlistening, hslots, -⟩ := listeners_on_every_address plainInterface
    IFACE_MAX_ADDR_COUNT sampleNetwork sampleStack stack [.poll 0 connecting idle]
    (by decide +kernel) new_sampleStack run
  rw [hlistening] at hstack
  exact ⟨stack, listening, run, hlistening, of_decide_eq_true hstack, hslots⟩

end MediumStack

end MediumOverlay.Netstack
