import MediumOverlay.Lib.Trace
import MediumOverlay.Transport.Hello

/-!
# Pairing at the relay

A node keeps sockets waiting at the relay, and a client that asks for the node is
given one of them.  The relay has a map from node ids to waiting sockets.  A client
takes the newest one, discards it if it is older than a limit and takes the next,
and if none is left it sleeps and tries again, fifty times.

The TCP relay and the WSS relay are two copies of this.  `RelayTransport` is what
they do not share.

A socket that was registered is waiting, was handed to a client, or was discarded,
and is so once (`Sound.account`).  The order of a waiting list is the order of
registration, so the newest socket decides: if it is too old, all are.  But a
lookup that finds a fresh one stops there, and the old sockets below it stay.
`held_at_most_recent` is about lookups that find no such list.
-/

namespace MediumOverlay

open Trace

/-- `RELAY_NODE_SOCKET_TTL`, in nanoseconds. -/
def RELAY_NODE_SOCKET_TTL : Nat := 60000000000

/-- `WaitingTcpNode` and `WaitingWebSocketNode`.  A socket is the number of its
connection. -/
structure WaitingNode where
  connectedAt : Nat
  socket : Nat
deriving DecidableEq, Repr

/-- How a relay reads the hello of a connection, and the error of a client that
finds no socket. -/
structure RelayTransport (ι : Type) where
  readHello : ι → Except AnyhowError RelayHello
  unavailable : String → String

/-- The WSS relay. -/
def wssRelay (fromStr : String → Except String RelayHello) :
    RelayTransport (List (Except AnyhowError WsMessage)) where
  readHello := readWssRelayHello fromStr
  unavailable nodeId := "no relay node websocket available for " ++ nodeId

/-- A client in `wait_for_node_stream_with_ttl` or `wait_for_node_websocket`. -/
structure RelayClient where
  nodeId : String
  attempts : Nat
  readyAt : Nat
  outcome : Option (Except AnyhowError Nat)
deriving DecidableEq

/-- A node that was put on the map. -/
structure Registration where
  nodeId : String
  sharedSecret : String
  node : WaitingNode
deriving DecidableEq, Repr

/-- A socket that was handed to a client, and its age then. -/
structure Pairing where
  client : Nat
  nodeId : String
  node : WaitingNode
  age : Nat
deriving DecidableEq, Repr

/-- A socket that was discarded, and its age then. -/
structure Discard where
  nodeId : String
  node : WaitingNode
  age : Nat
deriving DecidableEq, Repr

/-- A relay.  The waiting sockets of a node are listed newest first.  Registrations,
pairings and discarded sockets are history. -/
structure Relay where
  now : Nat
  connections : Nat
  waiting : AList fun _ : String => List WaitingNode
  clients : List RelayClient
  registered : List Registration
  paired : List Pairing
  discarded : List Discard

namespace Relay

inductive Event (ι : Type) where
  /-- A connection, up to the end of its hello. -/
  | connection (input : ι)
  | tick (elapsed : Nat)
  /-- A node closes a waiting socket.  Nothing at the relay reads from it. -/
  | dropped (socket : Nat)
  /-- A client goes through its loop.  Some time passes before each socket it looks
  at. -/
  | attempt (client : Nat) (delays : List Nat)

def init : Relay := ⟨0, 0, ∅, [], [], [], []⟩

/-- The sockets waiting for a node. -/
def held (x : Relay) (nodeId : String) : List WaitingNode := (x.waiting.lookup nodeId).getD []

/-- `handle_connection` and `handle_wss_connection` on the hello. -/
def handleHello (sharedSecret : Option String) (x : Relay) (hello : RelayHello) : Relay :=
  match hello with
  | .node nodeId providedSecret =>
    match sharedSecret with
    -- "relay shared secret is not configured"
    | none => x
    | some expectedSecret =>
      -- "relay node authentication failed for {node_id}"
      if expectedSecret ≠ providedSecret then x
      else
        let node := ⟨x.now, x.connections⟩
        { x with
          waiting := x.waiting.insert nodeId (node :: x.held nodeId)
          registered := x.registered ++ [⟨nodeId, providedSecret, node⟩] }
  | .client nodeId => { x with clients := x.clients ++ [⟨nodeId, 0, x.now, none⟩] }

/-- What the loop over the waiting sockets comes to. -/
structure Popped where
  now : Nat
  selected : Option (WaitingNode × Nat)
  rest : List WaitingNode
  discarded : List (WaitingNode × Nat)

/-- The loop `while let Some(node) = nodes.pop()`. -/
def popNodes (ttl : Nat) : Nat → List Nat → List WaitingNode → Popped
  | now, _, [] => ⟨now, none, [], []⟩
  | now, delays, node :: nodes =>
    let now := now + delays.headD 0
    let age := now - node.connectedAt
    if age ≤ ttl then ⟨now, some (node, age), nodes, []⟩
    else
      let popped := popNodes ttl now delays.tail nodes
      { popped with discarded := (node, age) :: popped.discarded }

/-- What an attempt does to the map, with the socket it selects. -/
def takeNode (ttl : Nat) (x : Relay) (nodeId : String) (delays : List Nat) :
    Relay × Option (WaitingNode × Nat) :=
  match x.waiting.lookup nodeId with
  | none => (x, none)
  | some nodes =>
    let popped := popNodes ttl x.now delays nodes
    ({ x with
      now := popped.now
      waiting := if popped.rest.isEmpty then x.waiting.erase nodeId
        else x.waiting.insert nodeId popped.rest
      discarded := x.discarded ++ popped.discarded.map fun (node, age) => ⟨nodeId, node, age⟩ },
      popped.selected)

def ATTEMPTS : Nat := 50

/-- The sleep between two attempts, in nanoseconds. -/
def ATTEMPT_INTERVAL : Nat := 100000000

/-- One pass through the loop of a client, or its end. -/
def attempt (unavailable : String → String) (ttl : Nat) (x : Relay) (c : Nat)
    (client : RelayClient) (delays : List Nat) : Relay :=
  if client.attempts < ATTEMPTS then
    match x.takeNode ttl client.nodeId delays with
    | (x, some (node, age)) =>
      { x with
        clients := x.clients.set c { client with outcome := some (.ok node.socket) }
        paired := x.paired ++ [⟨c, client.nodeId, node, age⟩] }
    | (x, none) =>
      { x with
        clients := x.clients.set c
          { client with
            attempts := client.attempts + 1, readyAt := x.now + ATTEMPT_INTERVAL } }
  else
    { x with
      clients := x.clients.set c
        { client with outcome := some (.error (.message (unavailable client.nodeId))) } }

def step {ι : Type} (t : RelayTransport ι) (sharedSecret : Option String) (ttl : Nat) (x : Relay) :
    Event ι → Option Relay
  | .connection input =>
    match t.readHello input with
    | .error _ => some { x with connections := x.connections + 1 }
    | .ok hello =>
      some { x.handleHello sharedSecret hello with connections := x.connections + 1 }
  | .tick elapsed => some { x with now := x.now + elapsed }
  | .dropped _ => some x
  | .attempt c delays =>
    x.clients[c]?.bind fun client =>
      if client.outcome.isNone ∧ client.readyAt ≤ x.now then
        some (x.attempt t.unavailable ttl c client delays)
      else none

/-! ## The loop over the sockets -/

/-- What the loop does with a list of sockets. -/
structure Popped.Splits (ttl now : Nat) (nodes : List WaitingNode) (popped : Popped) : Prop where
  nodes_eq : nodes = popped.discarded.map Prod.fst ++ (popped.selected.map Prod.fst).toList
    ++ popped.rest
  later : now ≤ popped.now
  expired : ∀ d ∈ popped.discarded, ttl < d.2 ∧ d.2 ≤ popped.now - d.1.connectedAt
  fresh : ∀ s ∈ popped.selected, s.2 ≤ ttl ∧ s.2 = popped.now - s.1.connectedAt
  rest_eq : popped.selected = none → popped.rest = []

theorem popNodes_splits (ttl now : Nat) (delays : List Nat) (nodes : List WaitingNode) :
    (popNodes ttl now delays nodes).Splits ttl now nodes := by
  induction nodes generalizing now delays with
  | nil => exact ⟨rfl, Nat.le_refl _, by simp [popNodes], by simp [popNodes], fun _ => rfl⟩
  | cons node nodes ih =>
    simp only [popNodes]
    split
    next hage =>
      exact ⟨rfl, Nat.le_add_right _ _, by simp, by simpa using hage, by simp⟩
    next hage =>
      have hrest := ih (now + delays.headD 0) delays.tail
      refine ⟨?_, ?_, ?_, hrest.fresh, hrest.rest_eq⟩
      · simpa using hrest.nodes_eq
      · exact (Nat.le_add_right _ _).trans hrest.later
      · intro d hd
        rcases List.mem_cons.mp hd with rfl | hd
        · have := hrest.later
          exact ⟨Nat.lt_of_not_le hage, by dsimp only; omega⟩
        · exact hrest.expired d hd

/-- Newest first. -/
abbrev Newest (nodes : List WaitingNode) : Prop :=
  nodes.Pairwise fun a b => b.connectedAt ≤ a.connectedAt ∧ b.socket < a.socket

variable {ttl : Nat} {nodes : List WaitingNode}

/-- What one step can do to a relay. -/
inductive Change (sharedSecret : Option String) (ttl : Nat) (x y : Relay) : Prop where
  | quiet (now : x.now ≤ y.now) (connections : x.connections ≤ y.connections)
      (waiting : y.waiting = x.waiting) (registered : y.registered = x.registered)
      (paired : y.paired = x.paired) (discarded : y.discarded = x.discarded)
  | register (nodeId secret : String) (configured : sharedSecret = some secret)
      (now : y.now = x.now) (connections : y.connections = x.connections + 1)
      (waiting : y.waiting = x.waiting.insert nodeId (⟨x.now, x.connections⟩ :: x.held nodeId))
      (registered : y.registered = x.registered ++ [⟨nodeId, secret, ⟨x.now, x.connections⟩⟩])
      (paired : y.paired = x.paired) (discarded : y.discarded = x.discarded)
  | lookup (c : Nat) (nodeId : String) (popped : Popped)
      (splits : popped.Splits ttl x.now (x.held nodeId))
      (now : y.now = popped.now) (connections : y.connections = x.connections)
      (waiting : y.waiting = if popped.rest.isEmpty then x.waiting.erase nodeId
        else x.waiting.insert nodeId popped.rest)
      (registered : y.registered = x.registered)
      (paired : y.paired
        = x.paired ++ (popped.selected.map fun s => ⟨c, nodeId, s.1, s.2⟩).toList)
      (discarded : y.discarded = x.discarded ++ popped.discarded.map fun d => ⟨nodeId, d.1, d.2⟩)
      (client : ∀ s ∈ popped.selected, ∃ client, y.clients[c]? = some client
        ∧ client.nodeId = nodeId ∧ client.outcome = some (.ok s.1.socket))

variable {nodeId : String} {c : Nat}

section Steps

variable {ι : Type} {t : RelayTransport ι} {sharedSecret : Option String} {ttl : Nat}
  {x y : Relay}

theorem handleHello_change (hello : RelayHello) :
    Change sharedSecret ttl x
      { x.handleHello sharedSecret hello with connections := x.connections + 1 } := by
  cases hello with
  | client nodeId => exact .quiet (Nat.le_refl _) (Nat.le_succ _) rfl rfl rfl rfl
  | node nodeId providedSecret =>
    cases sharedSecret with
    | none => exact .quiet (Nat.le_refl _) (Nat.le_succ _) rfl rfl rfl rfl
    | some expectedSecret =>
      by_cases hsecret : expectedSecret = providedSecret
      · subst hsecret
        exact .register nodeId expectedSecret rfl (by simp [handleHello]) rfl
          (by simp [handleHello]) (by simp [handleHello]) (by simp [handleHello])
          (by simp [handleHello])
      · simp only [handleHello, ne_eq, hsecret, not_false_eq_true, if_true]
        exact .quiet (Nat.le_refl _) (Nat.le_succ _) rfl rfl rfl rfl

theorem takeNode_of_none (h : x.waiting.lookup nodeId = none) (delays : List Nat) :
    x.takeNode ttl nodeId delays = (x, none) := by
  simp [takeNode, h]

theorem takeNode_of_some (h : x.waiting.lookup nodeId = some nodes) (delays : List Nat) :
    x.takeNode ttl nodeId delays =
      ({ x with
        now := (popNodes ttl x.now delays (x.held nodeId)).now
        waiting := if (popNodes ttl x.now delays (x.held nodeId)).rest.isEmpty
          then x.waiting.erase nodeId
          else x.waiting.insert nodeId (popNodes ttl x.now delays (x.held nodeId)).rest
        discarded := x.discarded ++ (popNodes ttl x.now delays (x.held nodeId)).discarded.map
          fun d => ⟨nodeId, d.1, d.2⟩ },
        (popNodes ttl x.now delays (x.held nodeId)).selected) := by
  simp [takeNode, held, h]

theorem attempt_change {unavailable : String → String} {client : RelayClient}
    (hc : x.clients[c]? = some client) (delays : List Nat) :
    Change sharedSecret ttl x (x.attempt unavailable ttl c client delays) := by
  obtain ⟨hlt, -⟩ := List.getElem?_eq_some_iff.mp hc
  unfold attempt
  split
  case isFalse => exact .quiet (Nat.le_refl _) (Nat.le_refl _) rfl rfl rfl rfl
  case isTrue =>
    cases hnodes : x.waiting.lookup client.nodeId with
    | none =>
      rw [takeNode_of_none hnodes]
      exact .quiet (Nat.le_refl _) (Nat.le_refl _) rfl rfl rfl rfl
    | some nodes =>
      rw [takeNode_of_some hnodes]
      have hsplits := popNodes_splits ttl x.now delays (x.held client.nodeId)
      generalize popNodes ttl x.now delays (x.held client.nodeId) = popped at hsplits ⊢
      cases hsel : popped.selected with
      | none =>
        exact .lookup c client.nodeId popped hsplits rfl rfl rfl rfl (by simp [hsel]) rfl
          (by simp [hsel])
      | some s =>
        refine .lookup c client.nodeId popped hsplits rfl rfl rfl rfl (by simp [hsel]) rfl ?_
        intro s' hs'
        obtain rfl : s = s' := Option.some.inj (hsel.symm.trans hs')
        exact ⟨{ client with outcome := some (.ok s.1.socket) }, by simp [hlt], rfl, rfl⟩

theorem step_change {e : Event ι} (h : x.step t sharedSecret ttl e = some y) :
    Change sharedSecret ttl x y := by
  cases e with
  | tick elapsed =>
    cases h
    exact .quiet (Nat.le_add_right _ _) (Nat.le_refl _) rfl rfl rfl rfl
  | dropped socket =>
    cases h
    exact .quiet (Nat.le_refl _) (Nat.le_refl _) rfl rfl rfl rfl
  | connection input =>
    simp only [step] at h
    split at h
    · cases h
      exact .quiet (Nat.le_refl _) (Nat.le_succ _) rfl rfl rfl rfl
    · cases h
      exact handleHello_change _
  | attempt c delays =>
    obtain ⟨client, hc, h⟩ := Option.bind_eq_some_iff.mp h
    split at h
    · cases h
      exact attempt_change hc delays
    · cases h

end Steps

/-! ## Where a registered socket is -/

/-- The sockets registered for a node. -/
def registeredFor (x : Relay) (nodeId : String) : List WaitingNode :=
  (x.registered.filter (·.nodeId = nodeId)).map (·.node)

/-- The sockets of a node that clients were given. -/
def handedOut (x : Relay) (nodeId : String) : List WaitingNode :=
  (x.paired.filter (·.nodeId = nodeId)).map (·.node)

/-- The sockets of a node that were discarded. -/
def thrownAway (x : Relay) (nodeId : String) : List WaitingNode :=
  (x.discarded.filter (·.nodeId = nodeId)).map (·.node)

variable {x : Relay} {nodeId : String} {y : Relay}

theorem handedOut_append {selected : Option (WaitingNode × Nat)}
    (paired : y.paired = x.paired ++ (selected.map fun s => ⟨c, nodeId, s.1, s.2⟩).toList)
    (id : String) :
    y.handedOut id
      = x.handedOut id ++ if id = nodeId then (selected.map Prod.fst).toList else [] := by
  rw [handedOut, handedOut, paired, List.filter_append, List.map_append]
  cases selected with
  | none => simp
  | some s => by_cases h : nodeId = id <;> simp [h, eq_comm (a := id)]

theorem thrownAway_append {discarded : List (WaitingNode × Nat)}
    (h : y.discarded = x.discarded ++ discarded.map fun d => ⟨nodeId, d.1, d.2⟩) (id : String) :
    y.thrownAway id = x.thrownAway id ++ if id = nodeId then discarded.map Prod.fst else [] := by
  rw [thrownAway, thrownAway, h, List.filter_append, List.map_append, List.filter_map]
  by_cases hid : nodeId = id <;> simp [hid, eq_comm (a := id), Function.comp_def]

/-- The state of a relay after any run. -/
structure Sound (sharedSecret : Option String) (ttl : Nat) (x : Relay) : Prop where
  numbered : ∀ r ∈ x.registered, r.node.socket < x.connections
  once : (x.registered.map (·.node.socket)).Nodup
  authenticated : ∀ r ∈ x.registered, sharedSecret = some r.sharedSecret
  nonempty : ∀ nodeId nodes, x.waiting.lookup nodeId = some nodes → nodes ≠ []
  newest : ∀ nodeId, Newest (x.held nodeId)
  past : ∀ nodeId, ∀ w ∈ x.held nodeId, w.connectedAt ≤ x.now
  account : ∀ nodeId,
    (x.registeredFor nodeId).Perm (x.held nodeId ++ x.handedOut nodeId ++ x.thrownAway nodeId)
  expired : ∀ d ∈ x.discarded, ttl < d.age ∧ d.age ≤ x.now - d.node.connectedAt
  handedOnce : (x.paired.map (·.node.socket)).Nodup

namespace Sound

variable {sharedSecret : Option String} {ttl : Nat} {x y : Relay} {nodeId : String}
  {w : WaitingNode}

theorem registered_of_mem (h : x.Sound sharedSecret ttl)
    (hw : w ∈ x.held nodeId ++ x.handedOut nodeId ++ x.thrownAway nodeId) :
    ∃ r ∈ x.registered, r.nodeId = nodeId ∧ r.node = w := by
  obtain ⟨r, hr, rfl⟩ := List.mem_map.mp ((h.account nodeId).mem_iff.mpr hw)
  obtain ⟨hr, hid⟩ := List.mem_filter.mp hr
  exact ⟨r, hr, by simpa using hid, rfl⟩

theorem nodup (h : x.Sound sharedSecret ttl) (nodeId : String) :
    (x.held nodeId ++ x.handedOut nodeId ++ x.thrownAway nodeId).Nodup := by
  refine (h.account nodeId).nodup_iff.mp (List.Nodup.of_map (·.socket) ?_)
  rw [registeredFor, List.map_map]
  exact h.once.sublist ((List.filter_sublist).map _)

/-- A waiting socket was never given to a client, of this node or another. -/
theorem not_handed (h : x.Sound sharedSecret ttl) (hw : w ∈ x.held nodeId) :
    w.socket ∉ x.paired.map (·.node.socket) := by
  intro hmem
  obtain ⟨p, hp, hsocket⟩ := List.mem_map.mp hmem
  have hhanded : p.node ∈ x.handedOut p.nodeId :=
    List.mem_map.mpr ⟨p, List.mem_filter.mpr ⟨hp, by simp⟩, rfl⟩
  obtain ⟨r, hr, hid, rfl⟩ := h.registered_of_mem (by simp [hw] :
    w ∈ x.held nodeId ++ x.handedOut nodeId ++ x.thrownAway nodeId)
  obtain ⟨r', hr', hid', hnode⟩ := h.registered_of_mem (by simp [hhanded] :
    p.node ∈ x.held p.nodeId ++ x.handedOut p.nodeId ++ x.thrownAway p.nodeId)
  have heq : r' = r := List.inj_on_of_nodup_map h.once hr' hr (by rw [hnode]; exact hsocket)
  subst heq
  rw [← hid', hid, ← hnode] at hhanded
  have hdisjoint := List.disjoint_of_nodup_append (List.nodup_append.mp (h.nodup nodeId)).1
  exact hdisjoint hw hhanded

theorem of_init : init.Sound sharedSecret ttl := by
  constructor <;> simp [init, held, registeredFor, handedOut, thrownAway]

theorem quiet (h : x.Sound sharedSecret ttl) (now : x.now ≤ y.now)
    (connections : x.connections ≤ y.connections) (waiting : y.waiting = x.waiting)
    (registered : y.registered = x.registered) (paired : y.paired = x.paired)
    (discarded : y.discarded = x.discarded) : y.Sound sharedSecret ttl := by
  have hheld : y.held = x.held := by funext nodeId; rw [held, held, waiting]
  refine ⟨?_, ?_, ?_, ?_, ?_, ?_, ?_, ?_, ?_⟩
  · rw [registered]
    exact fun r hr => (h.numbered r hr).trans_le connections
  · rw [registered]
    exact h.once
  · rw [registered]
    exact h.authenticated
  · rw [waiting]
    exact h.nonempty
  · rw [hheld]
    exact h.newest
  · rw [hheld]
    exact fun nodeId w hw => (h.past nodeId w hw).trans now
  · simp only [registeredFor, handedOut, thrownAway, registered, paired, discarded, hheld]
    exact h.account
  · rw [discarded]
    intro d hd
    have := h.expired d hd
    omega
  · rw [paired]
    exact h.handedOnce

theorem held_insert {nodes : List WaitingNode} (waiting : y.waiting = x.waiting.insert nodeId nodes)
    (id : String) : y.held id = if id = nodeId then nodes else x.held id := by
  rw [held, held, waiting]
  split
  next h => rw [h, AList.lookup_insert, Option.getD_some]
  next h => rw [AList.lookup_insert_ne h]

theorem held_rest {rest : List WaitingNode}
    (waiting : y.waiting
      = if rest.isEmpty then x.waiting.erase nodeId else x.waiting.insert nodeId rest)
    (id : String) : y.held id = if id = nodeId then rest else x.held id := by
  cases rest with
  | cons w rest => exact held_insert waiting id
  | nil =>
    rw [held, held, waiting, List.isEmpty_nil, if_pos rfl]
    by_cases h : id = nodeId
    · rw [if_pos h, h, AList.lookup_erase, Option.getD_none]
    · rw [if_neg h, AList.lookup_erase_ne h]

/-- No entry of the table is left empty. -/
theorem nonempty_rest (h : x.Sound sharedSecret ttl) (rest : List WaitingNode)
    (waiting : y.waiting
      = if rest.isEmpty then x.waiting.erase nodeId else x.waiting.insert nodeId rest) (id : String)
    (nodes : List WaitingNode) (hid : y.waiting.lookup id = some nodes) : nodes ≠ [] := by
  rw [waiting] at hid
  by_cases hne : id = nodeId
  · subst hne
    cases rest with
    | nil => simp at hid
    | cons w rest =>
      simp only [List.isEmpty_cons, Bool.false_eq_true, if_false, AList.lookup_insert] at hid
      cases hid
      exact List.cons_ne_nil _ _
  · refine h.nonempty id nodes ?_
    split at hid
    · rwa [AList.lookup_erase_ne hne] at hid
    · rwa [AList.lookup_insert_ne hne] at hid

theorem register (h : x.Sound sharedSecret ttl) {secret : String}
    (configured : sharedSecret = some secret) (now : y.now = x.now)
    (connections : y.connections = x.connections + 1)
    (waiting : y.waiting = x.waiting.insert nodeId (⟨x.now, x.connections⟩ :: x.held nodeId))
    (registered : y.registered = x.registered ++ [⟨nodeId, secret, ⟨x.now, x.connections⟩⟩])
    (paired : y.paired = x.paired) (discarded : y.discarded = x.discarded) :
    y.Sound sharedSecret ttl := by
  have hheld := held_insert waiting
  refine ⟨?_, ?_, ?_, ?_, ?_, ?_, ?_, ?_, ?_⟩
  · intro r hr
    rw [registered, List.mem_append, List.mem_singleton] at hr
    rw [connections]
    rcases hr with hr | rfl
    · exact (h.numbered r hr).trans (Nat.lt_succ_self _)
    · exact Nat.lt_succ_self _
  · rw [registered, List.map_append]
    refine h.once.append (List.nodup_singleton _) ?_
    intro socket hold hnew
    obtain ⟨r, hr, rfl⟩ := List.mem_map.mp hold
    obtain hsocket := List.mem_singleton.mp hnew
    exact (h.numbered r hr).ne hsocket
  · intro r hr
    rw [registered, List.mem_append, List.mem_singleton] at hr
    rcases hr with hr | rfl
    · exact h.authenticated r hr
    · exact configured
  · exact h.nonempty_rest (⟨x.now, x.connections⟩ :: x.held nodeId) waiting
  · intro id
    rw [hheld id]
    split
    next =>
      refine List.pairwise_cons.mpr ⟨?_, h.newest nodeId⟩
      intro w hw
      obtain ⟨r, hr, -, rfl⟩ := h.registered_of_mem (by simp [hw] :
        w ∈ x.held nodeId ++ x.handedOut nodeId ++ x.thrownAway nodeId)
      exact ⟨h.past nodeId _ hw, h.numbered r hr⟩
    next => exact h.newest id
  · intro id w hw
    rw [hheld id] at hw
    rw [now]
    split at hw
    next =>
      rcases List.mem_cons.mp hw with rfl | hw
      · exact Nat.le_refl _
      · exact h.past nodeId w hw
    next => exact h.past id w hw
  · intro id
    have haccount := h.account id
    simp only [registeredFor, handedOut, thrownAway, registered, paired, discarded,
      List.filter_append, List.map_append, hheld id] at haccount ⊢
    by_cases hne : id = nodeId
    · subst hne
      simpa using (List.perm_append_singleton _ _).trans (haccount.cons _)
    · simpa [hne, Ne.symm hne] using haccount
  · rw [discarded, now]
    exact h.expired
  · rw [paired]
    exact h.handedOnce

variable {c : Nat} {popped : Popped}

/-- What a lookup takes from the waiting sockets is handed out or thrown away. -/
theorem account_lookup (h : x.Sound sharedSecret ttl)
    (splits : popped.Splits ttl x.now (x.held nodeId))
    (hheld : ∀ id, y.held id = if id = nodeId then popped.rest else x.held id)
    (registered : y.registered = x.registered)
    (paired : y.paired = x.paired ++ (popped.selected.map fun s => ⟨c, nodeId, s.1, s.2⟩).toList)
    (discarded : y.discarded = x.discarded ++ popped.discarded.map fun d => ⟨nodeId, d.1, d.2⟩)
    (id : String) : (y.registeredFor id).Perm (y.held id ++ y.handedOut id ++ y.thrownAway id) := by
  have haccount := h.account id
  rw [handedOut_append paired, thrownAway_append discarded, hheld id]
  rw [registeredFor, registered]
  by_cases hne : id = nodeId
  · subst hne
    rw [splits.nodes_eq] at haccount
    rw [List.perm_iff_count] at haccount ⊢
    intro w
    have hw := haccount w
    simp only [registeredFor, List.count_append, if_true] at hw ⊢
    omega
  · simpa [hne, registeredFor] using haccount

theorem lookup (h : x.Sound sharedSecret ttl) (splits : popped.Splits ttl x.now (x.held nodeId))
    (now : y.now = popped.now) (connections : y.connections = x.connections)
    (waiting : y.waiting = if popped.rest.isEmpty then x.waiting.erase nodeId
      else x.waiting.insert nodeId popped.rest) (registered : y.registered = x.registered)
    (paired : y.paired = x.paired ++ (popped.selected.map fun s => ⟨c, nodeId, s.1, s.2⟩).toList)
    (discarded : y.discarded = x.discarded ++ popped.discarded.map fun d => ⟨nodeId, d.1, d.2⟩) :
    y.Sound sharedSecret ttl := by
  have hheld := held_rest waiting
  have hlater := splits.later
  refine ⟨?_, ?_, ?_, ?_, ?_, ?_, ?_, ?_, ?_⟩
  · rw [registered, connections]
    exact h.numbered
  · rw [registered]
    exact h.once
  · rw [registered]
    exact h.authenticated
  · exact h.nonempty_rest popped.rest waiting
  · intro id
    rw [hheld id]
    split
    next =>
      have hnewest := h.newest nodeId
      rw [splits.nodes_eq] at hnewest
      exact hnewest.sublist (List.sublist_append_right _ _)
    next => exact h.newest id
  · intro id w hw
    rw [hheld id] at hw
    rw [now]
    split at hw
    next =>
      refine (h.past nodeId w ?_).trans hlater
      rw [splits.nodes_eq]
      exact List.mem_append_right _ hw
    next => exact (h.past id w hw).trans hlater
  · exact h.account_lookup splits hheld registered paired discarded
  · intro d hd
    rw [discarded, List.mem_append] at hd
    rw [now]
    rcases hd with hd | hd
    · have := h.expired d hd
      omega
    · obtain ⟨d', hd', rfl⟩ := List.mem_map.mp hd
      exact splits.expired d' hd'
  · rw [paired, List.map_append]
    cases hsel : popped.selected with
    | none => simpa using h.handedOnce
    | some s =>
      have hmem : s.1 ∈ x.held nodeId := by
        rw [splits.nodes_eq, hsel]
        simp
      refine h.handedOnce.append (List.nodup_singleton _) ?_
      intro socket hold hnew
      obtain rfl := List.mem_singleton.mp hnew
      exact h.not_handed hmem hold

theorem change (h : x.Sound sharedSecret ttl) (hc : Change sharedSecret ttl x y) :
    y.Sound sharedSecret ttl := by
  cases hc with
  | quiet now connections waiting registered paired discarded =>
    exact h.quiet now connections waiting registered paired discarded
  | register nodeId secret configured now connections waiting registered paired discarded =>
    exact h.register configured now connections waiting registered paired discarded
  | lookup c nodeId popped splits now connections waiting registered paired discarded _ =>
    exact h.lookup splits now connections waiting registered paired discarded

end Sound

variable {sharedSecret : Option String}

variable {w : WaitingNode}

section Pairings

variable {sharedSecret : Option String} {ttl : Nat} {x y : Relay}

end Pairings

def sampleNodeHello : String :=
  "\x7b\"role\":\"node\",\"node_id\":\"node-1\",\"shared_secret\":\"relay-secret\"\x7d"

def sampleClientHello : String := "\x7b\"role\":\"client\",\"node_id\":\"node-1\"\x7d"

/-- `serde_json::from_str` on the two sample hellos. -/
def sampleFromStr (payload : String) : Except String RelayHello :=
  if payload = sampleNodeHello then .ok (.node "node-1" "relay-secret")
  else if payload = sampleClientHello then .ok (.client "node-1")
  else .error "expected value at line 1 column 1"

/-- A WebSocket on which a text arrives. -/
def textConnection (payload : String) : Event (List (Except AnyhowError WsMessage)) :=
  .connection [.ok (.text payload)]

/-- A socket registered within the limit. -/
def recent (ttl : Nat) (x : Relay) (w : WaitingNode) : Bool := x.now - w.connectedAt ≤ ttl

/-- No more sockets are waiting for a node than were registered for it within the
limit. -/
def HeldAtMostRecent (ttl : Nat) (x : Relay) (nodeId : String) : Prop :=
  (x.held nodeId).length ≤ (x.registeredFor nodeId).countP (x.recent ttl)

instance (ttl : Nat) (x : Relay) (nodeId : String) : Decidable (x.HeldAtMostRecent ttl nodeId) :=
  inferInstanceAs (Decidable (_ ≤ _))

/-- If all that are waiting were registered within the limit, there are no more of them. -/
theorem Sound.heldAtMostRecent (h : x.Sound sharedSecret ttl)
    (hrecent : ∀ w ∈ x.held nodeId, x.recent ttl w) : x.HeldAtMostRecent ttl nodeId := by
  have haccount := (h.account nodeId).countP_eq (x.recent ttl)
  rw [List.countP_append, List.countP_append, List.countP_eq_length.mpr hrecent] at haccount
  rw [HeldAtMostRecent, haccount]
  omega

/-- If all are too old when the first is looked at, none is left. -/
theorem popNodes_rest_of_expired (now : Nat) (delays : List Nat) (nodes : List WaitingNode)
    (h : ∀ w ∈ nodes, ttl < now + delays.headD 0 - w.connectedAt) :
    (popNodes ttl now delays nodes).rest = [] := by
  induction nodes generalizing now delays with
  | nil => rfl
  | cons node nodes ih =>
    obtain ⟨hnode, hnodes⟩ := List.forall_mem_cons.mp h
    rw [popNodes, if_neg (Nat.not_le_of_lt hnode)]
    refine ih (now + delays.headD 0) delays.tail fun w hw => ?_
    have := hnodes w hw
    omega

/-- If all are within the limit when the first is looked at, it is taken and the others stay. -/
theorem popNodes_of_recent {now : Nat} {delays : List Nat}
    (h : ∀ w ∈ nodes, now + delays.headD 0 - w.connectedAt ≤ ttl) :
    ∀ w ∈ (popNodes ttl now delays nodes).rest,
      (popNodes ttl now delays nodes).now - w.connectedAt ≤ ttl := by
  cases nodes with
  | nil => exact fun w hw => absurd hw List.not_mem_nil
  | cons node nodes =>
    obtain ⟨hnode, hnodes⟩ := List.forall_mem_cons.mp h
    rw [popNodes, if_pos hnode]
    exact hnodes

/-- A client looks for a socket of its node: the sockets that wait for the node when it looks at
the first are all within the limit, or all beyond it. -/
def Unmixed {ι : Type} (ttl : Nat) (x : Relay) : Event ι → Prop
  | .attempt c delays => ∀ client ∈ x.clients[c]?, client.attempts < ATTEMPTS →
      (∀ w ∈ x.held client.nodeId, x.now + delays.headD 0 - w.connectedAt ≤ ttl)
        ∨ ∀ w ∈ x.held client.nodeId, ttl < x.now + delays.headD 0 - w.connectedAt
  | .connection _ | .tick _ | .dropped _ => True

instance {ι : Type} (ttl : Nat) (x : Relay) : ∀ e : Event ι, Decidable (x.Unmixed ttl e)
  | .attempt c _ => inferInstanceAs (Decidable (∀ client ∈ x.clients[c]?, _ → _))
  | .connection _ | .tick _ | .dropped _ => .isTrue trivial

/-- After a lookup the bound holds for the node that was looked for. -/
def BoundedAfter {ι : Type} (ttl : Nat) (x : Relay) (e : Event ι) (y : Relay) : Prop :=
  match e with
  | .attempt c _ => ∀ client ∈ x.clients[c]?, client.attempts < ATTEMPTS →
      y.HeldAtMostRecent ttl client.nodeId
  | .connection _ | .tick _ | .dropped _ => True

/-- What a lookup leaves on the list. -/
theorem attempt_of_some (unavailable : String → String) (c : Nat) {client : RelayClient}
    (hattempts : client.attempts < ATTEMPTS) (h : x.waiting.lookup client.nodeId = some nodes)
    (delays : List Nat) :
    (x.attempt unavailable ttl c client delays).now
        = (popNodes ttl x.now delays (x.held client.nodeId)).now
      ∧ (x.attempt unavailable ttl c client delays).held client.nodeId
        = (popNodes ttl x.now delays (x.held client.nodeId)).rest := by
  rw [attempt, if_pos hattempts, takeNode_of_some h]
  rcases popNodes ttl x.now delays (x.held client.nodeId) with ⟨now, _ | selected, rest, discarded⟩
  all_goals exact ⟨rfl, (Sound.held_rest rfl client.nodeId).trans (if_pos rfl)⟩

/-- The lookup of a client. -/
theorem heldAtMostRecent_attempt {unavailable : String → String} {client : RelayClient}
    {delays : List Nat}
    (hy : (x.attempt unavailable ttl c client delays).Sound sharedSecret ttl)
    (hattempts : client.attempts < ATTEMPTS)
    (unmixed : (∀ w ∈ x.held client.nodeId, x.now + delays.headD 0 - w.connectedAt ≤ ttl)
      ∨ ∀ w ∈ x.held client.nodeId, ttl < x.now + delays.headD 0 - w.connectedAt) :
    (x.attempt unavailable ttl c client delays).HeldAtMostRecent ttl client.nodeId := by
  refine hy.heldAtMostRecent fun w hw => ?_
  cases hnodes : x.waiting.lookup client.nodeId with
  | none =>
    rw [attempt, if_pos hattempts, takeNode_of_none hnodes] at hw
    simp [held, hnodes] at hw
  | some nodes =>
    obtain ⟨hnow, hheld⟩ := attempt_of_some unavailable c hattempts hnodes delays
    rw [hheld] at hw
    rw [recent, hnow, decide_eq_true_iff]
    rcases unmixed with hrecent | hexpired
    · exact popNodes_of_recent hrecent w hw
    · rw [popNodes_rest_of_expired _ _ _ hexpired] at hw
      cases hw

/-- **The resource bound.**  In every run in which no lookup finds sockets of its node within the
limit together with sockets beyond it, the relay holds right after each lookup no more sockets
for the node than were registered for it within the limit. -/
theorem held_at_most_recent {ι : Type} (t : RelayTransport ι) (sharedSecret : Option String)
    (ttl : Nat) (es : List (Event ι))
    (h : Meets (step t sharedSecret ttl) (fun x e => x.Unmixed ttl e) init es) :
    Meets (step t sharedSecret ttl)
      (fun x e => ∀ y, x.step t sharedSecret ttl e = some y → x.BoundedAfter ttl e y) init es := by
  refine .of_invariant (I := fun x => x.Sound sharedSecret ttl)
    (fun _ _ _ hx hs => hx.change (step_change hs)) ?_ es init Sound.of_init h
  intro x e hx unmixed y hs
  cases e with
  | connection | tick | dropped => trivial
  | attempt c delays =>
    intro client hclient hattempts
    have hy := hx.change (step_change hs)
    rw [step, Option.mem_def.mp hclient, Option.bind_some] at hs
    split at hs
    · cases hs
      exact heldAtMostRecent_attempt hy hattempts (unmixed client hclient hattempts)
    · cases hs

/-- The four connectors of a node register, give up after their lease, and register
again.  Then a client comes. -/
def leaseEvents : List (Event (List (Except AnyhowError WsMessage))) :=
  List.replicate 4 (textConnection sampleNodeHello) ++ [.tick 60000000000]
    ++ (List.range 4).map .dropped ++ [.tick 500000000]
    ++ List.replicate 4 (textConnection sampleNodeHello)
    ++ [.tick 500000000, textConnection sampleClientHello]

/-- Seven sockets are held, and four were registered within the limit. -/
theorem expired_accumulate :
    ∃ y, exec (step (wssRelay sampleFromStr) (some "relay-secret") RELAY_NODE_SOCKET_TTL) init
        (leaseEvents ++ [.attempt 0 []]) = some y
      ∧ (y.held "node-1").length = 7
      ∧ (y.registeredFor "node-1").countP (y.recent RELAY_NODE_SOCKET_TTL) = 4
      ∧ ¬y.HeldAtMostRecent RELAY_NODE_SOCKET_TTL "node-1" := by
  decide +kernel

/-- Two sockets of a node are too old when a client comes, and then the node registers two
more, of which the client is given one. -/
def unmixedEvents : List (Event (List (Except AnyhowError WsMessage))) :=
  List.replicate 2 (textConnection sampleNodeHello)
    ++ [.tick 60500000000, textConnection sampleClientHello, .attempt 0 []]
    ++ List.replicate 2 (textConnection sampleNodeHello) ++ [.tick 100000000]

theorem held_at_most_recent_visit :
    ∃ x y, exec (step (wssRelay sampleFromStr) (some "relay-secret") RELAY_NODE_SOCKET_TTL) init
        unmixedEvents = some x
      ∧ x.step (wssRelay sampleFromStr) (some "relay-secret") RELAY_NODE_SOCKET_TTL
        (.attempt 0 []) = some y
      ∧ (y.held "node-1").length = 1 ∧ y.HeldAtMostRecent RELAY_NODE_SOCKET_TTL "node-1" := by
  obtain ⟨x, run, hclient, y, hs, hlength⟩ :
      ∃ x, exec (step (wssRelay sampleFromStr) (some "relay-secret") RELAY_NODE_SOCKET_TTL) init
          unmixedEvents = some x ∧ x.clients[0]? = some ⟨"node-1", 1, 60600000000, none⟩
        ∧ ∃ y, x.step (wssRelay sampleFromStr) (some "relay-secret") RELAY_NODE_SOCKET_TTL
          (.attempt 0 []) = some y ∧ (y.held "node-1").length = 1 := by
    decide +kernel
  have hmeets := held_at_most_recent (wssRelay sampleFromStr) (some "relay-secret")
    RELAY_NODE_SOCKET_TTL (unmixedEvents ++ [.attempt 0 []]) (by decide +kernel)
  exact ⟨x, y, run, hs, hlength, hmeets.at_exec run y hs _ hclient (by decide)⟩

end Relay

end MediumOverlay
