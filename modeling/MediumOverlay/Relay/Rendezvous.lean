import MediumOverlay.Crypto.SessionToken
import MediumOverlay.Transport.Listener

/-!
# The UDP rendezvous

A node registers its UDP address with the relay, under its id and with the shared
secret.  A client asks for a node with a session token, and the relay tells each
of the two the address of the other, so that both can punch.

The server keeps one table, from node ids to addresses.  Everything it does follows
from the datagrams it has received: the table holds for each id the source of the
last registration (`Rendezvous.lookup_nodes`), and `rendezvous_safe` says which
messages leave.
-/

namespace MediumOverlay

open Trace

/-- What the server is given: `serde_json` and the primitives of tokens, `Display` of
an address, and the secret, if one is configured. -/
structure RendezvousConfig where
  codec : Codec
  tokens : TokenCodec
  display : SocketAddr → String
  sharedSecret : Option String

/-- The state of `run_udp_rendezvous_with_shutdown`, with everything it has sent. -/
structure Rendezvous where
  nodes : AList fun _ : String => SocketAddr
  sent : List (SocketAddr × UdpRendezvousMessage)
  returned : Option (Except AnyhowError Unit)

namespace Rendezvous

inductive Event where
  /-- A datagram at time `now`, and the first send for it that fails. -/
  | received (now : Int) (peerAddr : SocketAddr) (datagram : Bytes)
      (failedSend : Option (Nat × IoError))
  | failed (error : IoError)
  | shutdown

def init : Rendezvous := ⟨∅, [], none⟩

/-- `send_udp_message` for each message in turn, until one fails. -/
def sendUdpMessages (failedSend : Option (Nat × IoError))
    (messages : List (SocketAddr × UdpRendezvousMessage)) :
    List (SocketAddr × UdpRendezvousMessage) × Except AnyhowError Unit :=
  match failedSend with
  | none => (messages, .ok ())
  | some (i, error) =>
    if i < messages.length then (messages.take i, .error (.io error)) else (messages, .ok ())

/-- `handle_udp_rendezvous_message`: the table after it, what it sends, and its
result. -/
def handleUdpRendezvousMessage (cfg : RendezvousConfig) (nodes : AList fun _ : String => SocketAddr)
    (now : Int) (peerAddr : SocketAddr) (payload : Bytes) (failedSend : Option (Nat × IoError)) :
    (AList fun _ : String => SocketAddr) ×
      List (SocketAddr × UdpRendezvousMessage) × Except AnyhowError Unit :=
  match cfg.codec.parseMessage payload with
  | .error message => (nodes, [], .error (.json message))
  | .ok (.node nodeId providedSecret) =>
    match cfg.sharedSecret with
    | none => (nodes, [], .error (.message "rendezvous shared secret is not configured"))
    | some expectedSecret =>
      if expectedSecret ≠ providedSecret then
        (nodes, [], .error (.message ("rendezvous node authentication failed for " ++ nodeId)))
      else
        (nodes.insert nodeId peerAddr,
          sendUdpMessages failedSend [(peerAddr, .registered (cfg.display peerAddr))])
  | .ok (.client nodeId token) =>
    match cfg.sharedSecret with
    | none => (nodes, [], .error (.message "rendezvous shared secret is not configured"))
    | some expectedSecret =>
      match verifySessionToken cfg.tokens expectedSecret token now with
      | .error error => (nodes, [], .error error)
      | .ok claims =>
        if claims.nodeId ≠ nodeId then
          (nodes, [], .error (.message "rendezvous token node mismatch"))
        else
          match nodes.lookup nodeId with
          | none =>
            (nodes, [], .error (.message
              ("node " ++ nodeId ++ " is not registered for UDP rendezvous")))
          | some nodeAddr =>
            (nodes, sendUdpMessages failedSend
              [(peerAddr, .peer (cfg.display nodeAddr)),
                (nodeAddr, .peer (cfg.display peerAddr))])
  | .ok (.registered _) | .ok (.peer _) | .ok .punch => (nodes, [], .ok ())

/-- One turn of the loop.  A message that is rejected is only logged. -/
def step (cfg : RendezvousConfig) (x : Rendezvous) : Event → Option Rendezvous
  | .received now peerAddr datagram failedSend =>
    if x.returned.isSome then none
    else
      let (nodes, sent, _) :=
        handleUdpRendezvousMessage cfg x.nodes now peerAddr (received datagram) failedSend
      some { x with nodes := nodes, sent := x.sent ++ sent }
  | .failed error =>
    if x.returned.isSome then none else some { x with returned := some (.error (.io error)) }
  | .shutdown => if x.returned.isSome then none else some { x with returned := some (.ok ()) }

/-! ## What the datagrams say -/

/-- A registration with the configured secret: the id and the source address. -/
def Event.registration? (cfg : RendezvousConfig) : Event → Option (String × SocketAddr)
  | .received _ peerAddr datagram _ =>
    match cfg.codec.parseMessage (MediumOverlay.received datagram) with
    | .ok (.node nodeId providedSecret) =>
      if cfg.sharedSecret = some providedSecret then some (nodeId, peerAddr) else none
    | _ => none
  | .failed _ | .shutdown => none

/-- A request with a token that verifies and names the node that is asked for: the
id of the node and the source address. -/
def Event.request? (cfg : RendezvousConfig) : Event → Option (String × SocketAddr)
  | .received now peerAddr datagram _ =>
    match cfg.codec.parseMessage (MediumOverlay.received datagram), cfg.sharedSecret with
    | .ok (.client nodeId token), some secret =>
      match verifySessionToken cfg.tokens secret token now with
      | .ok claims => if claims.nodeId = nodeId then some (nodeId, peerAddr) else none
      | .error _ => none
    | _, _ => none
  | .failed _ | .shutdown => none

/-- The source of the most recent registration of an id. -/
def lastNode (cfg : RendezvousConfig) (es : List Event) (nodeId : String) : Option SocketAddr :=
  (es.filterMap (Event.registration? cfg)).reverse.lookup nodeId

/-- The sends made for the event succeed. -/
def Event.SendsSucceed : Event → Prop
  | .received _ _ _ failedSend => failedSend = none
  | .failed _ | .shutdown => True

def isPeer : UdpRendezvousMessage → Bool
  | .peer _ => true
  | _ => false

/-- The `Peer` messages that answer a request. -/
def introductions (cfg : RendezvousConfig) (es : List Event) (e : Event) :
    List (SocketAddr × UdpRendezvousMessage) :=
  match e.request? cfg with
  | none => []
  | some (nodeId, client) =>
    match lastNode cfg es nodeId with
    | none => []
    | some node => [(client, .peer (cfg.display node)), (node, .peer (cfg.display client))]

variable {cfg : RendezvousConfig} {x y : Rendezvous} {e : Event} {es : List Event}

/-! ## One datagram -/

theorem handle_nodes (nodes : AList fun _ : String => SocketAddr) (now : Int)
    (peerAddr : SocketAddr) (datagram : Bytes) (failedSend : Option (Nat × IoError)) :
    (handleUdpRendezvousMessage cfg nodes now peerAddr (received datagram) failedSend).1 =
      match (Event.received now peerAddr datagram failedSend).registration? cfg with
      | none => nodes
      | some (nodeId, addr) => nodes.insert nodeId addr := by
  simp only [handleUdpRendezvousMessage, Event.registration?]
  cases cfg.codec.parseMessage (received datagram) with
  | error message => rfl
  | ok message =>
    cases message with
    | node nodeId providedSecret =>
      cases hsecret : cfg.sharedSecret with
      | none => simp
      | some expectedSecret => by_cases h : expectedSecret = providedSecret <;> simp [h]
    | client nodeId token =>
      dsimp only
      split
      next => rfl
      next =>
        split
        next => rfl
        next =>
          split
          next => rfl
          next => split <;> rfl
    | registered _ | peer _ | punch => rfl

theorem handle_peers (nodes : AList fun _ : String => SocketAddr) (now : Int)
    (peerAddr : SocketAddr) (datagram : Bytes) :
    ((handleUdpRendezvousMessage cfg nodes now peerAddr (received datagram) none).2.1.filter
        fun message => isPeer message.2) =
      match (Event.received now peerAddr datagram none).request? cfg with
      | none => []
      | some (nodeId, client) =>
        match nodes.lookup nodeId with
        | none => []
        | some node =>
          [(client, .peer (cfg.display node)), (node, .peer (cfg.display client))] := by
  simp only [handleUdpRendezvousMessage, Event.request?]
  cases cfg.codec.parseMessage (received datagram) with
  | error message => rfl
  | ok message =>
    cases message with
    | node nodeId providedSecret =>
      cases cfg.sharedSecret with
      | none => rfl
      | some expectedSecret =>
        by_cases h : expectedSecret = providedSecret <;> simp [h, sendUdpMessages, isPeer]
    | client nodeId token =>
      cases cfg.sharedSecret with
      | none => rfl
      | some secret =>
        dsimp only
        cases verifySessionToken cfg.tokens secret token now with
        | error error => rfl
        | ok claims =>
          by_cases h : claims.nodeId = nodeId
          · simp only [h, ne_eq, not_true_eq_false, if_false, if_true]
            cases nodes.lookup nodeId with
            | none => rfl
            | some node => rfl
          · simp [h]
    | registered _ | peer _ | punch => rfl

/-- A step handles a datagram, or ends the loop and leaves the rest. -/
theorem step_cases (hs : x.step cfg e = some y) :
    (∃ now peerAddr datagram failedSend, e = .received now peerAddr datagram failedSend ∧
      y.nodes = (handleUdpRendezvousMessage cfg x.nodes now peerAddr (received datagram)
        failedSend).1 ∧
      y.sent = x.sent ++ (handleUdpRendezvousMessage cfg x.nodes now peerAddr (received datagram)
        failedSend).2.1) ∨
    (e.registration? cfg = none ∧ e.request? cfg = none ∧ y.nodes = x.nodes ∧
      y.sent = x.sent) := by
  cases e with
  | received now peerAddr datagram failedSend =>
    obtain ⟨-, h⟩ := Option.ite_none_left_eq_some.mp hs
    cases h
    exact .inl ⟨now, peerAddr, datagram, failedSend, rfl, rfl, rfl⟩
  | failed _ | shutdown =>
    obtain ⟨-, h⟩ := Option.ite_none_left_eq_some.mp hs
    cases h
    exact .inr ⟨rfl, rfl, rfl, rfl⟩

theorem nodes_step (hs : x.step cfg e = some y) :
    y.nodes = match e.registration? cfg with
      | none => x.nodes
      | some (nodeId, addr) => x.nodes.insert nodeId addr := by
  rcases step_cases hs with
    ⟨now, peerAddr, datagram, failedSend, rfl, hnodes, -⟩ | ⟨hnone, -, hnodes, -⟩
  · rw [hnodes, handle_nodes]
  · rw [hnodes, hnone]

theorem peers_step (hs : x.step cfg e = some y) (succeed : e.SendsSucceed) :
    ∃ sent, y.sent = x.sent ++ sent ∧ (sent.filter fun message => isPeer message.2) =
      match e.request? cfg with
      | none => []
      | some (nodeId, client) =>
        match x.nodes.lookup nodeId with
        | none => []
        | some node =>
          [(client, .peer (cfg.display node)), (node, .peer (cfg.display client))] := by
  rcases step_cases hs with
    ⟨now, peerAddr, datagram, failedSend, rfl, -, hsent⟩ | ⟨-, hnone, -, hsent⟩
  · cases succeed
    exact ⟨_, hsent, handle_peers x.nodes now peerAddr datagram⟩
  · exact ⟨[], by rw [hsent, List.append_nil], by rw [hnone]; rfl⟩

/-! ## The table -/

theorem lastNode_concat (cfg : RendezvousConfig) (es : List Event) (e : Event) (nodeId : String) :
    lastNode cfg (es ++ [e]) nodeId =
      match e.registration? cfg with
      | none => lastNode cfg es nodeId
      | some (id, addr) => if nodeId = id then some addr else lastNode cfg es nodeId := by
  unfold lastNode
  cases h : e.registration? cfg with
  | none => simp [h]
  | some registration =>
    obtain ⟨id, addr⟩ := registration
    by_cases hid : nodeId = id
    · simp [h, hid]
    · simp [h, hid, List.lookup_cons, beq_eq_false_iff_ne.mpr hid]

/-- The table holds the source of the last registration of each id. -/
theorem lookup_nodes (es : List Event) (run : exec (step cfg) init es = some x)
    (nodeId : String) : x.nodes.lookup nodeId = lastNode cfg es nodeId := by
  induction es using List.reverseRecOn generalizing x with
  | nil =>
    cases run
    rfl
  | append_singleton es e ih =>
    obtain ⟨w, hw, hlast⟩ := exec_append_eq_some.mp run
    obtain ⟨y, hs, hy⟩ := exec_cons_eq_some.mp hlast
    cases hy
    rw [nodes_step hs, lastNode_concat]
    cases e.registration? cfg with
    | none => exact ih hw
    | some registration =>
      dsimp only
      by_cases hid : nodeId = registration.1
      · rw [if_pos hid, hid, AList.lookup_insert]
      · rw [if_neg hid, AList.lookup_insert_ne hid]
        exact ih hw

/-- Without a secret nothing is a registration. -/
theorem registration?_eq_none (h : cfg.sharedSecret = none) (e : Event) :
    e.registration? cfg = none := by
  cases e with
  | received now peerAddr datagram failedSend =>
    simp only [Event.registration?, h]
    split <;> simp
  | failed _ | shutdown => rfl

/-- **Rendezvous.**  After any datagrams, the `Peer` messages that leave for the next
one are those of a request with a token that verifies for the node it asks for:
the address of the last registration to the client, and the client's address
there.  The table holds the last registrations, other datagrams change nothing, and
without a secret the table stays empty. -/
theorem rendezvous_safe (es : List Event) (e : Event) (run : exec (step cfg) init es = some x)
    (hs : x.step cfg e = some y) (succeed : e.SendsSucceed) :
    (∃ sent, y.sent = x.sent ++ sent ∧
      (sent.filter fun message => isPeer message.2) = introductions cfg es e) ∧
    (∀ nodeId, y.nodes.lookup nodeId = lastNode cfg (es ++ [e]) nodeId) ∧
    (e.request? cfg = none → e.registration? cfg = none →
      y.nodes = x.nodes ∧ introductions cfg es e = []) ∧
    (cfg.sharedSecret = none → y.nodes = ∅) := by
  refine ⟨?_, ?_, ?_, ?_⟩
  · obtain ⟨sent, hsent, hpeers⟩ := peers_step hs succeed
    simp only [lookup_nodes es run] at hpeers
    exact ⟨sent, hsent, hpeers⟩
  · intro nodeId
    refine lookup_nodes (es ++ [e]) (exec_append_eq_some.mpr ⟨x, run, ?_⟩) nodeId
    exact exec_cons_eq_some.mpr ⟨y, hs, rfl⟩
  · intro hrequest hregistration
    rw [nodes_step hs, hregistration]
    exact ⟨rfl, by simp [introductions, hrequest]⟩
  · intro hsecret
    have hempty : x.nodes = ∅ := by
      refine exec_invariant_all (I := fun x => x.nodes = ∅) ?_ es init x rfl run
      intro s e t hempty hs
      rw [nodes_step hs, registration?_eq_none hsecret]
      exact hempty
    rw [nodes_step hs, registration?_eq_none hsecret]
    exact hempty

/-- A server that has not returned takes every event. -/
theorem exists_step (live : x.returned = none) (e : Event) : ∃ y, x.step cfg e = some y := by
  cases e <;> simp [step, live]

/-- A request with a token that verifies for its node is one. -/
theorem request?_eq_some {now : Int} {peerAddr : SocketAddr} {datagram : Bytes}
    {failedSend : Option (Nat × IoError)} {nodeId token secret : String}
    {claims : SessionTokenClaims}
    (parsed : cfg.codec.parseMessage (received datagram) = .ok (.client nodeId token))
    (configured : cfg.sharedSecret = some secret)
    (verified : verifySessionToken cfg.tokens secret token now = .ok claims)
    (same : claims.nodeId = nodeId) :
    (Event.received now peerAddr datagram failedSend).request? cfg = some (nodeId, peerAddr) := by
  simp only [Event.request?, parsed, configured, verified, same, if_true]

/-- It introduces the client and the node to each other. -/
theorem introductions_eq {nodeId : String} {client node : SocketAddr}
    (request : e.request? cfg = some (nodeId, client)) (last : lastNode cfg es nodeId = some node) :
    introductions cfg es e =
      [(client, .peer (cfg.display node)), (node, .peer (cfg.display client))] := by
  simp only [introductions, request, last]

/-! ### A node and a client -/

/-- The JSON of a registration of `node-1`. -/
def nodeJson (secret : String) : Bytes :=
  ("\x7b\"role\":\"node\",\"node_id\":\"node-1\",\"shared_secret\":\"" ++ secret
    ++ "\"\x7d").toUTF8.data.toList

/-- The JSON of a request for `node-1` with the sample token. -/
def clientJson : Bytes :=
  ("\x7b\"role\":\"client\",\"node_id\":\"node-1\",\"token\":\"" ++ sampleToken
    ++ "\"\x7d").toUTF8.data.toList

/-- `Display` of an IPv4 address. -/
def displayV4 : SocketAddr → String
  | .v4 ip port => ".".intercalate ([24, 16, 8, 0].map fun i => toString (ip.toNat >>> i % 256))
      ++ ":" ++ toString port.toNat
  | .v6 _ _ _ _ => ""

/-- The server with the sample secret, on the texts of the run below. -/
def sampleConfig : RendezvousConfig where
  codec :=
    { Listener.sampleCodec with
      parseMessage := fun payload =>
        if payload = nodeJson sampleSecret then .ok (.node "node-1" sampleSecret)
        else if payload = nodeJson "guess" then .ok (.node "node-1" "guess")
        else if payload = clientJson then .ok (.client "node-1" sampleToken)
        else Listener.sampleCodec.parseMessage payload }
  tokens := sampleTokenCodec
  display := displayV4
  sharedSecret := some sampleSecret

def sampleNode : SocketAddr := .v4 0x7f000001 17002

/-- The node registers, someone else tries to, and a client asks. -/
def introducedRun : List Event :=
  [.received sampleIssued sampleNode (nodeJson sampleSecret) none,
    .received sampleIssued Listener.otherClient (nodeJson "guess") none]

def sampleRequest : Event := .received sampleIssued Listener.sampleClient clientJson none

theorem rendezvous_safe_introduced : ∃ x y, exec (step sampleConfig) init introducedRun = some x ∧
    x.step sampleConfig sampleRequest = some y ∧
    ∃ sent, y.sent = x.sent ++ sent ∧ (sent.filter fun message => isPeer message.2) =
      [(Listener.sampleClient, .peer "127.0.0.1:17002"),
        (sampleNode, .peer "127.0.0.1:40001")] := by
  obtain ⟨x, run, h⟩ : ∃ x, exec (step sampleConfig) init introducedRun = some x ∧
      x.returned.isNone = true := by
    decide +kernel
  obtain ⟨y, hs⟩ := exists_step (Option.isNone_iff_eq_none.mp h) sampleRequest
  have hparse : sampleConfig.codec.parseMessage (received clientJson)
      = .ok (.client "node-1" sampleToken) := by
    decide +kernel
  have hverify : verifySessionToken sampleConfig.tokens sampleSecret sampleToken sampleIssued
      = .ok sampleClaims := verifySessionToken_sample (by decide)
  have hrequest : sampleRequest.request? sampleConfig
      = some ("node-1", Listener.sampleClient) := request?_eq_some hparse rfl hverify rfl
  have hlast : lastNode sampleConfig introducedRun "node-1" = some sampleNode := by
    decide +kernel
  have hintro : introductions sampleConfig introducedRun sampleRequest =
      [(Listener.sampleClient, .peer "127.0.0.1:17002"),
        (sampleNode, .peer "127.0.0.1:40001")] := by
    have hnode : sampleConfig.display sampleNode = "127.0.0.1:17002" := by decide +kernel
    have hclient : sampleConfig.display Listener.sampleClient = "127.0.0.1:40001" := by
      decide +kernel
    rw [introductions_eq hrequest hlast, hnode, hclient]
  obtain ⟨⟨sent, hsent, hpeers⟩, -⟩ := rendezvous_safe introducedRun sampleRequest run hs rfl
  exact ⟨x, y, run, hs, sent, hsent, hpeers.trans hintro⟩

end Rendezvous

end MediumOverlay
