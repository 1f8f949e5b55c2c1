import MediumOverlay.Lib.Attempts
import MediumOverlay.Lib.Sorting
import MediumOverlay.Lib.Str
import MediumOverlay.Protocol.Addr
import MediumOverlay.Protocol.Messages

/-!
# The candidates of a grant

A grant lists addresses at which a node may be reached: ICE candidates for UDP sessions,
and *legacy* candidates for TCP, directly or over a relay.  Both lists are sorted, and a
client goes through them until it has a session.  Three drivers do that.

* `connect_session` tries each candidate once.
* `connect_session_service_tls` speaks TLS with the service behind each connection, and
  tries a legacy candidate several times.
* `connect_session_grant` of the Android app has no modes.

What an attempt comes to is decided elsewhere, and may depend on all that was tried
before: a driver is given the outcomes (`Dial`), and returns its result with the attempts
it made.  Each driver goes through a plan that the grant alone determines
(`connectSession_spec`, `connectSessionServiceTls_spec`, `connectSessionGrant_spec`).
Some addresses are of no use to a client, and the plans differ in where those are left
out.
-/

namespace MediumOverlay.MediumSession

open Attempts Sorting

inductive TransportMode where
  | auto
  | relayOnly
deriving DecidableEq, Repr

/-- `ConnectOptions`.  The pin of the control plane is read by the attempts alone. -/
structure ConnectOptions where
  mode : TransportMode
  preferredIce : Option IceCandidate
deriving DecidableEq, Repr

/-! ## The order of the candidates -/

/-- `same_ice_candidate`. -/
def sameIceCandidate (left right : IceCandidate) : Bool :=
  Str.eqIgnoreAsciiCase left.transport right.transport && left.kind = right.kind
    && left.addr = right.addr && left.port = right.port

/-- `candidate_preference_rank`. -/
def candidatePreferenceRank (candidate : IceCandidate) (preferred : Option IceCandidate) : Nat :=
  if preferred.any (sameIceCandidate candidate) then 0 else 1

/-- `ice_kind_rank`. -/
def iceKindRank : IceCandidateKind → Nat
  | .host => 0
  | .srflx => 1
  | .relay => 2

/-- The comparison of `ice_checklist`. -/
def compareIce (preferred : Option IceCandidate) (left right : IceCandidate) : Ordering :=
  (compare (candidatePreferenceRank left preferred) (candidatePreferenceRank right preferred)).then
    (((compare (iceKindRank left.kind) (iceKindRank right.kind)).then
      (compare right.priority.toNat left.priority.toNat)).then
      (compare left.foundation right.foundation))

/-- `ice_checklist`. -/
def iceChecklist (grant : SessionOpenGrant) (preferred : Option IceCandidate) :
    List IceCandidate :=
  match grant.authorization.ice with
  | none => []
  | some ice =>
    sortBy (compareIce preferred)
      (ice.candidates.filter fun candidate => Str.eqIgnoreAsciiCase candidate.transport "udp")

/-- The comparison of legacy candidates. -/
def comparePriority (left right : PeerCandidate) : Ordering :=
  compare right.priority.toInt left.priority.toInt

/-- A kind that `RelayOnly` allows. -/
def isRelayKind : CandidateKind → Bool
  | .relayTcp | .wssRelay => true
  | .directTcp => false

/-- `ordered_legacy_candidates_for_mode`. -/
def orderedLegacyCandidatesForMode (grant : SessionOpenGrant) (mode : TransportMode) :
    List PeerCandidate :=
  let candidates := grant.authorization.candidates
  let candidates :=
    if mode = .relayOnly then candidates.filter fun candidate => isRelayKind candidate.kind
    else candidates
  sortBy comparePriority candidates

/-! ## Addresses -/

section Addresses

variable (text : AddrText)

/-- `ice_candidate_addr`. -/
def iceCandidateAddr (candidate : IceCandidate) : String :=
  match text.parseIpAddr candidate.addr with
  | some (.v6 _) => "[" ++ candidate.addr ++ "]:" ++ toString candidate.port
  | _ => candidate.addr ++ ":" ++ toString candidate.port

/-- `is_unusable_backend_candidate_addr`. -/
def isUnusableBackendCandidateAddr (addr : String) : Bool :=
  match text.parseSocketAddr addr with
  | none => false
  | some socketAddr =>
    match socketAddr.ip with
    | .v4 ip => (IpAddr.v4 ip).isUnspecified || (IpAddr.v4 ip).isLoopback
        || (IpAddr.octet ip 0 = 198 && (IpAddr.octet ip 1 = 18 || IpAddr.octet ip 1 = 19))
    | .v6 ip => (IpAddr.v6 ip).isUnspecified || (IpAddr.v6 ip).isLoopback

end Addresses

/-! ## The drivers -/

/-- An attempt at a candidate. -/
inductive DialAttempt where
  | ice (candidate : IceCandidate)
  | legacy (candidate : PeerCandidate)
deriving DecidableEq, Repr

/-- The address that an attempt is made at. -/
def DialAttempt.addr (text : AddrText) : DialAttempt → String
  | ice candidate => iceCandidateAddr text candidate
  | legacy candidate => candidate.addr

/-- What an attempt comes to, behind the attempts made before it: a session, or the text
of an error. -/
abbrev Dial (σ : Type) : Type := List DialAttempt → DialAttempt → Except String σ

section Drivers

variable {σ : Type} (text : AddrText) (dial : Dial σ)

/-- A loop over candidates, with the attempts so far and a record of the errors.  Some
candidates are left out, and the first session is returned. -/
def tryCandidates {α ρ : Type} (attempt : α → DialAttempt) (skip : α → Bool)
    (record : ρ → α → String → ρ) :
    List α → List DialAttempt × ρ → Option σ × List DialAttempt × ρ
  | [], state => (none, state)
  | candidate :: candidates, (tried, errors) =>
    if skip candidate then tryCandidates attempt skip record candidates (tried, errors)
    else
      match dial tried (attempt candidate) with
      | .ok session => (some session, tried ++ [attempt candidate], errors)
      | .error error => tryCandidates attempt skip record candidates
          (tried ++ [attempt candidate], record errors candidate error)

/-- `try_connect_ice_udp`, of either client. -/
def tryConnectIceUdp (grant : SessionOpenGrant) (preferredIce : Option IceCandidate) :
    Option σ × List DialAttempt × Option String :=
  tryCandidates dial .ice
    (fun candidate => isUnusableBackendCandidateAddr text (iceCandidateAddr text candidate))
    (fun _ _ error => some error) (iceChecklist grant preferredIce) ([], none)

/-- The loop over legacy candidates that tries each one once. -/
def tryLegacyOnce (candidates : List PeerCandidate) (tried : List DialAttempt) :
    Option σ × List DialAttempt × Option String :=
  tryCandidates dial .legacy
    (fun candidate => isUnusableBackendCandidateAddr text candidate.addr)
    (fun _ _ error => some error) candidates (tried, none)

/-- The end of a driver that tries each candidate once. -/
def lastOutcome (missing : String) : Option σ × List DialAttempt × Option String →
    Except String σ × List DialAttempt
  | (some session, tried, _) => (.ok session, tried)
  | (none, tried, lastError) => (.error (lastError.getD missing), tried)

/-- `connect_legacy_candidate`. -/
def connectLegacyCandidate (grant : SessionOpenGrant) (options : ConnectOptions)
    (tried : List DialAttempt) : Except String σ × List DialAttempt :=
  lastOutcome
    (if options.mode = .relayOnly then "session grant has no relay candidates"
      else "session grant has no candidates")
    (tryLegacyOnce text dial (orderedLegacyCandidatesForMode grant options.mode) tried)

/-- `connect_session`. -/
def connectSession (grant : SessionOpenGrant) (options : ConnectOptions) :
    Except String σ × List DialAttempt :=
  if options.mode = .auto then
    match tryConnectIceUdp text dial grant options.preferredIce with
    | (some session, tried, _) => (.ok session, tried)
    | (none, tried, _) => connectLegacyCandidate text dial grant options tried
  else connectLegacyCandidate text dial grant options []

/-- `record_candidate_failure`. -/
def recordCandidateFailure (failures : List String) (candidate : String) (attempt : Nat)
    (error : String) : List String :=
  failures ++ [candidate ++ " attempt " ++ toString attempt ++ ": " ++ error]

/-- The loop over the checklist of `connect_session_service_tls`. -/
def tryChecklist (grant : SessionOpenGrant) (preferredIce : Option IceCandidate) :
    Option σ × List DialAttempt × List String :=
  tryCandidates dial .ice
    (fun candidate => isUnusableBackendCandidateAddr text (iceCandidateAddr text candidate))
    (fun failures candidate error => recordCandidateFailure failures
      ("ice_udp/" ++ candidate.kind.asStr ++ " " ++ iceCandidateAddr text candidate) 1 error)
    (iceChecklist grant preferredIce) ([], [])

/-- The attempts at one legacy candidate. -/
def retryCandidate (attempts : Nat) (candidate : PeerCandidate) :
    List DialAttempt × List String → Option σ × List DialAttempt × List String :=
  tryCandidates dial (fun _ => .legacy candidate) (fun _ => false)
    (fun failures attempt error => recordCandidateFailure failures
      (candidate.kind.asStr ++ " " ++ candidate.addr) attempt error)
    (List.range' 1 attempts)

/-- The loop over the legacy candidates of `connect_session_service_tls`. -/
def retryCandidates (attempts : Nat) : List PeerCandidate → List DialAttempt × List String →
    Option σ × List DialAttempt × List String
  | [], state => (none, state)
  | candidate :: candidates, state =>
    match retryCandidate dial attempts candidate state with
    | (some session, state) => (some session, state)
    | (none, state) => retryCandidates attempts candidates state

/-- The error of `connect_session_service_tls`. -/
def serviceTlsError (grant : SessionOpenGrant) (mode : TransportMode) (serverName : String)
    (attempts : Nat) (failures : List String) : String :=
  let error :=
    if failures.isEmpty then
      if mode = .relayOnly then "session grant has no relay candidates"
      else "session grant has no usable candidates"
    else "; ".intercalate failures
  "Medium end-to-end service connection failed after up to " ++ toString attempts
    ++ " attempt(s) per candidate for " ++ serverName ++ " on node " ++ grant.nodeId ++ ": "
    ++ error

/-- `connect_session_service_tls`.  An attempt is a connection and the TLS handshake on
it. -/
def connectSessionServiceTls (grant : SessionOpenGrant) (options : ConnectOptions)
    (serverName : String) (attempts : Nat) : Except String σ × List DialAttempt :=
  let attempts := max attempts 1
  let ice :=
    if options.mode = .auto then tryChecklist text dial grant options.preferredIce
    else (none, [], [])
  match ice with
  | (some session, tried, _) => (.ok session, tried)
  | (none, state) =>
    match retryCandidates dial attempts (orderedLegacyCandidatesForMode grant options.mode)
      state with
    | (some session, tried, _) => (.ok session, tried)
    | (none, tried, failures) =>
      (.error (serviceTlsError grant options.mode serverName attempts failures), tried)

/-- `connect_session_grant` of the Android app. -/
def connectSessionGrant (grant : SessionOpenGrant) (preferredIcePath : Option IceCandidate) :
    Except String σ × List DialAttempt :=
  match tryConnectIceUdp text dial grant preferredIcePath with
  | (some session, tried, _) => (.ok session, tried)
  | (none, tried, _) =>
    lastOutcome "session grant has no candidates"
      (tryLegacyOnce text dial (sortBy comparePriority grant.authorization.candidates) tried)

end Drivers

/-! ## Plans -/

variable {log : List DialAttempt}

section Plans

variable {σ : Type} (text : AddrText)

/-- The attempts at ICE candidates. -/
def icePlan (grant : SessionOpenGrant) (preferred : Option IceCandidate) : List DialAttempt :=
  ((iceChecklist grant preferred).filter fun candidate =>
    !isUnusableBackendCandidateAddr text (iceCandidateAddr text candidate)).map .ice

/-- One attempt at each legacy candidate whose address is of use. -/
def oncePlan (candidates : List PeerCandidate) : List DialAttempt :=
  (candidates.filter fun candidate =>
    !isUnusableBackendCandidateAddr text candidate.addr).map .legacy

/-- Several attempts at each legacy candidate. -/
def retryPlan (attempts : Nat) (candidates : List PeerCandidate) : List DialAttempt :=
  candidates.flatMap fun candidate => List.replicate attempts (.legacy candidate)

/-- ICE candidates are tried in one mode only. -/
def modePlan (grant : SessionOpenGrant) (options : ConnectOptions) (legacy : List DialAttempt) :
    List DialAttempt :=
  (if options.mode = .auto then icePlan text grant options.preferredIce else []) ++ legacy

/-- The plan of `connect_session_service_tls`. -/
def serviceTlsPlan (grant : SessionOpenGrant) (options : ConnectOptions) (attempts : Nat) :
    List DialAttempt :=
  modePlan text grant options
    (retryPlan (max attempts 1) (orderedLegacyCandidatesForMode grant options.mode))

variable {text} {dial : Dial σ}

/-- What a loop found and what it tried, without the errors. -/
def found {ρ : Type} (state : Option σ × List DialAttempt × ρ) : Option σ × List DialAttempt :=
  (state.1, state.2.1)

/-- The result of a driver, without its error. -/
def reached (run : Except String σ × List DialAttempt) : Option σ × List DialAttempt :=
  (run.1.toOption, run.2)

theorem reached_eq_some_iff {run : Except String σ × List DialAttempt} {session : σ} :
    reached run = (some session, log) ↔ run = (.ok session, log) := by
  obtain ⟨_ | session', log'⟩ := run <;> simp [reached, Except.toOption]

theorem reached_eq_none_iff {run : Except String σ × List DialAttempt} :
    reached run = (none, log) ↔ ∃ error, run = (.error error, log) := by
  obtain ⟨_ | session', log'⟩ := run <;> simp [reached, Except.toOption]

theorem found_tryCandidates {α ρ : Type} (attempt : α → DialAttempt) (skip : α → Bool)
    (record : ρ → α → String → ρ) (candidates : List α) (tried : List DialAttempt) (errors : ρ) :
    found (tryCandidates dial attempt skip record candidates (tried, errors))
      = tryEach dial tried ((candidates.filter fun candidate => !skip candidate).map attempt) := by
  induction candidates generalizing tried errors with
  | nil => rfl
  | cons candidate candidates ih =>
    rw [tryCandidates]
    cases hskip : skip candidate with
    | true => rw [if_pos rfl, List.filter_cons_of_neg (by simp [hskip]), ih]
    | false =>
      rw [if_neg Bool.false_ne_true, List.filter_cons_of_pos (by simp [hskip]), List.map_cons,
        tryEach]
      cases dial tried (attempt candidate) with
      | ok session => rfl
      | error error => exact ih _ _

theorem found_retryCandidate (attempts : Nat) (candidate : PeerCandidate) (tried : List DialAttempt)
    (failures : List String) :
    found (retryCandidate dial attempts candidate (tried, failures))
      = tryEach dial tried (List.replicate attempts (.legacy candidate)) := by
  rw [retryCandidate, found_tryCandidates]
  simp

theorem found_retryCandidates (attempts : Nat) (candidates : List PeerCandidate)
    (tried : List DialAttempt) (failures : List String) :
    found (retryCandidates dial attempts candidates (tried, failures))
      = tryEach dial tried (retryPlan attempts candidates) := by
  induction candidates generalizing tried failures with
  | nil => rfl
  | cons candidate candidates ih =>
    have hone : found (retryCandidate dial attempts candidate (tried, failures)) = _ :=
      found_retryCandidate attempts candidate tried failures
    rw [retryCandidates, retryPlan, List.flatMap_cons, tryEach_append, ← hone]
    rcases retryCandidate dial attempts candidate (tried, failures) with
      ⟨_ | session, tried', failures'⟩
    · exact ih tried' failures'
    · rfl

theorem reached_lastOutcome (missing : String)
    (state : Option σ × List DialAttempt × Option String) :
    reached (lastOutcome missing state) = found state := by
  rcases state with ⟨_ | session, tried, lastError⟩ <;> rfl

theorem reached_connectLegacyCandidate (grant : SessionOpenGrant) (options : ConnectOptions)
    (tried : List DialAttempt) :
    reached (connectLegacyCandidate text dial grant options tried)
      = tryEach dial tried
        (oncePlan text (orderedLegacyCandidatesForMode grant options.mode)) := by
  rw [connectLegacyCandidate, reached_lastOutcome]
  exact found_tryCandidates _ _ _ _ _ _

theorem connectSession_spec (grant : SessionOpenGrant) (options : ConnectOptions) :
    reached (connectSession text dial grant options)
      = tryEach dial [] (modePlan text grant options
        (oncePlan text (orderedLegacyCandidatesForMode grant options.mode))) := by
  rw [connectSession, modePlan]
  split
  next hmode =>
    have hice : found (tryConnectIceUdp text dial grant options.preferredIce)
        = tryEach dial [] (icePlan text grant options.preferredIce) :=
      found_tryCandidates _ _ _ _ _ _
    rw [tryEach_append, ← hice]
    rcases tryConnectIceUdp text dial grant options.preferredIce with
      ⟨_ | session, tried, lastError⟩
    · exact reached_connectLegacyCandidate grant options tried
    · rfl
  next hmode => exact reached_connectLegacyCandidate grant options []

theorem connectSessionGrant_spec (grant : SessionOpenGrant) (preferred : Option IceCandidate) :
    reached (connectSessionGrant text dial grant preferred)
      = tryEach dial [] (modePlan text grant ⟨.auto, preferred⟩
        (oncePlan text (sortBy comparePriority grant.authorization.candidates))) := by
  have hice : found (tryConnectIceUdp text dial grant preferred)
      = tryEach dial [] (icePlan text grant preferred) := found_tryCandidates _ _ _ _ _ _
  rw [connectSessionGrant, modePlan, if_pos rfl, tryEach_append, ← hice]
  rcases tryConnectIceUdp text dial grant preferred with ⟨_ | session, tried, lastError⟩
  · dsimp only [found]
    rw [reached_lastOutcome]
    exact found_tryCandidates _ _ _ _ _ _
  · rfl

theorem connectSessionServiceTls_spec (grant : SessionOpenGrant) (options : ConnectOptions)
    (serverName : String) (attempts : Nat) :
    reached (connectSessionServiceTls text dial grant options serverName attempts)
      = tryEach dial [] (serviceTlsPlan text grant options attempts) := by
  have hice : found (if options.mode = .auto then tryChecklist text dial grant options.preferredIce
        else (none, [], []))
      = tryEach dial [] (if options.mode = .auto then icePlan text grant options.preferredIce
        else []) := by
    split
    next => exact found_tryCandidates _ _ _ _ _ _
    next => rfl
  rw [serviceTlsPlan, modePlan, tryEach_append, ← hice, connectSessionServiceTls]
  generalize (if options.mode = .auto then tryChecklist text dial grant options.preferredIce
    else (none, [], [])) = ice
  rcases ice with ⟨_ | session, tried, failures⟩
  · have hlegacy : found (retryCandidates dial (max attempts 1)
        (orderedLegacyCandidatesForMode grant options.mode) (tried, failures)) = _ :=
      found_retryCandidates _ _ tried failures
    dsimp only [found]
    rw [← hlegacy]
    rcases retryCandidates dial (max attempts 1)
      (orderedLegacyCandidatesForMode grant options.mode) (tried, failures) with
      ⟨_ | session, tried', failures'⟩ <;> rfl
  · rfl

end Plans

/-! ## The order of a plan -/

variable {options : ConnectOptions} {attempts : Nat} {a : DialAttempt} {σ : Type}
  {plan : List DialAttempt}

section Order

/-- The candidates that a checklist is made of. -/
def udpCandidates (grant : SessionOpenGrant) : List IceCandidate :=
  (grant.authorization.ice.map IceSessionGrant.candidates).getD [] |>.filter fun candidate =>
    Str.eqIgnoreAsciiCase candidate.transport "udp"

/-- The legacy candidates that a mode allows. -/
def legacyCandidates (grant : SessionOpenGrant) (mode : TransportMode) : List PeerCandidate :=
  grant.authorization.candidates.filter fun candidate =>
    mode = .auto || candidate.kind ≠ .directTcp

/-- The candidate is the preferred one, up to its priority and foundation. -/
def IsPreferred (preferred : Option IceCandidate) (candidate : IceCandidate) : Prop :=
  ∃ wanted, preferred = some wanted
    ∧ Str.eqIgnoreAsciiCase candidate.transport wanted.transport = true
    ∧ candidate.kind = wanted.kind ∧ candidate.addr = wanted.addr ∧ candidate.port = wanted.port

/-- Candidates of the host come first, and those of a relay last. -/
inductive KindBefore : IceCandidateKind → IceCandidateKind → Prop where
  | hostSrflx : KindBefore .host .srflx
  | hostRelay : KindBefore .host .relay
  | srflxRelay : KindBefore .srflx .relay

/-- A candidate is tried before another: the preferred one first, then by the kind, with the
largest priority first, and by the foundation. -/
def Precedes (preferred : Option IceCandidate) (a b : IceCandidate) : Prop :=
  IsPreferred preferred a ∧ ¬IsPreferred preferred b
    ∨ (IsPreferred preferred a ↔ IsPreferred preferred b)
      ∧ (KindBefore a.kind b.kind
        ∨ a.kind = b.kind ∧ (b.priority.toNat < a.priority.toNat
          ∨ a.priority.toNat = b.priority.toNat ∧ a.foundation < b.foundation))

/-- The place of a candidate on a checklist. -/
def checklistKey (preferred : Option IceCandidate) (candidate : IceCandidate) :
    ℕ ×ₗ ℕ ×ₗ ℕᵒᵈ ×ₗ String :=
  toLex (candidatePreferenceRank candidate preferred, toLex (iceKindRank candidate.kind,
    toLex (OrderDual.toDual candidate.priority.toNat, candidate.foundation)))

/-- The place of a legacy candidate. -/
def legacyKey (candidate : PeerCandidate) : ℤᵒᵈ := OrderDual.toDual candidate.priority.toInt

theorem byKey_compareIce (preferred : Option IceCandidate) :
    ByKey (compareIce preferred) (checklistKey preferred) := by
  have hfoundation := ByKey.compare IceCandidate.foundation
  have hpriority := hfoundation.andThen fun c => OrderDual.toDual c.priority.toNat
  have hkind := hpriority.andThen fun c => iceKindRank c.kind
  have hpreference := hkind.andThen fun c => candidatePreferenceRank c preferred
  intro left right
  rw [compareIce, Ordering.then_assoc]
  exact hpreference left right

theorem candidatePreferenceRank_eq (preferred : Option IceCandidate) (c : IceCandidate)
    [Decidable (IsPreferred preferred c)] :
    candidatePreferenceRank c preferred = if IsPreferred preferred c then 0 else 1 := by
  have hiff : preferred.any (sameIceCandidate c) = true ↔ IsPreferred preferred c := by
    simp [IsPreferred, sameIceCandidate, Option.any_eq_true, and_assoc]
  rw [candidatePreferenceRank]
  simp only [hiff]

theorem iceKindRank_lt_iff {a b : IceCandidateKind} :
    iceKindRank a < iceKindRank b ↔ KindBefore a b := by
  constructor
  · intro h
    cases a <;> cases b <;> first | exact absurd h (by decide) | constructor
  · rintro (_ | _ | _) <;> decide

theorem iceKindRank_inj {a b : IceCandidateKind} : iceKindRank a = iceKindRank b ↔ a = b := by
  cases a <;> cases b <;> decide

/-- The keys are in the order of the candidates. -/
theorem checklistKey_lt_iff {preferred : Option IceCandidate} {a b : IceCandidate} :
    checklistKey preferred a < checklistKey preferred b ↔ Precedes preferred a b := by
  classical
  simp only [checklistKey, Prod.Lex.toLex_lt_toLex, iceKindRank_lt_iff, iceKindRank_inj,
    OrderDual.toDual_lt_toDual, EmbeddingLike.apply_eq_iff_eq, candidatePreferenceRank_eq, Precedes]
  by_cases ha : IsPreferred preferred a <;> by_cases hb : IsPreferred preferred b <;> simp [ha, hb]

/-- Neither of two candidates comes first exactly if their keys are the same. -/
theorem checklistKey_eq_iff {preferred : Option IceCandidate} {a b : IceCandidate} :
    checklistKey preferred a = checklistKey preferred b
      ↔ ¬Precedes preferred a b ∧ ¬Precedes preferred b a := by
  rw [← checklistKey_lt_iff, ← checklistKey_lt_iff, not_lt, not_lt, and_comm, le_antisymm_iff]

theorem byKey_comparePriority : ByKey comparePriority legacyKey :=
  ByKey.reverse fun c : PeerCandidate => c.priority.toInt

variable (grant : SessionOpenGrant) (preferred : Option IceCandidate) (mode : TransportMode)

theorem iceChecklist_eq :
    iceChecklist grant preferred = sortBy (compareIce preferred) (udpCandidates grant) := by
  rw [iceChecklist, udpCandidates]
  cases grant.authorization.ice <;> rfl

theorem orderedLegacyCandidatesForMode_eq :
    orderedLegacyCandidatesForMode grant mode
      = sortBy comparePriority (legacyCandidates grant mode) := by
  have hkind : ∀ kind, isRelayKind kind = decide (kind ≠ .directTcp) := by
    intro kind
    cases kind <;> rfl
  cases mode <;> simp [orderedLegacyCandidatesForMode, legacyCandidates, hkind]

/-- No direct connection is on the plan if relays only are allowed. -/
theorem relay_of_mem_serviceTlsPlan {text : AddrText} (hmode : options.mode = .relayOnly)
    (ha : a ∈ serviceTlsPlan text grant options attempts) :
    ∃ candidate, a = .legacy candidate ∧ candidate.kind ≠ .directTcp := by
  rw [serviceTlsPlan, modePlan, hmode, if_neg (by decide), List.nil_append] at ha
  obtain ⟨candidate, hmem, hrepeated⟩ := List.mem_flatMap.mp ha
  rw [orderedLegacyCandidatesForMode_eq] at hmem
  have hlegacy := (sortBy_perm _ _).mem_iff.mp hmem
  refine ⟨candidate, List.eq_of_mem_replicate hrepeated, ?_⟩
  simpa using (List.mem_filter.mp hlegacy).2

/-- What a driver tried is a beginning of its plan. -/
theorem mem_plan_of_mem {dial : Dial σ} {run : Except String σ × List DialAttempt}
    (h : reached run = tryEach dial [] plan) (ha : a ∈ run.2) : a ∈ plan := by
  cases hrun : tryEach dial [] plan with
  | mk result log =>
    have hlog : run.2 = log := congrArg Prod.snd (h.trans hrun)
    rw [hlog] at ha
    cases result with
    | none =>
      obtain ⟨-, rfl⟩ := tryEach_eq_none_iff.mp hrun
      exact ha
    | some session =>
      obtain ⟨before, b, after, rfl, -, -, rfl⟩ := tryEach_eq_some_iff.mp hrun
      rw [List.append_cons]
      exact List.mem_append_left after (by simpa using ha)

end Order

/-- **The plan of a connection.**  The checklist and the legacy candidates are the
candidates of the grant, in their orders, with ties as they stand in the grant.  A
connection with TLS goes through its plan up to the first success, and fails exactly if
all of the plan does. -/
theorem connection_plan {σ : Type} (text : AddrText) (dial : Dial σ) (grant : SessionOpenGrant)
    (options : ConnectOptions) (serverName : String) (attempts : Nat) :
    ((iceChecklist grant options.preferredIce).Perm (udpCandidates grant)
        ∧ (iceChecklist grant options.preferredIce).Pairwise (fun a b =>
          ¬Precedes options.preferredIce b a)
        ∧ ∀ (c : IceCandidate) (ties : IceCandidate → Bool),
          (∀ d, ties d = true ↔ ¬Precedes options.preferredIce c d
            ∧ ¬Precedes options.preferredIce d c) →
          (iceChecklist grant options.preferredIce).filter ties
            = (udpCandidates grant).filter ties)
      ∧ ((orderedLegacyCandidatesForMode grant options.mode).Perm
          (legacyCandidates grant options.mode)
        ∧ (orderedLegacyCandidatesForMode grant options.mode).Pairwise (fun a b =>
          b.priority.toInt ≤ a.priority.toInt)
        ∧ ∀ priority, (orderedLegacyCandidatesForMode grant options.mode).filter
            (fun c => c.priority.toInt = priority)
          = (legacyCandidates grant options.mode).filter fun c => c.priority.toInt = priority)
      ∧ (∀ session log,
        connectSessionServiceTls text dial grant options serverName attempts = (.ok session, log)
          ↔ ∃ before a after, serviceTlsPlan text grant options attempts = before ++ a :: after
            ∧ Fails dial [] before ∧ dial before a = .ok session ∧ log = before ++ [a])
      ∧ (∀ log, (∃ error,
        connectSessionServiceTls text dial grant options serverName attempts = (.error error, log))
          ↔ Fails dial [] (serviceTlsPlan text grant options attempts)
            ∧ log = serviceTlsPlan text grant options attempts)
      ∧ (options.mode = .relayOnly →
        ∀ a ∈ (connectSessionServiceTls text dial grant options serverName attempts).2,
          ∃ candidate, a = .legacy candidate ∧ candidate.kind ≠ .directTcp) := by
  have hspec : reached (connectSessionServiceTls text dial grant options serverName attempts)
      = tryEach dial [] (serviceTlsPlan text grant options attempts) :=
    connectSessionServiceTls_spec grant options serverName attempts
  refine ⟨?_, ?_, fun session log => ?_, fun log => ?_, fun hmode a ha => ?_⟩
  · rw [iceChecklist_eq]
    refine ⟨sortBy_perm _ _, (pairwise_sortBy (byKey_compareIce _) _).imp fun hle => ?_,
      fun c ties hties => ?_⟩
    · rw [← checklistKey_lt_iff]
      exact hle.not_gt
    · have heq : ties = fun d => decide (checklistKey options.preferredIce d
          = checklistKey options.preferredIce c) := by
        funext d
        rw [Bool.eq_iff_iff, hties, ← checklistKey_eq_iff, decide_eq_true_iff, eq_comm]
      rw [heq]
      exact filter_sortBy (byKey_compareIce _) _ _
  · rw [orderedLegacyCandidatesForMode_eq]
    exact ⟨sortBy_perm _ _, pairwise_sortBy byKey_comparePriority _,
      fun priority => filter_sortBy byKey_comparePriority (OrderDual.toDual priority) _⟩
  · rw [← reached_eq_some_iff, hspec, tryEach_eq_some_iff]
    rfl
  · rw [← reached_eq_none_iff, hspec, tryEach_eq_none_iff]
    rfl
  · exact relay_of_mem_serviceTlsPlan grant hmode (mem_plan_of_mem hspec ha)

/-- Candidates of all kinds, with a preferred one that is not of the best kind. -/
def planGrant : SessionOpenGrant where
  sessionId := "sess_1"
  serviceId := "svc_web"
  nodeId := "node-1"
  relayHint := none
  authorization := ⟨"token", 0, [⟨.relayTcp, "relay.test:7001", 10⟩,
      ⟨.directTcp, "192.0.2.1:17001", 100⟩, ⟨.wssRelay, "wss://relay.test/wss", 10⟩],
    some ⟨⟨"u", "p", 0⟩, [⟨"relay-udp-1", 1, "udp", 10, "relay.test", 7001, .relay, none, none⟩,
      ⟨"host-udp-2", 1, "UDP", 5, "10.0.0.1", 17002, .host, none, none⟩,
      ⟨"srflx-udp-3", 1, "udp", 1, "192.0.2.1", 17002, .srflx, none, none⟩,
      ⟨"host-udp-1", 1, "udp", 5, "10.0.0.2", 17002, .host, none, none⟩,
      ⟨"host-tcp-1", 1, "tcp", 9, "10.0.0.1", 17002, .host, none, none⟩]⟩⟩

/-- The candidate that was used before. -/
def planPreferred : IceCandidate :=
  ⟨"srflx-udp-1", 1, "UDP", 7, "192.0.2.1", 17002, .srflx, none, none⟩

/-- If nothing answers, the preferred candidate is tried first, then the hosts by their
foundations, the relay, and each legacy candidate twice.  With relays only, there are two. -/
theorem connection_plan_sample :
    (∃ error log, connectSessionServiceTls (σ := Unit) dottedText (fun _ _ => .error "refused")
        planGrant ⟨.auto, some planPreferred⟩ "web.medium" 2 = (.error error, log)
      ∧ log.map (DialAttempt.addr dottedText) = ["192.0.2.1:17002", "10.0.0.2:17002",
        "10.0.0.1:17002", "relay.test:7001", "192.0.2.1:17001", "192.0.2.1:17001",
        "relay.test:7001", "relay.test:7001", "wss://relay.test/wss", "wss://relay.test/wss"])
      ∧ ∃ error log, connectSessionServiceTls (σ := Unit) dottedText (fun _ _ => .error "refused")
          planGrant ⟨.relayOnly, some planPreferred⟩ "web.medium" 1 = (.error error, log)
        ∧ log.map (DialAttempt.addr dottedText) = ["relay.test:7001", "wss://relay.test/wss"]
        ∧ ∀ a ∈ log, ∃ candidate, a = .legacy candidate ∧ candidate.kind ≠ .directTcp := by
  obtain ⟨-, -, -, hauto, -⟩ := connection_plan (σ := Unit) dottedText (fun _ _ => .error "refused")
    planGrant ⟨.auto, some planPreferred⟩ "web.medium" 2
  obtain ⟨-, -, -, hrelay, honly⟩ := connection_plan (σ := Unit) dottedText
    (fun _ _ => .error "refused") planGrant ⟨.relayOnly, some planPreferred⟩ "web.medium" 1
  obtain ⟨error, hrun⟩ := (hauto _).mpr ⟨fun _ _ _ _ => ⟨_, rfl⟩, rfl⟩
  obtain ⟨error', hrun'⟩ := (hrelay _).mpr ⟨fun _ _ _ _ => ⟨_, rfl⟩, rfl⟩
  rw [hrun'] at honly
  exact ⟨⟨error, _, hrun, by decide +kernel⟩, error', _, hrun', by decide +kernel, honly rfl⟩

/-! ## Addresses that are of no use -/

section Unusable

variable {text : AddrText} {grant : SessionOpenGrant}

/-- The address of an attempt may be of use. -/
def DialAttempt.Usable (text : AddrText) (a : DialAttempt) : Prop :=
  isUnusableBackendCandidateAddr text (a.addr text) = false

variable {a : DialAttempt}

theorem usable_of_mem_icePlan {preferred : Option IceCandidate}
    (ha : a ∈ icePlan text grant preferred) : a.Usable text := by
  obtain ⟨candidate, hmem, rfl⟩ := List.mem_map.mp ha
  simpa [DialAttempt.Usable, DialAttempt.addr] using (List.mem_filter.mp hmem).2

variable {candidates : List PeerCandidate}

theorem usable_of_mem_oncePlan (ha : a ∈ oncePlan text candidates) : a.Usable text := by
  obtain ⟨candidate, hmem, rfl⟩ := List.mem_map.mp ha
  simpa [DialAttempt.Usable, DialAttempt.addr] using (List.mem_filter.mp hmem).2

/-- A plan has no address of no use among its ICE candidates. -/
theorem usable_of_mem_modePlan {legacy : List DialAttempt} (hlegacy : ∀ a ∈ legacy, a.Usable text)
    (ha : a ∈ modePlan text grant options legacy) : a.Usable text := by
  rw [modePlan, List.mem_append] at ha
  rcases ha with hice | ha
  · split at hice
    · exact usable_of_mem_icePlan hice
    · cases hice
  · exact hlegacy a ha

theorem mem_retryPlan_iff (hattempts : 0 < attempts) {candidate : PeerCandidate} :
    .legacy candidate ∈ retryPlan attempts candidates ↔ candidate ∈ candidates := by
  simp only [retryPlan, List.mem_flatMap, List.mem_replicate, DialAttempt.legacy.injEq]
  constructor
  · rintro ⟨_, hmem, -, rfl⟩
    exact hmem
  · exact fun hmem => ⟨candidate, hmem, hattempts.ne', rfl⟩

/-- With one attempt each, nothing is left out of a plan if all addresses are of use. -/
theorem oncePlan_eq_retryPlan
    (h : ∀ candidate ∈ candidates, isUnusableBackendCandidateAddr text candidate.addr = false) :
    oncePlan text candidates = retryPlan 1 candidates := by
  rw [oncePlan, List.filter_eq_self.mpr fun candidate hmem => by simp [h candidate hmem], retryPlan]
  exact List.map_eq_flatMap

end Unusable

/-- Without a success a driver has tried all of its plan. -/
theorem log_of_all_fail {run : Except String σ × List DialAttempt}
    (h : reached run = tryEach (fun _ _ => .error "") [] plan) : run.2 = plan := by
  have hnone : tryEach (fun _ _ => .error "") [] plan = ((none : Option σ), plan) :=
    tryEach_eq_none_iff.mpr ⟨fun _ _ _ _ => ⟨"", rfl⟩, rfl⟩
  exact congrArg Prod.snd (h.trans hnone)

/-- The drivers never try an address that is of no use, and two of them make the same
attempts, exactly if the legacy candidates have none. -/
theorem unusable_never_dialled_iff {σ : Type} (text : AddrText) (grant : SessionOpenGrant)
    (options : ConnectOptions) (serverName : String) (attempts : Nat) :
    (∀ dial : Dial σ,
        (∀ a ∈ (connectSession text dial grant options).2, a.Usable text)
        ∧ (∀ a ∈ (connectSessionServiceTls text dial grant options serverName attempts).2,
          a.Usable text)
        ∧ (∀ a ∈ (connectSessionGrant text dial grant options.preferredIce).2, a.Usable text)
        ∧ (options.mode = .auto → (connectSession text dial grant options).2
          = (connectSessionServiceTls text dial grant options serverName 1).2))
      ↔ ∀ candidate ∈ legacyCandidates grant options.mode,
        isUnusableBackendCandidateAddr text candidate.addr = false := by
  have hmem : ∀ candidate, candidate ∈ orderedLegacyCandidatesForMode grant options.mode
      ↔ candidate ∈ legacyCandidates grant options.mode := by
    intro candidate
    rw [orderedLegacyCandidatesForMode_eq, (sortBy_perm _ _).mem_iff]
  constructor
  · intro h candidate hcandidate
    obtain ⟨-, husable, -⟩ := h fun _ _ => .error ""
    rw [log_of_all_fail
      (connectSessionServiceTls_spec grant options serverName attempts)] at husable
    refine husable (.legacy candidate) (List.mem_append_right _ ?_)
    exact (mem_retryPlan_iff (by omega)).mpr ((hmem candidate).mpr hcandidate)
  · intro h dial
    have hordered : ∀ candidate ∈ orderedLegacyCandidatesForMode grant options.mode,
        isUnusableBackendCandidateAddr text candidate.addr = false :=
      fun candidate hcandidate => h candidate ((hmem candidate).mp hcandidate)
    refine ⟨fun a ha => ?_, fun a ha => ?_, fun a ha => ?_, fun _ => ?_⟩
    · exact usable_of_mem_modePlan (fun _ => usable_of_mem_oncePlan)
        (mem_plan_of_mem (connectSession_spec grant options) ha)
    · refine usable_of_mem_modePlan (fun b hb => ?_)
        (mem_plan_of_mem (connectSessionServiceTls_spec grant options serverName attempts) ha)
      obtain ⟨candidate, hcandidate, hrepeated⟩ := List.mem_flatMap.mp hb
      rw [List.eq_of_mem_replicate hrepeated]
      exact hordered candidate hcandidate
    · exact usable_of_mem_modePlan (fun _ => usable_of_mem_oncePlan)
        (mem_plan_of_mem (connectSessionGrant_spec grant options.preferredIce) ha)
    · have hplan : reached (connectSession text dial grant options)
          = reached (connectSessionServiceTls text dial grant options serverName 1) := by
        rw [connectSession_spec, connectSessionServiceTls_spec, serviceTlsPlan,
          oncePlan_eq_retryPlan hordered, Nat.max_self]
      exact (Prod.ext_iff.mp hplan).2

/-! ### A node that listens on every address -/

def unspecifiedGrant : SessionOpenGrant where
  sessionId := "sess_1"
  serviceId := "svc_web"
  nodeId := "node-1"
  relayHint := none
  authorization := ⟨"token", 0, [⟨.directTcp, "0.0.0.0:17001", 100⟩], none⟩

/-- The connection with TLS is tried at an address that `connect_session` leaves out. -/
theorem unspecified_addr_dialled :
    isUnusableBackendCandidateAddr dottedText "0.0.0.0:17001" = true
      ∧ (connectSessionServiceTls (σ := Unit) dottedText (fun _ _ => .error "refused")
          unspecifiedGrant ⟨.auto, none⟩ "web.medium" 1).2
        = [.legacy ⟨.directTcp, "0.0.0.0:17001", 100⟩]
      ∧ (connectSession (σ := Unit) dottedText (fun _ _ => .error "refused")
          unspecifiedGrant ⟨.auto, none⟩).2 = [] := by
  decide +kernel

end MediumOverlay.MediumSession
