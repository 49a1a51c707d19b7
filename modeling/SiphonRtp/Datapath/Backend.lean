import SiphonRtp.Datapath.Relay
import SiphonRtp.Stun.Client

/-!
# The UDP backend between its control calls

The rest of `siphon-rtp-datapath/src/udp.rs` around `Inner.dispatch`: `receive`, which strips the
TURN framing and sends STUN to the ICE-lite responder (`respond_to_stun_check` of the crate root),
and the control calls that install flows and ICE credentials. `Backend` holds the tables of `Inner`
with the credentials themselves; `Backend.toInner` is what `dispatch` reads of them.

Every call is one step of `Backend.step`. `receive_cases` sums up what a datagram writes: the latch
and the nomination of a check that authenticates and nominates, or what the flow makes of the
payload.
-/

set_option autoImplicit false

namespace SiphonRtp.Datapath

open Machine Stun

/-! ### The ICE-lite responder -/

/-- The ICE credentials of an endpoint. -/
structure IceConfig where
  localUfrag : Bytes
  localPwd : Bytes
deriving DecidableEq

/-- What the responder decides about a STUN datagram. -/
inductive StunCheckOutcome
  | drop
  | respond (response : Bytes) (nomination : Option UInt32)
deriving DecidableEq

/-- `respond_to_stun_check`. -/
def respondToStunCheck (digests : Digests) (datagram : Bytes) (ice : IceConfig)
    (source : SocketAddr) : StunCheckOutcome :=
  match parse datagram with
  | .error _ => .drop
  | .ok request =>
    if request.isBindingRequest = false then .drop
    else if addressedTo request ice.localUfrag = false ∨
        verifyMessageIntegrity digests datagram ice.localPwd = false then .drop
    else .respond (bindingSuccessResponse digests request.transactionId source (some ice.localPwd))
      (if request.hasUseCandidate then some (request.priority.getD 0) else none)

/-- `nomination_supersedes`. -/
def nominationSupersedes (current : Option UInt32) (candidate : UInt32) : Bool :=
  match current with
  | none => true
  | some selected => decide (selected ≤ candidate)

/-! ### The tables and the calls -/

/-- Who answers checks on an endpoint of a full agent. -/
inductive IceAgentMode
  | respondAndForward
  | forwardOnly
deriving DecidableEq

/-- The tables of the backend. -/
structure Backend where
  clock : ℕ
  endpoints : EndpointId → Bool
  flows : EndpointId → Option FlowAction
  latched : EndpointId → Option (SourceLatch SocketAddr)
  turnRelay : EndpointId → Option TurnRelay
  ice : EndpointId → Option IceConfig
  /-- The PRIORITY of the nominated pair the responder selected. -/
  iceNominated : EndpointId → Option UInt32
  /-- The endpoints whose STUN a full agent answers. -/
  iceForwardOnly : EndpointId → Bool
  stats : EndpointId → Stats

/-- What became of a received datagram. -/
inductive Received
  | unattributed
  | toAgent
  | checkDropped
  | answered (source : SocketAddr) (response : Bytes) (nomination : Option UInt32)
  | dispatched (outcome : Dispatched)
deriving DecidableEq

/-- The nomination a received datagram carries, if the responder answers it. -/
def Received.nomination : Received → Option (SocketAddr × UInt32)
  | .answered source _ (some priority) => some (source, priority)
  | _ => none

/-- A call of the backend. -/
inductive Operation
  | receive (arrival : Arrival)
  | installFlow (endpoint : EndpointId) (action : FlowAction)
  | setIce (endpoint : EndpointId) (config : Option IceConfig)
  | setIceAgent (endpoint : EndpointId) (config : IceConfig) (mode : IceAgentMode)
  | adoptSource (endpoint : EndpointId) (source : SocketAddr)
  | setTurnRelay (endpoint : EndpointId) (relay : Option TurnRelay)
deriving DecidableEq

/-- A table with another entry for one endpoint. -/
def setAt {α : Type} (table : EndpointId → α) (endpoint : EndpointId) (entry : α) :
    EndpointId → α :=
  fun other ↦ if other = endpoint then entry else table other

@[simp] theorem setAt_self {α : Type} (table : EndpointId → α) (endpoint : EndpointId)
    (entry : α) : setAt table endpoint entry endpoint = entry := if_pos rfl

theorem setAt_of_ne {α : Type} (table : EndpointId → α) {endpoint other : EndpointId}
    (hother : other ≠ endpoint) (entry : α) : setAt table endpoint entry other = table other :=
  if_neg hother

/-- Whether the signalled destination of a rule moved. -/
def signalledPeerMoved (previous current : Option SocketAddr) : Bool :=
  match previous, current with
  | some previous, some current => decide (previous ≠ current)
  | _, _ => false

namespace Backend

/-- What `dispatch` reads of the tables. -/
def toInner (backend : Backend) : Inner where
  clock := backend.clock
  endpoints := backend.endpoints
  flows := backend.flows
  latched := backend.latched
  ice := fun endpoint ↦ (backend.ice endpoint).isSome
  stats := backend.stats

/-- `Inner::dispatch`, which writes latches and counters. -/
def dispatch (backend : Backend) (arrival : Arrival) : Dispatched × Backend :=
  let (outcome, inner) := backend.toInner.dispatch arrival
  (outcome, { backend with latched := inner.latched, stats := inner.stats })

/-- One more dropped packet. -/
def countDrop (backend : Backend) (endpoint : EndpointId) : Backend :=
  { backend with stats := (backend.toInner.countDrop endpoint).stats }

/-- `handle_stun`: a check that authenticates is answered, and a nominating one that supersedes the
nomination so far selects its source. -/
def handleStun (digests : Digests) (backend : Backend) (arrival : Arrival) (ice : IceConfig) :
    Received × Backend :=
  match respondToStunCheck digests arrival.payload ice arrival.source with
  | .drop => (.checkDropped, backend.countDrop arrival.endpoint)
  | .respond response nomination =>
    let seen := setAt backend.stats arrival.endpoint
      { backend.stats arrival.endpoint with lastSeen := backend.clock }
    let selected := match nomination with
      | none => backend
      | some priority =>
        if nominationSupersedes (backend.iceNominated arrival.endpoint) priority then
          { backend with
            iceNominated := setAt backend.iceNominated arrival.endpoint (some priority)
            latched := setAt backend.latched arrival.endpoint (some ⟨arrival.source, none⟩) }
        else backend
    (.answered arrival.source response nomination, { selected with stats := seen })

/-- `Inner::receive`: the TURN seam, then STUN to the agent or the responder, then the flow. STUN on
an endpoint without credentials goes on to the flow. -/
def receive (digests : Digests) (backend : Backend) (arrival : Arrival) : Received × Backend :=
  match unwrapped (backend.turnRelay arrival.endpoint) arrival.source arrival.payload with
  | none => (.unattributed, backend.countDrop arrival.endpoint)
  | some (source, payload) =>
    let attributed : Arrival := ⟨arrival.endpoint, source, payload⟩
    let toFlow :=
      (Received.dispatched (backend.dispatch attributed).1, (backend.dispatch attributed).2)
    if classify payload = .stun then
      if backend.iceForwardOnly arrival.endpoint then (.toAgent, backend)
      else
        match backend.ice arrival.endpoint with
        | some ice => backend.handleStun digests attributed ice
        | none => toFlow
    else toFlow

/-- Whether a rule replaces one toward the same endpoint and moves its signalled destination. -/
def peerReplaced (previous : Option FlowAction) (rule : ForwardRule) : Bool :=
  match previous with
  | some (.forward previous) => decide (previous.outEndpoint = rule.outEndpoint) &&
      signalledPeerMoved previous.outDst rule.outDst
  | _ => false

/-- The latches once an endpoint without credentials has lost one that its new rule refuses. -/
def keptLatches (backend : Backend) (endpoint : EndpointId) (rule : ForwardRule) :
    EndpointId → Option (SourceLatch SocketAddr) :=
  if backend.ice endpoint = none then
    setAt backend.latched endpoint
      ((backend.latched endpoint).filter fun latch ↦ rule.acceptedSource.accepts latch.source.ip)
  else backend.latched

/-- `forget_stale_latches`, after the rule is in place: the endpoint's own latch goes when the new
gate refuses its source, the peer's when the rule toward it moved. An ICE endpoint is left alone. -/
def forgetStaleLatches (backend : Backend) (endpoint : EndpointId) (previous : Option FlowAction)
    (rule : ForwardRule) : Backend :=
  let kept := backend.keptLatches endpoint rule
  { backend with
    latched :=
      if peerReplaced previous rule = true ∧ backend.ice rule.outEndpoint = none then
        setAt kept rule.outEndpoint none
      else kept }

/-- `install_flow`. An unknown endpoint is an error and changes nothing. -/
def installFlow (backend : Backend) (endpoint : EndpointId) (action : FlowAction) : Backend :=
  if backend.endpoints endpoint = false then backend
  else
    let previous := backend.flows endpoint
    let installed := { backend with flows := setAt backend.flows endpoint (some action) }
    match action with
    | .forward rule => installed.forgetStaleLatches endpoint previous rule
    | _ => installed

/-- `set_ice`. New credentials with another fragment start a new session, so the nomination of the
old one is forgotten; the latch stays. -/
def setIce (backend : Backend) (endpoint : EndpointId) (config : Option IceConfig) : Backend :=
  match config with
  | some config =>
    let restarted := match backend.ice endpoint with
      | some previous => decide (previous.localUfrag ≠ config.localUfrag)
      | none => false
    { backend with
      iceNominated :=
        if restarted then setAt backend.iceNominated endpoint none else backend.iceNominated
      ice := setAt backend.ice endpoint (some config) }
  | none =>
    { backend with
      ice := setAt backend.ice endpoint none
      iceNominated := setAt backend.iceNominated endpoint none
      iceForwardOnly := setAt backend.iceForwardOnly endpoint false }

/-- `set_ice_agent`. -/
def setIceAgent (backend : Backend) (endpoint : EndpointId) (config : IceConfig)
    (mode : IceAgentMode) : Backend :=
  { backend with
    ice := setAt backend.ice endpoint (some config)
    iceForwardOnly := setAt backend.iceForwardOnly endpoint (decide (mode = .forwardOnly)) }

/-- `adopt_source`. -/
def adoptSource (backend : Backend) (endpoint : EndpointId) (source : SocketAddr) : Backend :=
  { backend with latched := setAt backend.latched endpoint (some ⟨source, none⟩) }

/-- One call. -/
def step (digests : Digests) (backend : Backend) (operation : Operation) :
    Option Received × Backend :=
  match operation with
  | .receive arrival =>
    (some (backend.receive digests arrival).1, (backend.receive digests arrival).2)
  | .installFlow endpoint action => (none, backend.installFlow endpoint action)
  | .setIce endpoint config => (none, backend.setIce endpoint config)
  | .setIceAgent endpoint config mode => (none, backend.setIceAgent endpoint config mode)
  | .adoptSource endpoint source => (none, backend.adoptSource endpoint source)
  | .setTurnRelay endpoint relay =>
    (none, { backend with turnRelay := setAt backend.turnRelay endpoint relay })

/-- A backend before its first call: no flow, no latch, no credentials, no allocation. -/
def Fresh (backend : Backend) : Prop :=
  ∀ endpoint, backend.flows endpoint = none ∧ backend.latched endpoint = none ∧
    backend.turnRelay endpoint = none ∧ backend.ice endpoint = none ∧
    backend.iceNominated endpoint = none ∧ backend.iceForwardOnly endpoint = false

/-! ### What a call writes -/

section Writes

variable {digests : Digests} {backend : Backend} {arrival : Arrival}

/-- A check that an endpoint's credentials authenticate and that nominates. -/
structure Nominates (digests : Digests) (config : IceConfig) (payload : Bytes)
    (priority : UInt32) : Prop where
  parsed : ∃ request, parse payload = .ok request ∧ request.isBindingRequest = true ∧
    addressedTo request config.localUfrag = true ∧ request.hasUseCandidate = true ∧
    priority = request.priority.getD 0
  verified : verifyMessageIntegrity digests payload config.localPwd = true

/-- The responder reports a nomination for exactly such checks. -/
theorem respondToStunCheck_nominates {config : IceConfig} {payload response : Bytes}
    {source : SocketAddr} {priority : UInt32}
    (hrespond : respondToStunCheck digests payload config source =
      .respond response (some priority)) :
    Nominates digests config payload priority := by
  unfold respondToStunCheck at hrespond
  cases hparse : parse payload with
  | error =>
    rw [hparse] at hrespond
    exact nomatch hrespond
  | ok request =>
    rw [hparse] at hrespond
    dsimp only at hrespond
    by_cases hbinding : request.isBindingRequest = false
    · rw [if_pos hbinding] at hrespond
      exact nomatch hrespond
    rw [if_neg hbinding] at hrespond
    by_cases hrefused : addressedTo request config.localUfrag = false ∨
        verifyMessageIntegrity digests payload config.localPwd = false
    · rw [if_pos hrefused] at hrespond
      exact nomatch hrespond
    rw [if_neg hrefused] at hrespond
    simp only [not_or, Bool.not_eq_false] at hbinding hrefused
    have hnomination := (StunCheckOutcome.respond.inj hrespond).2
    by_cases hcandidate : request.hasUseCandidate = true
    · rw [if_pos hcandidate] at hnomination
      exact ⟨⟨request, hparse, hbinding, hrefused.1, hcandidate,
        (Option.some.inj hnomination).symm⟩,
        hrefused.2⟩
    · rw [if_neg hcandidate] at hnomination
      exact nomatch hnomination

/-- A datagram leaves flows, credentials and allocations alone. -/
theorem receive_frame (digests : Digests) (backend : Backend) (arrival : Arrival) :
    (backend.receive digests arrival).2.flows = backend.flows ∧
      (backend.receive digests arrival).2.ice = backend.ice := by
  unfold receive
  split
  · exact ⟨rfl, rfl⟩
  dsimp only
  split
  · split
    · exact ⟨rfl, rfl⟩
    split
    · unfold handleStun
      split
      · exact ⟨rfl, rfl⟩
      · split
        · exact ⟨rfl, rfl⟩
        split
        · exact ⟨rfl, rfl⟩
        · exact ⟨rfl, rfl⟩
    · exact ⟨rfl, rfl⟩
  · exact ⟨rfl, rfl⟩

/-- What `handle_stun` does with the check it was given. -/
theorem handleStun_cases (digests : Digests) (backend : Backend) (arrival : Arrival)
    (config : IceConfig) :
    let after := backend.handleStun digests arrival config
    (after.1.nomination = none ∧ after.2.latched = backend.latched ∧
        after.2.iceNominated = backend.iceNominated) ∨
      ∃ priority, after.1.nomination = some (arrival.source, priority) ∧
        Nominates digests config arrival.payload priority ∧
        if nominationSupersedes (backend.iceNominated arrival.endpoint) priority then
          after.2.latched = setAt backend.latched arrival.endpoint (some ⟨arrival.source, none⟩) ∧
            after.2.iceNominated = setAt backend.iceNominated arrival.endpoint (some priority)
        else after.2.latched = backend.latched ∧ after.2.iceNominated = backend.iceNominated := by
  unfold handleStun
  cases hrespond : respondToStunCheck digests arrival.payload config arrival.source with
  | drop => exact Or.inl ⟨rfl, rfl, rfl⟩
  | respond response nomination =>
    cases nomination with
    | none => exact Or.inl ⟨rfl, rfl, rfl⟩
    | some priority =>
      refine Or.inr ⟨priority, rfl, respondToStunCheck_nominates hrespond, ?_⟩
      dsimp only
      split
      · exact ⟨rfl, rfl⟩
      · exact ⟨rfl, rfl⟩

/-- What a datagram writes: the latch and the nomination of a nominating check, or what the flow
makes of the attributed payload. -/
theorem receive_cases (digests : Digests) (backend : Backend) (arrival : Arrival) :
    let after := backend.receive digests arrival
    (after.1.nomination = none ∧ after.2.iceNominated = backend.iceNominated ∧
        (after.2.latched = backend.latched ∨ ∃ source payload,
          after.2.latched =
            (backend.toInner.dispatch ⟨arrival.endpoint, source, payload⟩).2.latched)) ∨
      ∃ config source payload priority, backend.ice arrival.endpoint = some config ∧
        unwrapped (backend.turnRelay arrival.endpoint) arrival.source arrival.payload =
          some (source, payload) ∧
        after.1.nomination = some (source, priority) ∧ Nominates digests config payload priority ∧
        if nominationSupersedes (backend.iceNominated arrival.endpoint) priority then
          after.2.latched = setAt backend.latched arrival.endpoint (some ⟨source, none⟩) ∧
            after.2.iceNominated = setAt backend.iceNominated arrival.endpoint (some priority)
        else after.2.latched = backend.latched ∧ after.2.iceNominated = backend.iceNominated := by
  unfold receive
  cases hunwrapped : unwrapped (backend.turnRelay arrival.endpoint) arrival.source
      arrival.payload with
  | none => exact Or.inl ⟨rfl, rfl, Or.inl rfl⟩
  | some attributed =>
    obtain ⟨source, payload⟩ := attributed
    dsimp only
    by_cases hstun : classify payload = .stun
    swap
    · rw [if_neg hstun]
      exact Or.inl ⟨rfl, rfl, Or.inr ⟨source, payload, rfl⟩⟩
    rw [if_pos hstun]
    by_cases hforward : backend.iceForwardOnly arrival.endpoint = true
    · rw [if_pos hforward]
      exact Or.inl ⟨rfl, rfl, Or.inl rfl⟩
    rw [if_neg hforward]
    cases hice : backend.ice arrival.endpoint with
    | none => exact Or.inl ⟨rfl, rfl, Or.inr ⟨source, payload, rfl⟩⟩
    | some config =>
      rcases handleStun_cases digests backend ⟨arrival.endpoint, source, payload⟩ config with
        hplain | ⟨priority, hnomination, hauthentic, hselected⟩
      · exact Or.inl ⟨hplain.1, hplain.2.2, Or.inl hplain.2.1⟩
      · exact Or.inr ⟨config, source, payload, priority, rfl, rfl, hnomination, hauthentic,
          hselected⟩

end Writes

end Backend

end SiphonRtp.Datapath
