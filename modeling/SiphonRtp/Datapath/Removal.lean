import SiphonRtp.Datapath.IcePath

/-!
# Removing an endpoint

The UDP datapath keeps what it knows about an endpoint in nine tables that different control calls
fill, and `remove_endpoint` clears them one by one (`siphon-rtp-datapath/src/udp.rs`). `Backend`
holds seven of the tables; `UdpDatapath` adds the sinks of the full agents, the publishers of the
validated source and the counters, and the calls that write those.

`UdpDatapath.entries` collects everything the tables say about one endpoint. The removal of an
endpoint leaves the entries of every other one as they were (`entries_removeEndpoint_of_ne`), and
its own are gone but one: the table of the endpoints whose checks a full agent answers
(`iceForwardOnly`) is not cleared, as `set_ice` does when it switches ICE off
(`entries_removeEndpoint_self`). So a removal is complete exactly if the endpoint was not in that
mode, which the calls before it decide (`iceForwardOnly_final`).
-/

set_option autoImplicit false

namespace SiphonRtp.Datapath

open Machine Stun

/-! ### All tables of the datapath -/

/-- The tables and the counters of the UDP datapath. -/
structure UdpDatapath where
  tables : Backend
  nextId : EndpointId
  live : ℕ
  /-- How many endpoints have an allocation. -/
  turnRelayCount : ℕ
  /-- The sinks of the full agents, each with a number of its own. -/
  iceEvents : EndpointId → Option ℕ
  /-- The publishers of the validated source, with what they published last. -/
  iceValidated : EndpointId → Option (Option SocketAddr)

/-- A call of the datapath. -/
inductive DatapathCall
  | register
  | receive (arrival : Arrival)
  | installFlow (endpoint : EndpointId) (action : FlowAction)
  | removeFlow (endpoint : EndpointId)
  | setIce (endpoint : EndpointId) (config : Option IceConfig)
  | setIceAgent (endpoint : EndpointId) (config : IceConfig) (mode : IceAgentMode) (events : ℕ)
  | adoptSource (endpoint : EndpointId) (source : SocketAddr)
  | watchIceValidated (endpoint : EndpointId)
  | setTurnRelay (endpoint : EndpointId) (relay : Option TurnRelay)
  | noteDropped (endpoint : EndpointId)
  | noteActivity (endpoint : EndpointId)
  | advanceClock (ticks : ℕ)
  | removeEndpoint (endpoint : EndpointId)
deriving DecidableEq

namespace UdpDatapath

/-- No endpoint has been registered. -/
def fresh : UdpDatapath where
  tables := { Backend.idle with endpoints := fun _ ↦ false }
  nextId := 0
  live := 0
  turnRelayCount := 0
  iceEvents _ := none
  iceValidated _ := none

/-- `register_socket`, with the place in the pool it was granted. -/
def register (datapath : UdpDatapath) : UdpDatapath :=
  { datapath with
    tables := { datapath.tables with
      endpoints := setAt datapath.tables.endpoints datapath.nextId true
      stats := setAt datapath.tables.stats datapath.nextId {} }
    nextId := datapath.nextId + 1
    live := datapath.live + 1 }

/-- `publish_ice_validated`. -/
def publishIceValidated (datapath : UdpDatapath) (endpoint : EndpointId) : UdpDatapath :=
  { datapath with
    iceValidated := setAt datapath.iceValidated endpoint ((datapath.iceValidated endpoint).map
      fun _ ↦ (datapath.tables.latched endpoint).map (·.source)) }

/-- `Inner::receive`: a check that selects its source publishes it. -/
def receive (digests : Digests) (datapath : UdpDatapath) (arrival : Arrival) : UdpDatapath :=
  let received := datapath.tables.receive digests arrival
  let taken := { datapath with tables := received.2 }
  match received.1.nomination with
  | none => taken
  | some (_, priority) =>
    if nominationSupersedes (datapath.tables.iceNominated arrival.endpoint) priority then
      taken.publishIceValidated arrival.endpoint
    else taken

/-- `remove_flow`. -/
def removeFlow (datapath : UdpDatapath) (endpoint : EndpointId) : UdpDatapath :=
  { datapath with
    tables := { datapath.tables with flows := setAt datapath.tables.flows endpoint none } }

/-- `set_ice`. -/
def setIce (datapath : UdpDatapath) (endpoint : EndpointId) (config : Option IceConfig) :
    UdpDatapath :=
  let set := { datapath with tables := datapath.tables.setIce endpoint config }
  if config = none then
    { set with
      iceEvents := setAt datapath.iceEvents endpoint none
      iceValidated := setAt datapath.iceValidated endpoint none }
  else set

/-- `set_ice_agent`. -/
def setIceAgent (datapath : UdpDatapath) (endpoint : EndpointId) (config : IceConfig)
    (mode : IceAgentMode) (events : ℕ) : UdpDatapath :=
  { datapath with
    tables := datapath.tables.setIceAgent endpoint config mode
    iceEvents := setAt datapath.iceEvents endpoint (some events) }

/-- `adopt_source`. -/
def adoptSource (datapath : UdpDatapath) (endpoint : EndpointId) (source : SocketAddr) :
    UdpDatapath :=
  publishIceValidated { datapath with tables := datapath.tables.adoptSource endpoint source }
    endpoint

/-- `watch_ice_validated`: the first subscription makes the publisher. -/
def watchIceValidated (datapath : UdpDatapath) (endpoint : EndpointId) : UdpDatapath :=
  if datapath.tables.ice endpoint = none then datapath
  else
    publishIceValidated { datapath with
      iceValidated := setAt datapath.iceValidated endpoint
        (some ((datapath.iceValidated endpoint).getD none)) } endpoint

/-- `set_turn_relay`, which counts the endpoints that have an allocation. -/
def setTurnRelay (datapath : UdpDatapath) (endpoint : EndpointId) (relay : Option TurnRelay) :
    UdpDatapath :=
  { datapath with
    tables := { datapath.tables with turnRelay := setAt datapath.tables.turnRelay endpoint relay }
    turnRelayCount :=
      match datapath.tables.turnRelay endpoint, relay with
      | none, some _ => datapath.turnRelayCount + 1
      | some _, none => datapath.turnRelayCount - 1
      | _, _ => datapath.turnRelayCount }

/-- A change to the counters of a registered endpoint. -/
def countAt (datapath : UdpDatapath) (endpoint : EndpointId) (change : Stats → Stats) :
    UdpDatapath :=
  if datapath.tables.endpoints endpoint then
    { datapath with
      tables := { datapath.tables with
        stats := setAt datapath.tables.stats endpoint (change (datapath.tables.stats endpoint)) } }
  else datapath

/-- `note_dropped`. -/
def noteDropped (datapath : UdpDatapath) (endpoint : EndpointId) : UdpDatapath :=
  datapath.countAt endpoint fun stats ↦ { stats with packetsDropped := stats.packetsDropped + 1 }

/-- `note_activity`. -/
def noteActivity (datapath : UdpDatapath) (endpoint : EndpointId) : UdpDatapath :=
  datapath.countAt endpoint fun stats ↦ { stats with lastSeen := datapath.tables.clock }

/-- `remove_endpoint`. The counters of an endpoint are part of its entry. The table
`ice_forward_only` is not written. -/
def removeEndpoint (datapath : UdpDatapath) (endpoint : EndpointId) : UdpDatapath where
  tables :=
    { datapath.tables with
      endpoints := setAt datapath.tables.endpoints endpoint false
      stats := setAt datapath.tables.stats endpoint {}
      flows := setAt datapath.tables.flows endpoint none
      latched := setAt datapath.tables.latched endpoint none
      ice := setAt datapath.tables.ice endpoint none
      iceNominated := setAt datapath.tables.iceNominated endpoint none
      turnRelay := setAt datapath.tables.turnRelay endpoint none }
  nextId := datapath.nextId
  live := if datapath.tables.endpoints endpoint then datapath.live - 1 else datapath.live
  turnRelayCount :=
    if (datapath.tables.turnRelay endpoint).isSome then datapath.turnRelayCount - 1
    else datapath.turnRelayCount
  iceEvents := setAt datapath.iceEvents endpoint none
  iceValidated := setAt datapath.iceValidated endpoint none

/-- One call. -/
def step (digests : Digests) (datapath : UdpDatapath) (call : DatapathCall) : Unit × UdpDatapath :=
  ((), match call with
    | .register => datapath.register
    | .receive arrival => datapath.receive digests arrival
    | .installFlow endpoint action =>
      { datapath with tables := datapath.tables.installFlow endpoint action }
    | .removeFlow endpoint => datapath.removeFlow endpoint
    | .setIce endpoint config => datapath.setIce endpoint config
    | .setIceAgent endpoint config mode events => datapath.setIceAgent endpoint config mode events
    | .adoptSource endpoint source => datapath.adoptSource endpoint source
    | .watchIceValidated endpoint => datapath.watchIceValidated endpoint
    | .setTurnRelay endpoint relay => datapath.setTurnRelay endpoint relay
    | .noteDropped endpoint => datapath.noteDropped endpoint
    | .noteActivity endpoint => datapath.noteActivity endpoint
    | .advanceClock ticks =>
      { datapath with tables := { datapath.tables with clock := datapath.tables.clock + ticks } }
    | .removeEndpoint endpoint => datapath.removeEndpoint endpoint)

end UdpDatapath

/-! ### The entries of one endpoint -/

/-- What the nine tables hold for an endpoint. -/
structure Entries where
  endpoint : Option Stats
  flow : Option FlowAction
  latched : Option (SourceLatch SocketAddr)
  turnRelay : Option TurnRelay
  ice : Option IceConfig
  iceNominated : Option UInt32
  iceEvents : Option ℕ
  iceForwardOnly : Bool
  iceValidated : Option (Option SocketAddr)
deriving DecidableEq

/-- Nothing in any table. -/
def Entries.absent : Entries := ⟨none, none, none, none, none, none, none, false, none⟩

namespace UdpDatapath

/-- What the tables hold for an endpoint. -/
def entries (datapath : UdpDatapath) (endpoint : EndpointId) : Entries where
  endpoint :=
    if datapath.tables.endpoints endpoint then some (datapath.tables.stats endpoint) else none
  flow := datapath.tables.flows endpoint
  latched := datapath.tables.latched endpoint
  turnRelay := datapath.tables.turnRelay endpoint
  ice := datapath.tables.ice endpoint
  iceNominated := datapath.tables.iceNominated endpoint
  iceEvents := datapath.iceEvents endpoint
  iceForwardOnly := datapath.tables.iceForwardOnly endpoint
  iceValidated := datapath.iceValidated endpoint

/-- All that stays of a removed endpoint is its mode. -/
theorem entries_removeEndpoint_self (datapath : UdpDatapath) (endpoint : EndpointId) :
    (datapath.removeEndpoint endpoint).entries endpoint =
      { Entries.absent with iceForwardOnly := datapath.tables.iceForwardOnly endpoint } := by
  simp [entries, removeEndpoint, Entries.absent]

theorem entries_removeEndpoint_of_ne (datapath : UdpDatapath) {endpoint other : EndpointId}
    (hother : other ≠ endpoint) :
    (datapath.removeEndpoint endpoint).entries other = datapath.entries other := by
  simp only [entries, removeEndpoint, setAt_of_ne _ hother]

/-! ### Which calls set the mode -/

/-- What a call makes of the mode of an endpoint, none if it leaves it. -/
def agentMode (endpoint : EndpointId) : DatapathCall → Option Bool
  | .setIceAgent target _ mode _ =>
    if target = endpoint then some (decide (mode = .forwardOnly)) else none
  | .setIce target none => if target = endpoint then some false else none
  | _ => none

/-- A datagram leaves the modes and the allocations alone. -/
theorem tables_receive (digests : Digests) (datapath : UdpDatapath) (arrival : Arrival) :
    (datapath.receive digests arrival).tables = (datapath.tables.receive digests arrival).2 ∧
      (datapath.receive digests arrival).turnRelayCount = datapath.turnRelayCount := by
  unfold receive
  dsimp only
  cases (datapath.tables.receive digests arrival).1.nomination with
  | none => exact ⟨rfl, rfl⟩
  | some nomination =>
    dsimp only
    split_ifs <;> exact ⟨rfl, rfl⟩

theorem receive_keeps (digests : Digests) (backend : Backend) (arrival : Arrival) :
    (backend.receive digests arrival).2.iceForwardOnly = backend.iceForwardOnly ∧
      (backend.receive digests arrival).2.turnRelay = backend.turnRelay := by
  unfold Backend.receive
  split
  · exact ⟨rfl, rfl⟩
  dsimp only
  split
  · split
    · exact ⟨rfl, rfl⟩
    split
    · unfold Backend.handleStun
      split
      · exact ⟨rfl, rfl⟩
      · split
        · exact ⟨rfl, rfl⟩
        split <;> exact ⟨rfl, rfl⟩
    · exact ⟨rfl, rfl⟩
  · exact ⟨rfl, rfl⟩

theorem installFlow_keeps (backend : Backend) (endpoint : EndpointId) (action : FlowAction) :
    (backend.installFlow endpoint action).iceForwardOnly = backend.iceForwardOnly ∧
      (backend.installFlow endpoint action).turnRelay = backend.turnRelay := by
  unfold Backend.installFlow
  split
  · exact ⟨rfl, rfl⟩
  split <;> exact ⟨rfl, rfl⟩

theorem countAt_keeps (datapath : UdpDatapath) (endpoint : EndpointId) (change : Stats → Stats) :
    (datapath.countAt endpoint change).tables.iceForwardOnly = datapath.tables.iceForwardOnly ∧
      (datapath.countAt endpoint change).tables.turnRelay = datapath.tables.turnRelay ∧
      (datapath.countAt endpoint change).turnRelayCount = datapath.turnRelayCount := by
  unfold countAt
  split <;> exact ⟨rfl, rfl, rfl⟩

theorem watchIceValidated_keeps (datapath : UdpDatapath) (endpoint : EndpointId) :
    (datapath.watchIceValidated endpoint).tables = datapath.tables ∧
      (datapath.watchIceValidated endpoint).turnRelayCount = datapath.turnRelayCount := by
  unfold watchIceValidated
  split <;> exact ⟨rfl, rfl⟩

theorem setAt_getD {α : Type} (table : EndpointId → α) (target endpoint : EndpointId)
    (entry : α) : setAt table target entry endpoint =
      (if target = endpoint then some entry else none).getD (table endpoint) := by
  unfold setAt
  by_cases hsame : endpoint = target
  · rw [if_pos hsame, if_pos hsame.symm]
    rfl
  · rw [if_neg hsame, if_neg (Ne.symm hsame)]
    rfl

/-- One call moves the mode of an endpoint as `agentMode` says. -/
theorem iceForwardOnly_step (digests : Digests) (datapath : UdpDatapath) (call : DatapathCall)
    (endpoint : EndpointId) :
    (datapath.step digests call).2.tables.iceForwardOnly endpoint =
      (agentMode endpoint call).getD (datapath.tables.iceForwardOnly endpoint) := by
  cases call with
  | receive arrival =>
    rw [step, (tables_receive digests datapath arrival).1, (receive_keeps digests _ arrival).1]
    rfl
  | installFlow target action => exact congrFun (installFlow_keeps _ target action).1 endpoint
  | setIce target config =>
    cases config with
    | none => exact setAt_getD _ target endpoint false
    | some config => rfl
  | setIceAgent target config mode events => exact setAt_getD _ target endpoint _
  | watchIceValidated target =>
    rw [step, (watchIceValidated_keeps datapath target).1]
    rfl
  | noteDropped target => exact congrFun (countAt_keeps datapath target _).1 endpoint
  | noteActivity target => exact congrFun (countAt_keeps datapath target _).1 endpoint
  | register => rfl
  | removeFlow target => rfl
  | adoptSource target source => rfl
  | setTurnRelay target relay => rfl
  | advanceClock ticks => rfl
  | removeEndpoint target => rfl

/-- The last call that sets the mode of an endpoint decides it. -/
theorem iceForwardOnly_final (digests : Digests) (calls : List DatapathCall)
    (endpoint : EndpointId) :
    (final (step digests) fresh calls).tables.iceForwardOnly endpoint =
      (calls.filterMap (agentMode endpoint)).getLast?.getD false := by
  induction calls using List.reverseRecOn with
  | nil => rfl
  | append_singleton calls call ih =>
    rw [final_append, final_cons, final_nil, iceForwardOnly_step, ih]
    cases hmode : agentMode endpoint call with
    | none => simp [hmode]
    | some mode => simp [hmode]

/-! ### Complete removals -/

/-- After any calls, the removal of an endpoint takes everything about it out of the tables and
leaves the entries of all others exactly if the last call that set its mode did not leave its checks
to a full agent. -/
theorem removal_complete_iff (digests : Digests) (calls : List DatapathCall)
    (endpoint : EndpointId) :
    let datapath := final (step digests) fresh calls
    ((datapath.removeEndpoint endpoint).entries endpoint = Entries.absent ∧
        ∀ other, other ≠ endpoint →
          (datapath.removeEndpoint endpoint).entries other = datapath.entries other) ↔
      (calls.filterMap (agentMode endpoint)).getLast? ≠ some true := by
  intro datapath
  have hmode := iceForwardOnly_final digests calls endpoint
  rw [entries_removeEndpoint_self]
  constructor
  · rintro ⟨habsent, -⟩ hlast
    have hfalse := congrArg Entries.iceForwardOnly habsent
    rw [hlast] at hmode
    exact absurd (hmode.symm.trans hfalse) (by decide)
  · intro hlast
    refine ⟨?_, fun other hother ↦ datapath.entries_removeEndpoint_of_ne hother⟩
    have hfalse : datapath.tables.iceForwardOnly endpoint = false := by
      rw [hmode]
      cases hread : (calls.filterMap (agentMode endpoint)).getLast? with
      | none => rfl
      | some mode =>
        rw [hread] at hlast
        cases mode with
        | false => rfl
        | true => exact absurd rfl hlast
    rw [hfalse]
    rfl

/-- An endpoint whose checks a full agent answers is removed, and its mode stays behind. -/
theorem removed_endpoint_stays_forward_only :
    let datapath := final (step zeroDigests) fresh
      [.register, .setIceAgent 0 Backend.sampleConfig .forwardOnly 9]
    datapath.tables.endpoints 0 = true ∧
      (datapath.removeEndpoint 0).entries 0 = { Entries.absent with iceForwardOnly := true } := by
  decide

end UdpDatapath

end SiphonRtp.Datapath
