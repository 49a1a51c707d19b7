import SiphonRtp.Turn.Manager

/-!
# What the allocation manager can do with a message

`Handled` lists what one message can do to the manager, one constructor for each, with what was
checked on the way, and `handled` says that there is nothing else. What holds along a run is proved
from it, and the handlers are not opened again.

`Authentic` is a client message that is a request of a method with the credentials of a username,
`Asks` is what such a request asks for its allocation, and `Brings` is a payload that passes the
gates of one.

Three groups of lemmas follow from it: what was checked when a payload goes out (`sent_of_mem`,
`delivered_of_mem`), what a message that passes all checks does (`handle_of_brings` and its like),
and what the table holds afterwards (`lookup_reap` and its like).
-/

set_option autoImplicit false

namespace SiphonRtp.Turn

open Machine Datapath Stun

/-! ### Messages -/

/-- A client message that is a request of a method, authenticated under a username. -/
structure Authentic (setup : Setup) (input : Surroundings × Message) (request : Request)
    (method : UInt16) (username : Bytes) : Prop where
  message_eq : input.2 = .client request.fiveTuple request.transport request.raw
  demuxed : ∃ first, request.raw.head? = some first ∧ isChannelData first = false
  parsed : parse request.raw = .ok request.message
  isRequest : classOf request.message.messageType = classRequest
  method_eq : methodOf request.message.messageType = method
  accepted : ∃ key, authenticate setup input.1 request = .ok username key

/-- An effect of a request that changes nothing: the answer, or an endpoint given back that was
drawn for it. -/
def Answers (transport : ClientTransport) : Effect → Prop
  | .reply destination _ => destination = transport
  | .removeEndpoint _ => True
  | _ => False

/-- The Send indication a client message is, with the peer and the payload it names. -/
def SendsTo (message : Message) (fiveTuple : FiveTuple) (peer : SocketAddr) (data : Bytes) : Prop :=
  ∃ transport datagram first indication,
    message = .client fiveTuple transport datagram ∧ datagram.head? = some first ∧
      isChannelData first = false ∧ parse datagram = .ok indication ∧
      classOf indication.messageType = classIndication ∧
      methodOf indication.messageType = methodSend ∧ indication.xorPeerAddress = some peer ∧
      indication.data = some data

/-- The ChannelData a client message is, with the channel and the payload it names. -/
def SendsOn (message : Message) (fiveTuple : FiveTuple) (channel : UInt16) (data : Bytes) : Prop :=
  ∃ transport datagram first,
    message = .client fiveTuple transport datagram ∧ datagram.head? = some first ∧
      isChannelData first = true ∧ parseChannelData datagram = some ⟨channel, data⟩

theorem SendsTo.client {message : Message} {fiveTuple : FiveTuple} {peer : SocketAddr}
    {data : Bytes} (hsends : SendsTo message fiveTuple peer data) :
    ∃ transport datagram, message = .client fiveTuple transport datagram := by
  obtain ⟨transport, datagram, _, _, hmessage, _⟩ := hsends
  exact ⟨transport, datagram, hmessage⟩

theorem SendsOn.client {message : Message} {fiveTuple : FiveTuple} {channel : UInt16}
    {data : Bytes} (hsends : SendsOn message fiveTuple channel data) :
    ∃ transport datagram, message = .client fiveTuple transport datagram := by
  obtain ⟨transport, datagram, _, hmessage, _⟩ := hsends
  exact ⟨transport, datagram, hmessage⟩

namespace AllocationManager

/-- What a request with credentials asks for its allocation: no allocation, a new lifetime,
permissions for peers that are all allowed, or a channel to an allowed peer. -/
inductive Asks (setup : Setup) (input : Surroundings × Message) (request : Request)
    (username : Bytes) (allocation : Allocation) : Option Allocation → Prop
  | deletes (hauthentic : Authentic setup input request methodRefresh username)
      (hzero : (lifetime request.message).getD setup.config.defaultLifetime = 0) :
      Asks setup input request username allocation none
  | refreshes (hauthentic : Authentic setup input request methodRefresh username)
      (hnonzero : (lifetime request.message).getD setup.config.defaultLifetime ≠ 0) :
      Asks setup input request username allocation (some (extend
        (input.1.now + (grantedLifetime setup.config request.message).toNat) allocation))
  | permits (hauthentic : Authentic setup input request methodCreatePermission username)
      (hnonempty : xorPeerAddresses request.message ≠ [])
      (hpeers : ∀ peer ∈ xorPeerAddresses request.message,
        setup.config.deniedPeers.permits peer.ip = true) :
      Asks setup input request username allocation (some (permit
        (input.1.now + setup.config.permissionLifetime.toNat)
        ((xorPeerAddresses request.message).map SocketAddr.ip) allocation))
  | binds {channel : UInt16} {peer : SocketAddr}
      (hauthentic : Authentic setup input request methodChannelBind username)
      (hchannel : channelNumber request.message = some channel)
      (hpeer : request.message.xorPeerAddress = some peer)
      (hconsistent : consistent allocation channel peer = true)
      (hpermits : setup.config.deniedPeers.permits peer.ip = true)
      (hvalid : validChannelNumber channel = true) :
      Asks setup input request username allocation
        (some (bindChannel setup input.1 channel peer allocation))

theorem Asks.authentic {setup : Setup} {input : Surroundings × Message} {request : Request}
    {username : Bytes} {allocation : Allocation} {after : Option Allocation}
    (hasks : Asks setup input request username allocation after) :
    ∃ method, Authentic setup input request method username := by
  cases hasks with
  | deletes hauthentic | refreshes hauthentic | permits hauthentic | binds hauthentic =>
    exact ⟨_, hauthentic⟩

/-- The manager with another allocation on a 5-tuple, or with none. -/
def settle (manager : AllocationManager) (fiveTuple : FiveTuple) :
    Option Allocation → AllocationManager
  | none => (manager.deleteAllocation fiveTuple).2
  | some next => manager.modifyAllocation fiveTuple fun _ ↦ next

theorem settle_some {manager : AllocationManager} {fiveTuple : FiveTuple} {allocation : Allocation}
    (hsome : manager.allocations.lookup fiveTuple = some allocation)
    (change : Allocation → Allocation) :
    manager.settle fiveTuple (some (change allocation)) =
      manager.modifyAllocation fiveTuple change := by
  unfold settle modifyAllocation Table.modify
  rw [hsome]

/-- An effect that carries no payload, with a route to the fast path only for a peer that the policy
allows. -/
def Plain (setup : Setup) : Effect → Prop
  | .send _ _ _ => False
  | .installChannel route => setup.config.deniedPeers.permits route.peer.ip = true
  | _ => True

/-- An effect that carries a payload on: a client's to its peer, or a peer's to its client. -/
def Carries : Message → Effect → Prop
  | .client _ _ _, .send _ _ _ => True
  | .relayInbound _ _ _, .reply _ _ => True
  | _, _ => False

/-- A payload that a message brings to an allocation and that passes its gates, with the effect that
carries it on. -/
inductive Brings (setup : Setup) (fiveTuple : FiveTuple) (manager : AllocationManager)
    (input : Surroundings × Message) (allocation : Allocation) (data : Bytes) : Effect → Prop
  | indication {peer : SocketAddr} (hsends : SendsTo input.2 fiveTuple peer data)
      (hpermission : hasPermission allocation peer.ip input.1.now = true)
      (hpermits : setup.config.deniedPeers.permits peer.ip = true)
      (hbudget : withinBudget setup allocation data.length = true) (hsent : input.1.sent = true) :
      Brings setup fiveTuple manager input allocation data
        (.send allocation.relay.id peer data)
  | channelData {channel : UInt16} {binding : ChannelBinding}
      (hsends : SendsOn input.2 fiveTuple channel data)
      (hbinding : allocation.channels.lookup channel = some binding)
      (hunexpired : input.1.now < binding.expiresAt)
      (hpermits : setup.config.deniedPeers.permits binding.peer.ip = true)
      (hbudget : withinBudget setup allocation data.length = true) (hsent : input.1.sent = true) :
      Brings setup fiveTuple manager input allocation data
        (.send allocation.relay.id binding.peer data)
  | inbound {endpoint : EndpointId} {peer : SocketAddr} {wire : Bytes}
      (hmessage : input.2 = .relayInbound endpoint peer data)
      (hindex : manager.relayIndex.lookup endpoint = some fiveTuple)
      (hpermission : hasPermission allocation peer.ip input.1.now = true)
      (hpermits : setup.config.deniedPeers.permits peer.ip = true)
      (hbudget : withinBudget setup allocation data.length = true) :
      Brings setup fiveTuple manager input allocation data
        (.reply allocation.transport wire)

/-- What a message can do to the manager. -/
inductive Handled (setup : Setup) (manager : AllocationManager) (input : Surroundings × Message) :
    List Effect × AllocationManager → Prop
  | ignored : Handled setup manager input ([], manager)
  | answered {fiveTuple : FiveTuple} {transport : ClientTransport} {datagram : Bytes}
      {effects : List Effect} (hmessage : input.2 = .client fiveTuple transport datagram)
      (heffects : ∀ effect ∈ effects, Answers transport effect) :
      Handled setup manager input (effects, manager)
  | allocated {request : Request} {username key : Bytes} {relay : Endpoint}
      (hauthentic : Authentic setup input request methodAllocate username)
      (hnone : manager.allocations.lookup request.fiveTuple = none)
      (hquota : (manager.quota.lookup username).getD 0 < setup.config.maxAllocationsPerUser)
      (hrelay : input.1.endpoint = some relay) :
      Handled setup manager input
        (createAllocation setup input.1 request manager username key relay)
  | asked {request : Request} {username : Bytes} {allocation : Allocation}
      {after : Option Allocation} {effects : List Effect}
      (hsome : manager.allocations.lookup request.fiveTuple = some allocation)
      (hasks : Asks setup input request username allocation after)
      (heffects : ∀ effect ∈ effects, Plain setup effect) :
      Handled setup manager input (effects, manager.settle request.fiveTuple after)
  | relayed {fiveTuple : FiveTuple} {allocation : Allocation} {data : Bytes} {effect : Effect}
      {counter : UInt64} (hsome : manager.allocations.lookup fiveTuple = some allocation)
      (hbrings : Brings setup fiveTuple manager input allocation data effect) :
      Handled setup manager input
        ([effect], countBytes { manager with indicationCounter := counter } fiveTuple data)
  | reaped (htick : input.2 = .tick) :
      Handled setup manager input (manager.reap input.1.now)

variable {setup : Setup} {manager : AllocationManager} {input : Surroundings × Message}

section Handlers

theorem plain_reply {transport : ClientTransport} {wire : Bytes} :
    ∀ effect ∈ [Effect.reply transport wire], Plain setup effect := by
  intro effect hmem
  rw [List.mem_singleton.mp hmem]
  trivial

theorem plain_of_mem_deleteAllocation {fiveTuple : FiveTuple} {effect : Effect}
    (hmem : effect ∈ (manager.deleteAllocation fiveTuple).1) : Plain setup effect := by
  unfold deleteAllocation at hmem
  split at hmem
  · exact absurd hmem List.not_mem_nil
  · rcases List.mem_cons.mp hmem with rfl | hroute
    · exact trivial
    · obtain ⟨_, _, rfl⟩ := List.mem_map.mp hroute
      exact trivial

theorem handled_relayToPeer {fiveTuple : FiveTuple} {allocation : Allocation} {peer : SocketAddr}
    {data : Bytes}
    (hrelayed : withinBudget setup allocation data.length = true → input.1.sent = true →
      Handled setup manager input
        ([.send allocation.relay.id peer data], manager.countBytes fiveTuple data)) :
    Handled setup manager input
      (relayToPeer setup input.1 manager fiveTuple allocation peer data) := by
  unfold relayToPeer
  split
  · exact .ignored
  rename_i hbudget
  split
  · exact .ignored
  rename_i hsent
  exact hrelayed (Bool.not_eq_false _ ▸ hbudget) (Bool.not_eq_false _ ▸ hsent)

theorem handled_sendIndication {fiveTuple : FiveTuple} {transport : ClientTransport}
    {datagram : Bytes} {first : UInt8} {message : StunMessage}
    (hmessage : input.2 = .client fiveTuple transport datagram)
    (hfirst : datagram.head? = some first) (hstun : isChannelData first = false)
    (hparse : parse datagram = .ok message)
    (hclass : classOf message.messageType = classIndication)
    (hmethod : methodOf message.messageType = methodSend) :
    Handled setup manager input
      (handleSendIndication setup input.1 manager fiveTuple message) := by
  unfold handleSendIndication
  split
  · rename_i peer data hpeer hdata
    split
    · exact .ignored
    rename_i hpermits
    split
    · exact .ignored
    rename_i allocation hsome
    split
    · exact .ignored
    rename_i hpermission
    exact handled_relayToPeer fun hbudget hsent ↦ .relayed hsome (.indication
      ⟨transport, datagram, first, message, hmessage, hfirst, hstun, hparse, hclass, hmethod, hpeer,
        hdata⟩ (Bool.not_eq_false _ ▸ hpermission) (Bool.not_eq_false _ ▸ hpermits) hbudget hsent)
  · exact .ignored

theorem handled_channelData {fiveTuple : FiveTuple} {transport : ClientTransport}
    {datagram : Bytes} {first : UInt8}
    (hmessage : input.2 = .client fiveTuple transport datagram)
    (hfirst : datagram.head? = some first) (hchannel : isChannelData first = true) :
    Handled setup manager input (handleChannelData setup input.1 manager fiveTuple datagram) := by
  unfold handleChannelData
  split
  · exact .ignored
  rename_i channelData hparse
  split
  · exact .ignored
  rename_i allocation hsome
  split
  · exact .ignored
  rename_i binding hbinding
  split
  · exact .ignored
  rename_i hunexpired
  split
  · exact .ignored
  rename_i hpermits
  exact handled_relayToPeer fun hbudget hsent ↦ .relayed hsome (.channelData
    ⟨transport, datagram, first, hmessage, hfirst, hchannel, hparse⟩ hbinding
    (Nat.not_le.mp hunexpired) (Bool.not_eq_false _ ▸ hpermits) hbudget hsent)

theorem handled_relayInbound {endpoint : EndpointId} {peer : SocketAddr} {data : Bytes}
    (hmessage : input.2 = .relayInbound endpoint peer data) :
    Handled setup manager input
      (handleRelayInbound setup input.1 manager endpoint peer data) := by
  unfold handleRelayInbound
  split
  · exact .ignored
  rename_i fiveTuple hindex
  split
  · exact .ignored
  rename_i allocation hsome
  split
  · exact .ignored
  rename_i hpermission
  split
  · exact .ignored
  rename_i hpermits
  split
  · exact .ignored
  rename_i hbudget
  have hbrings := fun wire ↦ @Brings.inbound setup fiveTuple manager input allocation data endpoint
    peer wire hmessage hindex (Bool.not_eq_false _ ▸ hpermission) (Bool.not_eq_false _ ▸ hpermits)
    (Bool.not_eq_false _ ▸ hbudget)
  unfold deliver
  split
  · exact .relayed hsome (hbrings _)
  · exact .relayed hsome (hbrings _)

section Requests

variable {request : Request}
  (hmessage : input.2 = .client request.fiveTuple request.transport request.raw)
include hmessage

/-- An error, which changes nothing. -/
theorem handled_reply (wire : Bytes) :
    Handled setup manager input ([.reply request.transport wire], manager) := by
  refine .answered hmessage fun effect heffect ↦ ?_
  rw [List.mem_singleton.mp heffect]
  exact rfl

/-- A request without credentials is challenged, and one with them goes to its handler. -/
theorem handled_requireAuth {method : UInt16}
    {accepted : Bytes → Bytes → List Effect × AllocationManager}
    (haccepted : ∀ username key, authenticate setup input.1 request = .ok username key →
      Handled setup manager input (accepted username key)) :
    Handled setup manager input
      (requireAuth setup input.1 request method manager accepted) := by
  unfold requireAuth
  split
  · rename_i username key hauth
    exact haccepted username key hauth
  · exact handled_reply hmessage _
  · exact handled_reply hmessage _

theorem handled_requireAllocation {method : UInt16}
    {accepted : Bytes → Allocation → List Effect × AllocationManager}
    (haccepted : ∀ username key allocation,
      authenticate setup input.1 request = .ok username key →
        manager.allocations.lookup request.fiveTuple = some allocation →
          Handled setup manager input (accepted key allocation)) :
    Handled setup manager input
      (requireAllocation setup input.1 request method manager accepted) := by
  refine handled_requireAuth hmessage fun username key hauth ↦ ?_
  split
  · exact handled_reply hmessage _
  · rename_i allocation hsome
    exact haccepted username key allocation hauth hsome

variable (hstun : ∃ first, request.raw.head? = some first ∧ isChannelData first = false)
  (hparse : parse request.raw = .ok request.message)
  (hclass : classOf request.message.messageType = classRequest)
include hstun hparse hclass

theorem handled_allocate (hmethod : methodOf request.message.messageType = methodAllocate) :
    Handled setup manager input (handleAllocate setup input.1 request manager) := by
  refine handled_requireAuth hmessage fun username key hauth ↦ ?_
  dsimp only
  split
  · split
    · split
      · exact handled_reply hmessage _
      · exact handled_reply hmessage _
    · exact handled_reply hmessage _
  rename_i hnone
  split
  · exact handled_reply hmessage _
  split
  · exact handled_reply hmessage _
  split
  · exact handled_reply hmessage _
  rename_i hquota
  split
  · exact handled_reply hmessage _
  rename_i relay hrelay
  split
  · refine .answered hmessage fun effect heffect ↦ ?_
    rcases List.mem_cons.mp heffect with rfl | heffect
    · exact trivial
    · rw [List.mem_singleton.mp heffect]
      exact rfl
  · exact .allocated ⟨hmessage, hstun, hparse, hclass, hmethod, key, hauth⟩ hnone
      (Nat.not_le.mp hquota) hrelay

theorem handled_refresh (hmethod : methodOf request.message.messageType = methodRefresh) :
    Handled setup manager input (handleRefresh setup input.1 request manager) := by
  refine handled_requireAllocation hmessage fun username key allocation hauth hsome ↦ ?_
  have hauthentic : Authentic setup input request methodRefresh username :=
    ⟨hmessage, hstun, hparse, hclass, hmethod, key, hauth⟩
  dsimp only
  split
  · rename_i hzero
    refine .asked hsome (.deletes hauthentic hzero) fun effect hmem ↦ ?_
    rcases List.mem_append.mp hmem with hremoved | hreply
    · exact plain_of_mem_deleteAllocation hremoved
    · exact plain_reply effect hreply
  · rename_i hnonzero
    rw [← settle_some hsome]
    exact .asked hsome (.refreshes hauthentic hnonzero) plain_reply

theorem handled_createPermission
    (hmethod : methodOf request.message.messageType = methodCreatePermission) :
    Handled setup manager input (handleCreatePermission setup input.1 request manager) := by
  refine handled_requireAllocation hmessage fun username key allocation hauth hsome ↦ ?_
  dsimp only
  split
  · exact handled_reply hmessage _
  rename_i hnonempty
  split
  · exact handled_reply hmessage _
  rename_i hdenied
  rw [← settle_some hsome]
  refine .asked hsome (.permits ⟨hmessage, hstun, hparse, hclass, hmethod, key, hauth⟩ hnonempty
    fun peer hpeer ↦ ?_) plain_reply
  by_contra hnot
  rw [Bool.not_eq_true] at hnot
  refine hdenied (List.any_eq_true.mpr ⟨peer, hpeer, ?_⟩)
  rw [hnot]
  rfl

theorem handled_channelBind
    (hmethod : methodOf request.message.messageType = methodChannelBind) :
    Handled setup manager input (handleChannelBind setup input.1 request manager) := by
  refine handled_requireAllocation hmessage fun username key allocation hauth hsome ↦ ?_
  split
  · rename_i channel peer hchannel hpeer
    split
    · exact handled_reply hmessage _
    rename_i haccepted
    split
    · exact handled_reply hmessage _
    rename_i hpermits
    obtain ⟨hvalid, hconsistent⟩ := not_or.mp haccepted
    have hallowed : setup.config.deniedPeers.permits peer.ip = true :=
      Bool.not_eq_false _ ▸ hpermits
    rw [← settle_some hsome]
    refine .asked hsome (.binds ⟨hmessage, hstun, hparse, hclass, hmethod, key, hauth⟩ hchannel
      hpeer (Bool.not_eq_false _ ▸ hconsistent) hallowed (Bool.not_eq_false _ ▸ hvalid))
      fun effect hmem ↦ ?_
    rcases List.mem_append.mp hmem with hroute | hreply
    · split_ifs at hroute
      · obtain rfl := List.mem_singleton.mp hroute
        exact hallowed
      · exact absurd hroute List.not_mem_nil
    · exact plain_reply effect hreply
  · exact handled_reply hmessage _

end Requests

/-- A message does one of the things listed, and nothing else. -/
theorem handled (setup : Setup) (manager : AllocationManager) (input : Surroundings × Message) :
    Handled setup manager input (handle setup manager input) := by
  unfold handle
  split
  · rename_i fiveTuple transport datagram hmessage
    unfold handleClient
    split
    · exact .ignored
    rename_i first hfirst
    split
    · rename_i hchannel
      exact handled_channelData hmessage hfirst hchannel
    rename_i hstun
    have hdemuxed : ∃ first, datagram.head? = some first ∧ isChannelData first = false :=
      ⟨first, hfirst, Bool.not_eq_true _ ▸ hstun⟩
    split
    · exact .ignored
    rename_i message hparse
    unfold handleMessage
    dsimp only
    split
    · rename_i hclass
      split
      · rename_i hmethod
        exact handled_sendIndication hmessage hfirst (Bool.not_eq_true _ ▸ hstun) hparse hclass
          hmethod
      · exact .ignored
    split
    · rename_i hclass
      split
      · exact @handled_reply setup manager input ⟨fiveTuple, transport, message, datagram⟩
          hmessage _
      split
      · rename_i hmethod
        exact handled_allocate hmessage hdemuxed hparse hclass hmethod
      split
      · rename_i hmethod
        exact handled_refresh hmessage hdemuxed hparse hclass hmethod
      split
      · rename_i hmethod
        exact handled_createPermission hmessage hdemuxed hparse hclass hmethod
      split
      · rename_i hmethod
        exact handled_channelBind hmessage hdemuxed hparse hclass hmethod
      · exact .ignored
    · exact .ignored
  · rename_i endpoint peer data hmessage
    exact handled_relayInbound hmessage
  · rename_i hmessage
    exact .reaped hmessage

end Handlers

/-! ### What goes out -/

section Effects

variable {endpoint : EndpointId} {peer : SocketAddr} {data : Bytes}

theorem plain_of_mem_deleteAllocations {fiveTuples : List FiveTuple} {effect : Effect}
    (hmem : effect ∈ (manager.deleteAllocations fiveTuples).1) : Plain setup effect := by
  induction fiveTuples generalizing manager with
  | nil => exact absurd hmem List.not_mem_nil
  | cons first rest ih =>
    rcases List.mem_append.mp hmem with hfirst | hrest
    · exact plain_of_mem_deleteAllocation hfirst
    · exact ih hrest

theorem plain_of_mem_reap {now : ℕ} {effect : Effect} (hmem : effect ∈ (manager.reap now).1) :
    Plain setup effect := by
  rcases List.mem_append.mp hmem with hchannel | hallocation
  · obtain ⟨_, _, rfl⟩ := List.mem_map.mp hchannel
    exact trivial
  · exact plain_of_mem_deleteAllocations hallocation

theorem Answers.plain {transport : ClientTransport} {effect : Effect}
    (hanswers : Answers transport effect) : Plain setup effect := by
  cases effect <;> trivial

/-- An effect carries a payload of the message on, or the message is no datagram of a peer and the
effect is plain. -/
theorem brings_of_mem {effect : Effect} (hmem : effect ∈ (handle setup manager input).1) :
    (∃ fiveTuple allocation data, manager.allocations.lookup fiveTuple = some allocation ∧
        Brings setup fiveTuple manager input allocation data effect) ∨
      Plain setup effect ∧ ∀ endpoint peer data, input.2 ≠ .relayInbound endpoint peer data := by
  have hclient {fiveTuple : FiveTuple} {transport : ClientTransport} {datagram : Bytes}
      (hmessage : input.2 = .client fiveTuple transport datagram) (endpoint : EndpointId)
      (peer : SocketAddr) (data : Bytes) : input.2 ≠ .relayInbound endpoint peer data := by
    rw [hmessage]
    exact nofun
  have hhandled := handled setup manager input
  generalize handle setup manager input = outcome at hhandled hmem
  cases hhandled with
  | ignored => exact absurd hmem List.not_mem_nil
  | answered hmessage hanswers =>
    exact .inr ⟨Answers.plain (hanswers effect hmem), hclient hmessage⟩
  | asked hsome hasks heffects =>
    obtain ⟨_, hauthentic⟩ := hasks.authentic
    exact .inr ⟨heffects effect hmem, hclient hauthentic.message_eq⟩
  | relayed hsome hbrings =>
    obtain rfl := List.mem_singleton.mp hmem
    exact .inl ⟨_, _, _, hsome, hbrings⟩
  | reaped htick =>
    refine .inr ⟨plain_of_mem_reap hmem, fun _ _ _ ↦ ?_⟩
    rw [htick]
    exact nofun
  | allocated hauthentic =>
    exact .inr ⟨plain_reply effect hmem, hclient hauthentic.message_eq⟩

/-- Only Send indications and ChannelData send payloads to peers. -/
theorem sent_of_mem (hmem : .send endpoint peer data ∈ (handle setup manager input).1) :
    ∃ fiveTuple allocation payload, manager.allocations.lookup fiveTuple = some allocation ∧
      Brings setup fiveTuple manager input allocation payload (.send endpoint peer data) :=
  (brings_of_mem hmem).resolve_right fun h ↦ h.1

/-- A route goes to the fast path only for a peer that the policy allows. -/
theorem permits_of_installed {route : ChannelRoute}
    (hmem : .installChannel route ∈ (handle setup manager input).1) :
    setup.config.deniedPeers.permits route.peer.ip = true := by
  rcases brings_of_mem hmem with ⟨_, _, _, -, hbrings⟩ | ⟨hplain, -⟩
  · exact nomatch hbrings
  · exact hplain

/-- A datagram on a relay only goes to the client of its allocation, and only from an address with
an unexpired permission. -/
theorem delivered_of_mem (hmessage : input.2 = .relayInbound endpoint peer data) {effect : Effect}
    (hmem : effect ∈ (handle setup manager input).1) :
    ∃ fiveTuple allocation wire, manager.relayIndex.lookup endpoint = some fiveTuple ∧
      manager.allocations.lookup fiveTuple = some allocation ∧
      hasPermission allocation peer.ip input.1.now = true ∧
      setup.config.deniedPeers.permits peer.ip = true ∧
      effect = .reply allocation.transport wire := by
  rcases brings_of_mem hmem with ⟨_, _, _, hsome, hbrings⟩ | ⟨-, hnot⟩
  · cases hbrings with
    | indication hsends =>
      obtain ⟨_, _, hother⟩ := hsends.client
      exact nomatch hmessage.symm.trans hother
    | channelData hsends =>
      obtain ⟨_, _, hother⟩ := hsends.client
      exact nomatch hmessage.symm.trans hother
    | inbound hother hindex hpermission hpermits =>
      obtain ⟨rfl, rfl, -⟩ := Message.relayInbound.inj (hmessage.symm.trans hother)
      exact ⟨_, _, _, hindex, hsome, hpermission, hpermits, rfl⟩
  · exact absurd hmessage (hnot endpoint peer data)

end Effects

/-! ### What is accepted -/

section Accepted

variable {fiveTuple : FiveTuple} {allocation : Allocation} {peer : SocketAddr} {data : Bytes}

theorem handle_eq_handleMessage {request : Request}
    (hmessage : input.2 = .client request.fiveTuple request.transport request.raw)
    (hdemuxed : ∃ first, request.raw.head? = some first ∧ isChannelData first = false)
    (hparsed : parse request.raw = .ok request.message) :
    handle setup manager input = handleMessage setup input.1 manager request := by
  obtain ⟨first, hfirst, hstun⟩ := hdemuxed
  unfold handle
  rw [hmessage]
  dsimp only
  unfold handleClient
  rw [hfirst]
  dsimp only
  rw [hstun, hparsed]
  rfl

theorem handle_of_authentic {request : Request} {method : UInt16} {username : Bytes}
    (hauthentic : Authentic setup input request method username) :
    handle setup manager input = handleMessage setup input.1 manager request :=
  handle_eq_handleMessage hauthentic.message_eq hauthentic.demuxed hauthentic.parsed

/-- A request with credentials on an allocation gets past both checks. -/
theorem requireAllocation_of_authentic {request : Request} {method : UInt16} {username : Bytes}
    (hauthentic : Authentic setup input request method username)
    (hsome : manager.allocations.lookup request.fiveTuple = some allocation)
    (accepted : Bytes → Allocation → List Effect × AllocationManager) :
    ∃ key, requireAllocation setup input.1 request method manager accepted =
      accepted key allocation := by
  obtain ⟨key, hkey⟩ := hauthentic.accepted
  refine ⟨key, ?_⟩
  unfold requireAllocation requireAuth
  rw [hkey]
  rw [hsome]

/-- What is asked for with credentials is done. -/
theorem handle_of_asks {request : Request} {username : Bytes} {after : Option Allocation}
    (hsome : manager.allocations.lookup request.fiveTuple = some allocation)
    (hasks : Asks setup input request username allocation after) :
    (handle setup manager input).2 = manager.settle request.fiveTuple after := by
  obtain ⟨method, hauthentic⟩ := hasks.authentic
  rw [handle_of_authentic hauthentic]
  unfold handleMessage
  rw [hauthentic.isRequest, if_neg (by decide), if_pos rfl]
  cases hasks with
  | deletes hauthentic hzero =>
    rw [hauthentic.method_eq, if_neg (by decide), if_neg (by decide), if_pos rfl]
    unfold handleRefresh
    obtain ⟨key, hkey⟩ := requireAllocation_of_authentic hauthentic hsome _
    rw [hkey]
    rw [if_pos hzero]
    rfl
  | refreshes hauthentic hnonzero =>
    rw [hauthentic.method_eq, if_neg (by decide), if_neg (by decide), if_pos rfl]
    unfold handleRefresh
    obtain ⟨key, hkey⟩ := requireAllocation_of_authentic hauthentic hsome _
    rw [hkey]
    rw [if_neg hnonzero, settle_some hsome]
    rfl
  | permits hauthentic hnonempty hpeers =>
    have hdenied : ¬ ((xorPeerAddresses request.message).any fun peer ↦
        !setup.config.deniedPeers.permits peer.ip) = true := by
      rw [List.any_eq_true]
      rintro ⟨peer, hpeer, hnot⟩
      rw [hpeers peer hpeer] at hnot
      exact nomatch hnot
    rw [hauthentic.method_eq, if_neg (by decide), if_neg (by decide), if_neg (by decide),
      if_pos rfl]
    unfold handleCreatePermission
    obtain ⟨key, hkey⟩ := requireAllocation_of_authentic hauthentic hsome _
    rw [hkey]
    rw [if_neg hnonempty, if_neg hdenied, settle_some hsome]
  | binds hauthentic hchannel hpeer hconsistent hpermits hvalid =>
    rw [hauthentic.method_eq, if_neg (by decide), if_neg (by decide), if_neg (by decide),
      if_neg (by decide), if_pos rfl]
    unfold handleChannelBind
    obtain ⟨key, hkey⟩ := requireAllocation_of_authentic hauthentic hsome _
    rw [hkey]
    rw [hchannel, hpeer]
    dsimp only
    rw [hvalid, hconsistent, hpermits, if_neg (by decide), if_neg (by decide), settle_some hsome]

theorem relayToPeer_of_accepted (hbudget : withinBudget setup allocation data.length = true)
    (hsent : input.1.sent = true) :
    relayToPeer setup input.1 manager fiveTuple allocation peer data =
      ([.send allocation.relay.id peer data], manager.countBytes fiveTuple data) := by
  unfold relayToPeer
  rw [hbudget, hsent]
  rfl

/-- What passes the gates of an allocation is carried on. -/
theorem handle_of_brings {effect : Effect}
    (hsome : manager.allocations.lookup fiveTuple = some allocation)
    (hbrings : Brings setup fiveTuple manager input allocation data effect) :
    ∃ passed, (handle setup manager input).1 = [passed] ∧ Carries input.2 passed := by
  cases hbrings with
  | @indication peer hsends hpermission hpermits hbudget hsent =>
    obtain ⟨transport, datagram, first, message, hmessage, hfirst, hstun, hparse, hclass, hmethod,
      hpeer, hdata⟩ := hsends
    refine ⟨.send allocation.relay.id peer data, ?_, by rw [hmessage]; trivial⟩
    rw [@handle_eq_handleMessage setup manager input ⟨fiveTuple, transport, message, datagram⟩
      hmessage ⟨first, hfirst, hstun⟩ hparse]
    unfold handleMessage
    rw [if_pos hclass, if_pos hmethod]
    unfold handleSendIndication
    rw [hpeer, hdata]
    dsimp only
    rw [hpermits, hsome]
    dsimp only
    rw [hpermission, relayToPeer_of_accepted hbudget hsent]
    rfl
  | @channelData channel binding hsends hbinding hunexpired hpermits hbudget hsent =>
    obtain ⟨transport, datagram, first, hmessage, hfirst, hchannel, hparse⟩ := hsends
    refine ⟨.send allocation.relay.id binding.peer data, ?_, by rw [hmessage]; trivial⟩
    unfold handle
    rw [hmessage]
    dsimp only
    unfold handleClient
    rw [hfirst]
    dsimp only
    rw [if_pos hchannel]
    unfold handleChannelData
    rw [hparse]
    rw [hsome]
    dsimp only
    rw [hbinding]
    dsimp only
    rw [if_neg (Nat.not_le.mpr hunexpired), hpermits, relayToPeer_of_accepted hbudget hsent]
    rfl
  | inbound hmessage hindex hpermission hpermits hbudget =>
    unfold handle
    rw [hmessage]
    dsimp only
    unfold handleRelayInbound
    rw [hindex]
    dsimp only
    rw [hsome]
    dsimp only
    rw [hpermission, hpermits, hbudget, if_neg (by decide), if_neg (by decide),
      if_neg (by decide)]
    unfold deliver
    split
    · exact ⟨_, rfl, trivial⟩
    · exact ⟨_, rfl, trivial⟩

end Accepted

/-! ### Allocations after a message -/

theorem lookup_modifyAllocation (manager : AllocationManager) (fiveTuple other : FiveTuple)
    (change : Allocation → Allocation) :
    (manager.modifyAllocation fiveTuple change).allocations.lookup other =
      if other = fiveTuple then (manager.allocations.lookup other).map change
      else manager.allocations.lookup other :=
  Table.lookup_modify fiveTuple other change manager.allocations

theorem lookup_createAllocation (setup : Setup) (env : Surroundings) (request : Request)
    (manager : AllocationManager) (username key : Bytes) (relay : Endpoint) (other : FiveTuple) :
    ∃ wire, (createAllocation setup env request manager username key relay).2.allocations.lookup
      other = if other = request.fiveTuple then
        some ⟨request.transport, relay, username,
          env.now + (grantedLifetime setup.config request.message).toNat, ∅, ∅, ∅,
          some (request.message.transactionId, wire), 0⟩
      else manager.allocations.lookup other :=
  ⟨_, Table.lookup_insert_apply request.fiveTuple other _ manager.allocations⟩

theorem lookup_deleteAllocation (manager : AllocationManager) (fiveTuple other : FiveTuple) :
    (manager.deleteAllocation fiveTuple).2.allocations.lookup other =
      if other = fiveTuple then none else manager.allocations.lookup other := by
  unfold deleteAllocation
  split
  · rename_i hnone
    split_ifs with heq
    · rw [heq, hnone]
    · rfl
  · exact Table.lookup_erase_apply fiveTuple other manager.allocations

theorem lookup_settle {fiveTuple : FiveTuple} {allocation : Allocation}
    (hsome : manager.allocations.lookup fiveTuple = some allocation)
    (other : FiveTuple) (after : Option Allocation) :
    (manager.settle fiveTuple after).allocations.lookup other =
      if other = fiveTuple then after else manager.allocations.lookup other := by
  cases after with
  | none => exact lookup_deleteAllocation manager fiveTuple other
  | some next =>
    unfold settle
    rw [lookup_modifyAllocation]
    split_ifs with heq
    · rw [heq, hsome, Option.map_some]
    · rfl

/-- What is asked for with credentials is there afterwards. -/
theorem lookup_of_asks {request : Request} {username : Bytes} {allocation : Allocation}
    {after : Option Allocation}
    (hsome : manager.allocations.lookup request.fiveTuple = some allocation)
    (hasks : Asks setup input request username allocation after) :
    (handle setup manager input).2.allocations.lookup request.fiveTuple = after := by
  rw [handle_of_asks hsome hasks, lookup_settle hsome, if_pos rfl]

theorem lookup_pruned (manager : AllocationManager) (now : ℕ) (fiveTuple : FiveTuple) :
    (manager.pruned now).allocations.lookup fiveTuple =
      (manager.allocations.lookup fiveTuple).map (Allocation.prune now) :=
  Table.lookup_mapValues _ manager.allocations fiveTuple

theorem lookup_deleteAllocations (manager : AllocationManager) (fiveTuples : List FiveTuple)
    (other : FiveTuple) :
    (manager.deleteAllocations fiveTuples).2.allocations.lookup other =
      if other ∈ fiveTuples then none else manager.allocations.lookup other := by
  induction fiveTuples generalizing manager with
  | nil => simp [deleteAllocations]
  | cons first rest ih =>
    unfold deleteAllocations
    rw [ih, lookup_deleteAllocation]
    by_cases hfirst : other = first
    · simp [hfirst]
    · simp [hfirst]

theorem mem_expired {now : ℕ} {fiveTuple : FiveTuple} :
    fiveTuple ∈ manager.expired now ↔ ∃ allocation,
      manager.allocations.lookup fiveTuple = some allocation ∧ allocation.expiresAt ≤ now := by
  unfold expired
  rw [List.mem_map]
  constructor
  · rintro ⟨entry, hentry, rfl⟩
    obtain ⟨hmem, hexpired⟩ := List.mem_filter.mp hentry
    exact ⟨entry.2, AList.mem_lookup_iff.mpr hmem, of_decide_eq_true hexpired⟩
  · rintro ⟨allocation, hsome, hexpired⟩
    exact ⟨⟨fiveTuple, allocation⟩, List.mem_filter.mpr
      ⟨AList.mem_lookup_iff.mp hsome, decide_eq_true hexpired⟩, rfl⟩

/-- The reaper keeps the allocations that have not expired, pruned. -/
theorem lookup_reap (manager : AllocationManager) (now : ℕ) (fiveTuple : FiveTuple) :
    (manager.reap now).2.allocations.lookup fiveTuple =
      ((manager.allocations.lookup fiveTuple).filter fun allocation ↦
        decide (now < allocation.expiresAt)).map (Allocation.prune now) := by
  unfold reap
  rw [lookup_deleteAllocations, lookup_pruned]
  rcases hsome : manager.allocations.lookup fiveTuple with _ | allocation
  · simp
  by_cases hexpired : allocation.expiresAt ≤ now
  · rw [if_pos (mem_expired.mpr ⟨allocation, hsome, hexpired⟩),
      Option.filter_some_neg (by simp [hexpired])]
    rfl
  · rw [if_neg, Option.filter_some_pos (by simpa using hexpired)]
    intro hmem
    obtain ⟨found, hfound, hold⟩ := mem_expired.mp hmem
    exact hexpired (Option.some.inj (hsome.symm.trans hfound) ▸ hold)

end AllocationManager

end SiphonRtp.Turn
