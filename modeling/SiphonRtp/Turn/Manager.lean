import SiphonRtp.Machine.Table
import SiphonRtp.Turn.Credentials

/-!
# The allocation manager of the TURN server

`siphon-rtp-turn/src/manager.rs`: the actor that owns every allocation. A message is a datagram of a
client, a datagram of a peer on a relay endpoint, or the tick of the reaper, and `handle` is what
the actor does with one: the next tables, and the effects outside it in their order.

What the actor reads from outside while it handles a message is `Surroundings`: the two clocks, once
each, and the answers of the datapath. Ticks are natural numbers. The tables are association lists
(`Machine/Table.lean`); the order of their entries, which decides only in which order the reaper
works, is not the source's.
-/

set_option autoImplicit false

namespace SiphonRtp.Turn

open Machine Datapath Stun

/-! ### State -/

structure ChannelBinding where
  peer : SocketAddr
  expiresAt : ℕ
deriving DecidableEq

structure Allocation where
  transport : ClientTransport
  relay : Endpoint
  username : Bytes
  expiresAt : ℕ
  /-- The tick each permitted address expires at. -/
  permissions : Table IpAddr ℕ
  channels : Table UInt16 ChannelBinding
  peerToChannel : Table SocketAddr UInt16
  /-- The last Allocate and its answer, for a retransmission. -/
  lastAllocate : Option (TransactionId × Bytes)
  bytesRelayed : ℕ

/-- A bound channel as the fast path relays it. -/
structure ChannelRoute where
  channel : UInt16
  client : SocketAddr
  listener : SocketAddr
  peer : SocketAddr
  relay : SocketAddr
deriving DecidableEq

structure AllocationManager where
  allocations : Table FiveTuple Allocation
  relayIndex : Table EndpointId FiveTuple
  quota : Table Bytes ℕ
  indicationCounter : UInt64

/-- What stays fixed while the actor runs. -/
structure Setup where
  crypto : Crypto
  config : TurnConfig
  nonce : NonceFactory

/-- What the actor reads from outside for one message. -/
structure Surroundings where
  now : ℕ
  unixNow : ℕ
  /-- The answer of `alloc_endpoint`. -/
  endpoint : Option Endpoint
  /-- Whether `install_flow` succeeds. -/
  flowInstalled : Bool
  /-- Whether `Datapath::send` succeeds. -/
  sent : Bool

inductive Message
  | client (fiveTuple : FiveTuple) (transport : ClientTransport) (datagram : Bytes)
  | relayInbound (endpoint : EndpointId) (peer : SocketAddr) (data : Bytes)
  | tick

/-- What the actor does outside its tables. A send that fails has no effect. -/
inductive Effect
  | reply (transport : ClientTransport) (message : Bytes)
  | send (endpoint : EndpointId) (peer : SocketAddr) (data : Bytes)
  | removeEndpoint (endpoint : EndpointId)
  | installChannel (route : ChannelRoute)
  | removeChannel (route : ChannelRoute)
deriving DecidableEq

/-- A request as a handler gets it. -/
structure Request where
  fiveTuple : FiveTuple
  transport : ClientTransport
  message : StunMessage
  raw : Bytes

/-- `CredentialVerifier::new` with the configured secret and realm. -/
def Setup.verifier (setup : Setup) : CredentialVerifier :=
  ⟨setup.config.staticAuthSecret, setup.config.realm⟩

/-! ### Answers -/

/-- `message_builder`. -/
def messageBuilder (setup : Setup) (messageType : UInt16) (id : TransactionId) : MessageBuilder :=
  match setup.config.software with
  | some software => (MessageBuilder.new messageType id).attribute attrSoftware software
  | none => MessageBuilder.new messageType id

/-- `send_error`. -/
def sendError (setup : Setup) (request : Request) (method code : UInt16) (reason : String)
    (key : Bytes) : Effect :=
  let id := request.message.transactionId
  .reply request.transport (((messageBuilder setup (messageTypeOf method classError) id).attribute
    attrErrorCode (errorCodeValue code (text reason))).finish setup.crypto.toDigests (some key)
      setup.config.includeFingerprint)

/-- `send_challenge`. -/
def sendChallenge (setup : Setup) (env : Surroundings) (request : Request) (method code : UInt16)
    (reason : String) : Effect :=
  let id := request.message.transactionId
  let nonce := setup.nonce.issue setup.crypto request.fiveTuple.client env.now
  .reply request.transport (((((messageBuilder setup (messageTypeOf method classError)
    id).attribute attrErrorCode (errorCodeValue code (text reason))).attribute attrRealm
      setup.config.realm).attribute attrNonce nonce).finish setup.crypto.toDigests none
        setup.config.includeFingerprint)

/-- A signed success response. -/
def sendSuccess (setup : Setup) (request : Request) (method : UInt16) (attributes : List Attribute)
    (key : Bytes) : Bytes :=
  let id := request.message.transactionId
  (attributes.foldl (fun builder entry ↦ MessageBuilder.attribute builder entry.1 entry.2)
    (messageBuilder setup (messageTypeOf method classSuccess) id)).finish setup.crypto.toDigests
      (some key) setup.config.includeFingerprint

/-- The credentials of a request. -/
def authenticate (setup : Setup) (env : Surroundings) (request : Request) : AuthResult :=
  setup.verifier.authenticate setup.crypto request.message request.raw env.unixNow setup.nonce
    env.now request.fiveTuple.client

namespace AllocationManager

/-- `require_auth`: the rest of a handler for a request that authenticates, the challenge for one
that does not. -/
def requireAuth (setup : Setup) (env : Surroundings) (request : Request) (method : UInt16)
    (manager : AllocationManager)
    (accepted : Bytes → Bytes → List Effect × AllocationManager) :
    List Effect × AllocationManager :=
  match authenticate setup env request with
  | .ok username key => accepted username key
  | .unauthorized =>
    ([sendChallenge setup env request method errorUnauthorized "Unauthorized"], manager)
  | .staleNonce =>
    ([sendChallenge setup env request method errorStaleNonce "Stale Nonce"], manager)

end AllocationManager

/-! ### Deletion -/

/-- The route of a channel of an allocation. -/
def Allocation.route (allocation : Allocation) (fiveTuple : FiveTuple) (channel : UInt16)
    (peer : SocketAddr) : ChannelRoute :=
  ⟨channel, fiveTuple.client, fiveTuple.server, peer, allocation.relay.localAddr⟩

/-- The routes of an allocation: only UDP clients have any. -/
def Allocation.routes (allocation : Allocation) (fiveTuple : FiveTuple) : List ChannelRoute :=
  if fiveTuple.transport = .udp then
    allocation.channels.entries.map fun entry ↦
      allocation.route fiveTuple entry.1 entry.2.peer
  else []

namespace AllocationManager

/-- One slot of a user's quota given back; a count that reaches zero is removed. -/
def releaseQuota (quota : Table Bytes ℕ) (username : Bytes) : Table Bytes ℕ :=
  match quota.lookup username with
  | some count =>
    if count - 1 = 0 then quota.erase username else quota.insert username (count - 1)
  | none => quota

/-- `delete_allocation`. -/
def deleteAllocation (manager : AllocationManager) (fiveTuple : FiveTuple) :
    List Effect × AllocationManager :=
  match manager.allocations.lookup fiveTuple with
  | none => ([], manager)
  | some allocation =>
    (.removeEndpoint allocation.relay.id :: (allocation.routes fiveTuple).map .removeChannel,
      { manager with
        allocations := manager.allocations.erase fiveTuple
        relayIndex := manager.relayIndex.erase allocation.relay.id
        quota := releaseQuota manager.quota allocation.username })

/-! ### Requests -/

/-- `handle_binding`. -/
def handleBinding (setup : Setup) (request : Request) : Effect :=
  .reply request.transport (bindingSuccessResponse setup.crypto.toDigests
    request.message.transactionId request.fiveTuple.client none)

/-- `SocketAddr::new`. -/
def socketAddr (ip : IpAddr) (port : UInt16) : SocketAddr :=
  match ip with
  | .v4 ip => .v4 ip port
  | .v6 ip => .v6 ip port 0 0

/-- `advertised_relay_address`. -/
def advertisedRelayAddress (setup : Setup) (relay : Endpoint) : SocketAddr :=
  match setup.config.relayAddress with
  | some ip => socketAddr ip (SocketAddr.port relay.localAddr)
  | none => relay.localAddr

/-- The granted part of a requested lifetime, at least one second. -/
def clampLifetime (config : TurnConfig) (requested : UInt32) : UInt32 :=
  max (min requested config.maxLifetime) 1

/-- `granted_lifetime`. -/
def grantedLifetime (config : TurnConfig) (message : StunMessage) : UInt32 :=
  clampLifetime config ((lifetime message).getD config.defaultLifetime)

/-- The end of `handle_allocate`: the new allocation in the three tables, and the answer that is
kept for a retransmission. -/
def createAllocation (setup : Setup) (env : Surroundings) (request : Request)
    (manager : AllocationManager) (username key : Bytes) (relay : Endpoint) :
    List Effect × AllocationManager :=
  let id := request.message.transactionId
  let lifetime := grantedLifetime setup.config request.message
  let response := sendSuccess setup request methodAllocate
    [(attrXorRelayedAddress, encodeXorMappedAddress (advertisedRelayAddress setup relay) id),
      (attrLifetime, lifetimeValue lifetime),
      (attrXorMappedAddress, encodeXorMappedAddress request.fiveTuple.client id)] key
  ([.reply request.transport response],
    { manager with
      relayIndex := manager.relayIndex.insert relay.id request.fiveTuple
      allocations := manager.allocations.insert request.fiveTuple
        { transport := request.transport
          relay := relay
          username := username
          expiresAt := env.now + lifetime.toNat
          permissions := ∅
          channels := ∅
          peerToChannel := ∅
          lastAllocate := some (id, response)
          bytesRelayed := 0 }
      quota := manager.quota.insert username ((manager.quota.lookup username).getD 0 + 1) })

/-- `handle_allocate`. -/
def handleAllocate (setup : Setup) (env : Surroundings) (request : Request)
    (manager : AllocationManager) : List Effect × AllocationManager :=
  requireAuth setup env request methodAllocate manager fun username key ↦
    let error := fun code reason ↦ sendError setup request methodAllocate code reason key
    match manager.allocations.lookup request.fiveTuple with
    | some existing =>
      match existing.lastAllocate with
      | some (cachedId, cached) =>
        if cachedId = request.message.transactionId then
          ([.reply request.transport cached], manager)
        else ([error errorAllocationMismatch "Allocation Mismatch"], manager)
      | none => ([error errorAllocationMismatch "Allocation Mismatch"], manager)
    | none =>
      if requestedTransport request.message ≠ some transportUdp then
        ([error errorUnsupportedTransport "Unsupported Transport Protocol"], manager)
      else if hasEvenPort request.message ∨ hasReservationToken request.message then
        ([error errorInsufficientCapacity "Insufficient Capacity"], manager)
      else if setup.config.maxAllocationsPerUser ≤ (manager.quota.lookup username).getD 0 then
        ([error errorAllocationQuotaReached "Allocation Quota Reached"], manager)
      else
        match env.endpoint with
        | none => ([error errorInsufficientCapacity "Insufficient Capacity"], manager)
        | some relay =>
          if env.flowInstalled = false then
            ([.removeEndpoint relay.id, error errorInsufficientCapacity "Insufficient Capacity"],
              manager)
          else createAllocation setup env request manager username key relay

/-- A request on an allocation: the rest of its handler, or `437` when there is none. -/
def requireAllocation (setup : Setup) (env : Surroundings) (request : Request) (method : UInt16)
    (manager : AllocationManager)
    (accepted : Bytes → Allocation → List Effect × AllocationManager) :
    List Effect × AllocationManager :=
  requireAuth setup env request method manager fun _ key ↦
    match manager.allocations.lookup request.fiveTuple with
    | none =>
      ([sendError setup request method errorAllocationMismatch "Allocation Mismatch" key], manager)
    | some allocation => accepted key allocation

/-- An allocation of the table changed. -/
def modifyAllocation (manager : AllocationManager) (fiveTuple : FiveTuple)
    (change : Allocation → Allocation) : AllocationManager :=
  { manager with allocations := Table.modify fiveTuple change manager.allocations }

/-- What Refresh does to its allocation. -/
def extend (expiry : ℕ) (allocation : Allocation) : Allocation :=
  { allocation with expiresAt := expiry }

/-- `handle_refresh`: a lifetime of zero deletes. -/
def handleRefresh (setup : Setup) (env : Surroundings) (request : Request)
    (manager : AllocationManager) : List Effect × AllocationManager :=
  requireAllocation setup env request methodRefresh manager fun key _ ↦
    let requested := (lifetime request.message).getD setup.config.defaultLifetime
    let response := fun granted ↦ Effect.reply request.transport
      (sendSuccess setup request methodRefresh [(attrLifetime, lifetimeValue granted)] key)
    if requested = 0 then
      let deleted := manager.deleteAllocation request.fiveTuple
      (deleted.1 ++ [response 0], deleted.2)
    else
      let granted := clampLifetime setup.config requested
      ([response granted],
        manager.modifyAllocation request.fiveTuple (extend (env.now + granted.toNat)))

/-- What CreatePermission does to its allocation. -/
def permit (expiry : ℕ) (ips : List IpAddr) (allocation : Allocation) : Allocation :=
  { allocation with
    permissions := ips.foldl (fun permissions ip ↦ permissions.insert ip expiry)
      allocation.permissions }

/-- `handle_create_permission`: one denied peer rejects the whole request. -/
def handleCreatePermission (setup : Setup) (env : Surroundings) (request : Request)
    (manager : AllocationManager) : List Effect × AllocationManager :=
  requireAllocation setup env request methodCreatePermission manager fun key _ ↦
    let error := fun code reason ↦ sendError setup request methodCreatePermission code reason key
    let peers := xorPeerAddresses request.message
    if peers = [] then ([error errorBadRequest "Bad Request"], manager)
    else if peers.any fun peer ↦ !setup.config.deniedPeers.permits peer.ip then
      ([error errorForbidden "Forbidden"], manager)
    else
      let expiry := env.now + setup.config.permissionLifetime.toNat
      ([.reply request.transport (sendSuccess setup request methodCreatePermission [] key)],
        manager.modifyAllocation request.fiveTuple (permit expiry (peers.map SocketAddr.ip)))

/-- What ChannelBind does to its allocation: the channel both ways, and a permission. -/
def bindChannel (setup : Setup) (env : Surroundings) (channel : UInt16) (peer : SocketAddr)
    (allocation : Allocation) : Allocation :=
  { allocation with
    channels := allocation.channels.insert channel
      ⟨peer, env.now + setup.config.channelLifetime.toNat⟩
    peerToChannel := allocation.peerToChannel.insert peer channel
    permissions := allocation.permissions.insert peer.ip
      (env.now + setup.config.permissionLifetime.toNat) }

/-- A channel keeps its peer and a peer its channel. -/
def consistent (allocation : Allocation) (channel : UInt16) (peer : SocketAddr) : Bool :=
  ((allocation.channels.lookup channel).all fun binding ↦ decide (binding.peer = peer)) &&
    (allocation.peerToChannel.lookup peer).all fun bound ↦ decide (bound = channel)

/-- `handle_channel_bind`. -/
def handleChannelBind (setup : Setup) (env : Surroundings) (request : Request)
    (manager : AllocationManager) : List Effect × AllocationManager :=
  requireAllocation setup env request methodChannelBind manager fun key allocation ↦
    let error := fun code reason ↦ sendError setup request methodChannelBind code reason key
    match channelNumber request.message, request.message.xorPeerAddress with
    | some channel, some peer =>
      if validChannelNumber channel = false ∨ consistent allocation channel peer = false then
        ([error errorBadRequest "Bad Request"], manager)
      else if setup.config.deniedPeers.permits peer.ip = false then
        ([error errorForbidden "Forbidden"], manager)
      else
        ((if request.fiveTuple.transport = .udp then
            [.installChannel (allocation.route request.fiveTuple channel peer)] else []) ++
          [.reply request.transport (sendSuccess setup request methodChannelBind [] key)],
          manager.modifyAllocation request.fiveTuple (bindChannel setup env channel peer))
    | _, _ => ([error errorBadRequest "Bad Request"], manager)

/-! ### Data -/

/-- Whether an address has an unexpired permission. -/
def hasPermission (allocation : Allocation) (ip : IpAddr) (now : ℕ) : Bool :=
  (allocation.permissions.lookup ip).any fun expiry ↦ decide (now < expiry)

/-- `within_budget`, for an allocation of the table. The sum is one of `u64`. -/
def withinBudget (setup : Setup) (allocation : Allocation) (additional : ℕ) : Bool :=
  setup.config.maxBytesPerAllocation.all fun cap ↦
    decide ((allocation.bytesRelayed + additional) % 2 ^ 64 ≤ cap)

/-- What a relayed payload does to its allocation. -/
def addBytes (length : ℕ) (allocation : Allocation) : Allocation :=
  { allocation with bytesRelayed := (allocation.bytesRelayed + length) % 2 ^ 64 }

/-- The payload of a datagram counted. -/
def countBytes (manager : AllocationManager) (fiveTuple : FiveTuple) (data : Bytes) :
    AllocationManager :=
  manager.modifyAllocation fiveTuple (addBytes data.length)

/-- `relay_to_peer`. -/
def relayToPeer (setup : Setup) (env : Surroundings) (manager : AllocationManager)
    (fiveTuple : FiveTuple) (allocation : Allocation) (peer : SocketAddr) (data : Bytes) :
    List Effect × AllocationManager :=
  if withinBudget setup allocation data.length = false then ([], manager)
  else if env.sent = false then ([], manager)
  else ([.send allocation.relay.id peer data], manager.countBytes fiveTuple data)

/-- `handle_send_indication`. -/
def handleSendIndication (setup : Setup) (env : Surroundings) (manager : AllocationManager)
    (fiveTuple : FiveTuple) (message : StunMessage) : List Effect × AllocationManager :=
  match message.xorPeerAddress, message.data with
  | some peer, some data =>
    if setup.config.deniedPeers.permits peer.ip = false then ([], manager)
    else
      match manager.allocations.lookup fiveTuple with
      | none => ([], manager)
      | some allocation =>
        if hasPermission allocation peer.ip env.now = false then ([], manager)
        else relayToPeer setup env manager fiveTuple allocation peer data
  | _, _ => ([], manager)

/-- `handle_channel_data`. -/
def handleChannelData (setup : Setup) (env : Surroundings) (manager : AllocationManager)
    (fiveTuple : FiveTuple) (datagram : Bytes) : List Effect × AllocationManager :=
  match parseChannelData datagram with
  | none => ([], manager)
  | some channelData =>
    match manager.allocations.lookup fiveTuple with
    | none => ([], manager)
    | some allocation =>
      match allocation.channels.lookup channelData.channel with
      | none => ([], manager)
      | some binding =>
        if binding.expiresAt ≤ env.now then ([], manager)
        else if setup.config.deniedPeers.permits binding.peer.ip = false then ([], manager)
        else relayToPeer setup env manager fiveTuple allocation binding.peer channelData.data

/-- `next_indication_txid`: four zero octets and the counter. -/
def indicationId (counter : UInt64) : TransactionId :=
  Vector.ofFn fun position ↦ octet (toBe 4 0 ++ toBe 8 counter.toNat) position

/-- The channel a peer's datagram is framed with: its bound channel, unless it has expired. -/
def frameChannel (allocation : Allocation) (peer : SocketAddr) (now : ℕ) : Option UInt16 :=
  (allocation.peerToChannel.lookup peer).filter fun channel ↦
    (allocation.channels.lookup channel).any fun binding ↦ decide (now < binding.expiresAt)

/-- The end of `handle_relay_inbound`: the payload framed for the client, and counted. -/
def deliver (setup : Setup) (env : Surroundings) (manager : AllocationManager)
    (fiveTuple : FiveTuple) (allocation : Allocation) (peer : SocketAddr) (data : Bytes) :
    List Effect × AllocationManager :=
  match frameChannel allocation peer env.now with
  | some channel =>
    ([.reply allocation.transport
        (encodeChannelData channel data allocation.transport.isStream)],
      manager.countBytes fiveTuple data)
  | none =>
    let counter := manager.indicationCounter + 1
    ([.reply allocation.transport
        (indication setup.crypto.toDigests methodData (indicationId counter) peer data)],
      countBytes { manager with indicationCounter := counter } fiveTuple data)

/-- `handle_relay_inbound`. -/
def handleRelayInbound (setup : Setup) (env : Surroundings) (manager : AllocationManager)
    (endpoint : EndpointId) (peer : SocketAddr) (data : Bytes) :
    List Effect × AllocationManager :=
  match manager.relayIndex.lookup endpoint with
  | none => ([], manager)
  | some fiveTuple =>
    match manager.allocations.lookup fiveTuple with
    | none => ([], manager)
    | some allocation =>
      if hasPermission allocation peer.ip env.now = false then ([], manager)
      else if setup.config.deniedPeers.permits peer.ip = false then ([], manager)
      else if withinBudget setup allocation data.length = false then ([], manager)
      else deliver setup env manager fiveTuple allocation peer data

end AllocationManager

/-! ### The reaper -/

/-- The channels of an allocation that have expired. -/
def Allocation.dead (allocation : Allocation) (now : ℕ) : List (UInt16 × ChannelBinding) :=
  (allocation.channels.entries.filter fun entry ↦ decide (entry.2.expiresAt ≤ now)).map
    fun entry ↦ (entry.1, entry.2)

/-- One turn of the loop of `reap`: expired permissions and channels go. -/
def Allocation.prune (now : ℕ) (allocation : Allocation) : Allocation :=
  { allocation with
    permissions := Table.retain (fun _ expiry ↦ decide (now < expiry)) allocation.permissions
    channels := Table.retain (fun _ binding ↦ decide (now < binding.expiresAt)) allocation.channels
    peerToChannel := ((allocation.dead now).map fun entry ↦ entry.2.peer).foldl
      (fun table peer ↦ table.erase peer) allocation.peerToChannel }

/-- The routes that go with the expired channels. -/
def Allocation.withdrawn (now : ℕ) (fiveTuple : FiveTuple) (allocation : Allocation) :
    List ChannelRoute :=
  if fiveTuple.transport = .udp then
    (allocation.dead now).map fun entry ↦ allocation.route fiveTuple entry.1 entry.2.peer
  else []

namespace AllocationManager

/-- The deletions of `reap`. -/
def deleteAllocations (manager : AllocationManager) :
    List FiveTuple → List Effect × AllocationManager
  | [] => ([], manager)
  | fiveTuple :: rest =>
    let deleted := manager.deleteAllocation fiveTuple
    let later := deleted.2.deleteAllocations rest
    (deleted.1 ++ later.1, later.2)

/-- The allocations that have expired. -/
def expired (manager : AllocationManager) (now : ℕ) : List FiveTuple :=
  (manager.allocations.entries.filter fun entry ↦ decide (entry.2.expiresAt ≤ now)).map (·.1)

/-- The first loop of `reap`. -/
def pruned (manager : AllocationManager) (now : ℕ) : AllocationManager :=
  { manager with allocations := Table.mapValues (fun _ ↦ Allocation.prune now) manager.allocations }

/-- `reap`. -/
def reap (manager : AllocationManager) (now : ℕ) : List Effect × AllocationManager :=
  let withdrawn := manager.allocations.entries.flatMap fun entry ↦ entry.2.withdrawn now entry.1
  let deleted := (manager.pruned now).deleteAllocations (manager.expired now)
  (withdrawn.map .removeChannel ++ deleted.1, deleted.2)

/-! ### Runs -/

/-- `AllocationManager::new`. -/
def new : AllocationManager where
  allocations := ∅
  relayIndex := ∅
  quota := ∅
  indicationCounter := 0

/-- The dispatch of `handle_client` on a parsed message. -/
def handleMessage (setup : Setup) (env : Surroundings) (manager : AllocationManager)
    (request : Request) : List Effect × AllocationManager :=
  let method := methodOf request.message.messageType
  let class_ := classOf request.message.messageType
  if class_ = classIndication then
    if method = methodSend then
      handleSendIndication setup env manager request.fiveTuple request.message
    else ([], manager)
  else if class_ = classRequest then
    if method = methodBinding then ([handleBinding setup request], manager)
    else if method = methodAllocate then handleAllocate setup env request manager
    else if method = methodRefresh then handleRefresh setup env request manager
    else if method = methodCreatePermission then handleCreatePermission setup env request manager
    else if method = methodChannelBind then handleChannelBind setup env request manager
    else ([], manager)
  else ([], manager)

/-- `handle_client`. -/
def handleClient (setup : Setup) (env : Surroundings) (manager : AllocationManager)
    (fiveTuple : FiveTuple) (transport : ClientTransport) (datagram : Bytes) :
    List Effect × AllocationManager :=
  match datagram.head? with
  | none => ([], manager)
  | some first =>
    if isChannelData first then handleChannelData setup env manager fiveTuple datagram
    else
      match parse datagram with
      | .error _ => ([], manager)
      | .ok message => handleMessage setup env manager ⟨fiveTuple, transport, message, datagram⟩

/-- One message of the mailbox. -/
def handle (setup : Setup) (manager : AllocationManager) (input : Surroundings × Message) :
    List Effect × AllocationManager :=
  match input.2 with
  | .client fiveTuple transport datagram =>
    handleClient setup input.1 manager fiveTuple transport datagram
  | .relayInbound endpoint peer data => handleRelayInbound setup input.1 manager endpoint peer data
  | .tick => manager.reap input.1.now

end AllocationManager

/-! ### A server for given octets -/

/-- A server with the default policy and lifetimes. -/
def sampleSetup : Setup where
  crypto := zeroCrypto
  config := TurnConfig.new (text "r") [] (text "s")
  nonce := ⟨[], 3600⟩

/-- The UDP client of the runs below. -/
def sampleTuple : FiveTuple := ⟨.v4 0xC6336414 40000, .v4 0xC633640A 3478, .udp⟩

/-- A signed request of a user. -/
def sampleRequest (username : Bytes) (method : UInt16) (attributes : List Attribute) : Message :=
  let id : TransactionId := Vector.replicate 12 0
  .client sampleTuple (.udp sampleTuple.client)
    (((attributes ++ [(attrUsername, username), (attrRealm, text "r"),
      (attrNonce, sampleSetup.nonce.issue zeroCrypto sampleTuple.client 0)]).foldl
        (fun builder entry ↦ MessageBuilder.attribute builder entry.1 entry.2)
        (MessageBuilder.new (messageTypeOf method classRequest) id)).finish zeroDigests
          (some (sampleSetup.verifier.key zeroCrypto username)) false)

/-- An Allocate for a lifetime. -/
def sampleAllocate (username : Bytes) (seconds : UInt32) : Message :=
  sampleRequest username methodAllocate
    [(attrRequestedTransport, requestedTransportValue transportUdp),
      (attrLifetime, lifetimeValue seconds)]

/-- A ChannelBind. -/
def sampleBind (username : Bytes) (channel : UInt16) (peer : SocketAddr) : Message :=
  sampleRequest username methodChannelBind
    [(attrChannelNumber, channelNumberValue channel),
      (attrXorPeerAddress, encodeXorMappedAddress peer (Vector.replicate 12 0))]

/-- A CreatePermission. -/
def samplePermit (username : Bytes) (peer : SocketAddr) : Message :=
  sampleRequest username methodCreatePermission
    [(attrXorPeerAddress, encodeXorMappedAddress peer (Vector.replicate 12 0))]

/-- A Send indication. -/
def sampleSend (peer : SocketAddr) (data : Bytes) : Message :=
  let id : TransactionId := Vector.replicate 12 0
  .client sampleTuple (.udp sampleTuple.client)
    ((((MessageBuilder.new (messageTypeOf methodSend classIndication) id).attribute
      attrXorPeerAddress (encodeXorMappedAddress peer id)).attribute attrData data).finish
        zeroDigests none false)

/-- The clocks at a tick, and a datapath that hands out the given endpoint. -/
def sampleEnv (now : ℕ) (endpoint : Option Endpoint) : Surroundings :=
  ⟨now, 0, endpoint, true, true⟩

end SiphonRtp.Turn
