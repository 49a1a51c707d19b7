import SiphonRtp.Turn.Changes

/-!
# What authorizes a relayed payload

Every permission and every channel of an allocation goes back to a request with credentials on the
same 5-tuple, and expires one lifetime after it (`granted_run`). Every payload to a peer is
sent on a Send indication with an unexpired permission or on an unexpired channel, and the peer is
checked against the deny policy once more. `relaying_authorized` puts these together.

A permission is for an IP: the port of the address that CreatePermission names is dropped, so a Send
indication reaches every port of the peer (`send_other_port`).
-/

set_option autoImplicit false

namespace SiphonRtp.Turn

open Machine Datapath Stun

/-- The client message is a request of a method on a 5-tuple, with credentials or without. -/
def Requests (message : Message) (fiveTuple : FiveTuple) (method : UInt16) (stun : StunMessage) :
    Prop :=
  ∃ transport datagram first, message = .client fiveTuple transport datagram ∧
    datagram.head? = some first ∧ isChannelData first = false ∧ parse datagram = .ok stun ∧
    classOf stun.messageType = classRequest ∧ methodOf stun.messageType = method

section Requests

variable {input : Surroundings × Message} {fiveTuple : FiveTuple} {method : UInt16}
  {message : StunMessage} (hrequests : Requests input.2 fiveTuple method message)

include hrequests

/-- A request with credentials is the request that the message is. -/
theorem Requests.of_authentic {setup : Setup} {request : Request} {other : UInt16}
    {username : Bytes} (hauthentic : Authentic setup input request other username) :
    request.message = message ∧ other = method := by
  obtain ⟨transport, datagram, first, hmessage, -, -, hparse, -, hmethod⟩ := hrequests
  obtain ⟨-, -, hraw⟩ := Message.client.inj (hauthentic.message_eq.symm.trans hmessage)
  have hparsed := hauthentic.parsed
  rw [hraw, hparse] at hparsed
  obtain rfl := Except.ok.inj hparsed
  exact ⟨rfl, hauthentic.method_eq.symm.trans hmethod⟩

/-- A request is no Send indication. -/
theorem Requests.not_sendsTo {tuple : FiveTuple} {peer : SocketAddr} {data : Bytes} :
    ¬ SendsTo input.2 tuple peer data := by
  rintro ⟨_, _, _, _, hother, -, -, hindication, hindicationClass, -⟩
  obtain ⟨_, _, _, hmessage, -, -, hparse, hclass, -⟩ := hrequests
  obtain ⟨-, -, rfl⟩ := Message.client.inj (hmessage.symm.trans hother)
  obtain rfl := Except.ok.inj (hparse.symm.trans hindication)
  exact absurd (hclass.symm.trans hindicationClass) (by decide)

/-- A request is no ChannelData. -/
theorem Requests.not_sendsOn {tuple : FiveTuple} {channel : UInt16} {data : Bytes} :
    ¬ SendsOn input.2 tuple channel data := by
  rintro ⟨_, _, _, hother, hhead, hchannel, -⟩
  obtain ⟨_, _, _, hmessage, hfirst, hstun, -⟩ := hrequests
  obtain ⟨-, -, rfl⟩ := Message.client.inj (hmessage.symm.trans hother)
  obtain rfl := Option.some.inj (hfirst.symm.trans hhead)
  exact Bool.false_ne_true (hstun.symm.trans hchannel)

end Requests

/-- The peers a request asks a permission for. -/
def Names (method : UInt16) (message : StunMessage) (peer : SocketAddr) : Prop :=
  (method = methodCreatePermission ∧ peer ∈ xorPeerAddresses message) ∨
    (method = methodChannelBind ∧ message.xorPeerAddress = some peer)

theorem mem_xorPeerAddresses_of_first {message : StunMessage} {peer : SocketAddr}
    (hpeer : message.xorPeerAddress = some peer) : peer ∈ xorPeerAddresses message := by
  obtain ⟨value, hvalue, hdecode⟩ := Option.bind_eq_some_iff.mp hpeer
  obtain ⟨entry, hentry, rfl⟩ := Option.map_eq_some_iff.mp hvalue
  have hkind := List.find?_some hentry
  exact List.mem_filterMap.mpr
    ⟨entry, List.mem_filter.mpr ⟨List.mem_of_find?_eq_some hentry, hkind⟩, hdecode⟩

namespace AllocationManager

/-! ### Grants -/

/-- Among the first `k` messages of a run one asks, with credentials on the 5-tuple, for a
permission that is for an IP and expires at a tick. -/
def PermissionGrant (setup : Setup) (inputs : List (Surroundings × Message)) (k : ℕ)
    (fiveTuple : FiveTuple) (ip : IpAddr) (expiry : ℕ) : Prop :=
  ∃ j input request method username peer, j < k ∧ inputs[j]? = some input ∧
    Authentic setup input request method username ∧ request.fiveTuple = fiveTuple ∧
    Names method request.message peer ∧ peer.ip = ip ∧
    expiry = input.1.now + setup.config.permissionLifetime.toNat

/-- Among the first `k` messages of a run one binds, with credentials on the 5-tuple, a channel to a
peer, for a lifetime from then. -/
def ChannelGrant (setup : Setup) (inputs : List (Surroundings × Message)) (k : ℕ)
    (fiveTuple : FiveTuple) (channel : UInt16) (binding : ChannelBinding) : Prop :=
  ∃ j input request username, j < k ∧ inputs[j]? = some input ∧
    Authentic setup input request methodChannelBind username ∧ request.fiveTuple = fiveTuple ∧
    channelNumber request.message = some channel ∧
    request.message.xorPeerAddress = some binding.peer ∧
    binding.expiresAt = input.1.now + setup.config.channelLifetime.toNat

section Grants

variable {setup : Setup} {inputs : List (Surroundings × Message)} {k : ℕ} {fiveTuple : FiveTuple}

theorem PermissionGrant.later {ip : IpAddr} {expiry : ℕ}
    (hgrant : PermissionGrant setup inputs k fiveTuple ip expiry) :
    PermissionGrant setup inputs (k + 1) fiveTuple ip expiry := by
  obtain ⟨j, input, request, method, username, peer, hjk, hrest⟩ := hgrant
  exact ⟨j, input, request, method, username, peer, Nat.lt_succ_of_lt hjk, hrest⟩

theorem ChannelGrant.later {channel : UInt16} {binding : ChannelBinding}
    (hgrant : ChannelGrant setup inputs k fiveTuple channel binding) :
    ChannelGrant setup inputs (k + 1) fiveTuple channel binding := by
  obtain ⟨j, input, request, username, hjk, hrest⟩ := hgrant
  exact ⟨j, input, request, username, Nat.lt_succ_of_lt hjk, hrest⟩

end Grants

/-- What an allocation may relay goes back to requests with credentials. -/
structure Granted (setup : Setup) (inputs : List (Surroundings × Message)) (k : ℕ)
    (fiveTuple : FiveTuple) (allocation : Allocation) : Prop where
  permissions : ∀ ip expiry, allocation.permissions.lookup ip = some expiry →
    PermissionGrant setup inputs k fiveTuple ip expiry
  channels : ∀ channel binding, allocation.channels.lookup channel = some binding →
    ChannelGrant setup inputs k fiveTuple channel binding

theorem Granted.later {setup : Setup} {inputs : List (Surroundings × Message)} {k : ℕ}
    {fiveTuple : FiveTuple} {allocation : Allocation}
    (hgranted : Granted setup inputs k fiveTuple allocation) :
    Granted setup inputs (k + 1) fiveTuple allocation where
  permissions ip expiry h := (hgranted.permissions ip expiry h).later
  channels channel binding h := (hgranted.channels channel binding h).later

section Steps

variable {setup : Setup} {inputs : List (Surroundings × Message)} {k : ℕ}
  {input : Surroundings × Message} {request : Request} {username : Bytes} {allocation : Allocation}
  (hinput : inputs[k]? = some input)

include hinput

theorem granted_permit
    (hauthentic : Authentic setup input request methodCreatePermission username)
    (hgranted : Granted setup inputs k request.fiveTuple allocation) :
    Granted setup inputs (k + 1) request.fiveTuple
      (permit (input.1.now + setup.config.permissionLifetime.toNat)
        ((xorPeerAddresses request.message).map SocketAddr.ip) allocation) where
  permissions ip expiry h := by
    rw [permit, Table.lookup_foldl_insert] at h
    split_ifs at h with hmem
    · obtain ⟨peer, hpeer, hip⟩ := List.mem_map.mp hmem
      exact ⟨k, input, request, _, username, peer, Nat.lt_succ_self k, hinput, hauthentic, rfl,
        Or.inl ⟨rfl, hpeer⟩, hip, (Option.some.inj h).symm⟩
    · exact (hgranted.permissions ip expiry h).later
  channels := hgranted.later.channels

theorem granted_bindChannel {channel : UInt16} {peer : SocketAddr}
    (hauthentic : Authentic setup input request methodChannelBind username)
    (hchannel : channelNumber request.message = some channel)
    (hpeer : request.message.xorPeerAddress = some peer)
    (hgranted : Granted setup inputs k request.fiveTuple allocation) :
    Granted setup inputs (k + 1) request.fiveTuple
      (bindChannel setup input.1 channel peer allocation) where
  permissions ip expiry h := by
    rw [bindChannel, Table.lookup_insert_apply] at h
    split_ifs at h with hip
    · exact ⟨k, input, request, _, username, peer, Nat.lt_succ_self k, hinput, hauthentic, rfl,
        Or.inr ⟨rfl, hpeer⟩, hip.symm, (Option.some.inj h).symm⟩
    · exact (hgranted.permissions ip expiry h).later
  channels number binding h := by
    rw [bindChannel, Table.lookup_insert_apply] at h
    split_ifs at h with hnumber
    · obtain rfl := Option.some.inj h
      exact ⟨k, input, request, username, Nat.lt_succ_self k, hinput, hauthentic, rfl,
        hnumber ▸ hchannel, hpeer, rfl⟩
    · exact (hgranted.channels number binding h).later

omit hinput in
theorem granted_prune {fiveTuple : FiveTuple} {now : ℕ}
    (hgranted : Granted setup inputs k fiveTuple allocation) :
    Granted setup inputs k fiveTuple (allocation.prune now) where
  permissions ip expiry h := by
    rw [Allocation.prune, Table.lookup_retain] at h
    exact hgranted.permissions ip expiry (Option.filter_eq_some_iff.mp h).1
  channels channel binding h := by
    rw [Allocation.prune, Table.lookup_retain] at h
    exact hgranted.channels channel binding (Option.filter_eq_some_iff.mp h).1

/-- A message adds no permission and no channel that it does not ask for with credentials. -/
theorem granted_of_changed {fiveTuple : FiveTuple} {before : Option Allocation} {next : Allocation}
    (hchanged : Changed setup input fiveTuple before (some next))
    (hgranted : ∀ allocation, before = some allocation →
      Granted setup inputs k fiveTuple allocation) :
    Granted setup inputs (k + 1) fiveTuple next := by
  cases hchanged with
  | kept => exact (hgranted next rfl).later
  | counted length => exact ⟨(hgranted _ rfl).later.permissions, (hgranted _ rfl).later.channels⟩
  | created hauthentic htuple => exact ⟨fun _ _ h ↦ (nomatch h), fun _ _ h ↦ (nomatch h)⟩
  | asked hasks htuple =>
    subst htuple
    cases hasks with
    | refreshes => exact ⟨(hgranted _ rfl).later.permissions, (hgranted _ rfl).later.channels⟩
    | permits hauthentic => exact granted_permit hinput hauthentic (hgranted _ rfl)
    | binds hauthentic hchannel hpeer =>
      exact granted_bindChannel hinput hauthentic hchannel hpeer (hgranted _ rfl)
  | pruned htick halive => exact (granted_prune (hgranted _ rfl)).later

end Steps

/-- Along every run the permissions and channels of the allocations go back to requests. -/
theorem granted_run (setup : Setup) (inputs : List (Surroundings × Message)) {k : ℕ}
    (hk : k ≤ inputs.length) {fiveTuple : FiveTuple} {allocation : Allocation}
    (hsome : (final (handle setup) new (inputs.take k)).allocations.lookup fiveTuple =
      some allocation) :
    Granted setup inputs k fiveTuple allocation := by
  have hstart : ∀ fiveTuple allocation, new.allocations.lookup fiveTuple = some allocation →
      Granted setup inputs 0 fiveTuple allocation := fun _ _ h ↦ (nomatch h)
  refine final_take_induction
    (fun (k : ℕ) (manager : AllocationManager) ↦ ∀ fiveTuple allocation,
      manager.allocations.lookup fiveTuple = some allocation →
        Granted setup inputs k fiveTuple allocation) hstart ?_ hk fiveTuple allocation hsome
  intro k input hinput hgranted fiveTuple next hnext
  have hchanged := changed setup (final (handle setup) new (inputs.take k)) input fiveTuple
  rw [hnext] at hchanged
  exact granted_of_changed hinput hchanged fun allocation hbefore ↦
    hgranted fiveTuple allocation hbefore

/-! ### Refused permissions -/

/-- A CreatePermission that names a denied peer changes nothing and is only answered. -/
theorem handle_of_denied {setup : Setup} {manager : AllocationManager}
    {input : Surroundings × Message} {fiveTuple : FiveTuple} {message : StunMessage}
    (hrequests : Requests input.2 fiveTuple methodCreatePermission message) {peer : SocketAddr}
    (hpeer : peer ∈ xorPeerAddresses message)
    (hdenied : setup.config.deniedPeers.permits peer.ip = false) :
    (handle setup manager input).2 = manager ∧
      ∀ effect ∈ (handle setup manager input).1, ∃ transport, Answers transport effect := by
  have hhandled := handled setup manager input
  generalize handle setup manager input = outcome at hhandled ⊢
  cases hhandled with
  | ignored => exact ⟨rfl, fun _ hmem ↦ absurd hmem List.not_mem_nil⟩
  | answered hmessage hanswers => exact ⟨rfl, fun effect hmem ↦ ⟨_, hanswers effect hmem⟩⟩
  | allocated hauthentic => exact absurd (hrequests.of_authentic hauthentic).2 (by decide)
  | asked hsome hasks =>
    cases hasks with
    | permits hauthentic hnonempty hpeers =>
      obtain ⟨rfl, -⟩ := hrequests.of_authentic hauthentic
      exact absurd (hdenied.symm.trans (hpeers peer hpeer)) Bool.false_ne_true
    | deletes hauthentic | refreshes hauthentic | binds hauthentic =>
      exact absurd (hrequests.of_authentic hauthentic).2 (by decide)
  | relayed hsome hbrings =>
    cases hbrings with
    | indication hsends => exact absurd hsends hrequests.not_sendsTo
    | channelData hsends => exact absurd hsends hrequests.not_sendsOn
    | inbound hmessage =>
      obtain ⟨_, _, _, hother, -⟩ := hrequests
      exact nomatch hmessage.symm.trans hother
  | reaped htick =>
    obtain ⟨_, _, _, hother, -⟩ := hrequests
    exact nomatch htick.symm.trans hother

/-! ### Runs -/

/-- Relaying is authorized. Assumes: a message at some position of any run from an empty server.
Each payload it sends to a peer is allowed by the policy and goes back to a request with credentials
on its 5-tuple whose lifetime is not over: one that names the IP for a Send indication, one that
binds the channel to that very address for ChannelData. Each datagram of a peer reaches a client
only with an unexpired permission on the client's allocation, and a CreatePermission that names a
denied peer changes nothing. -/
theorem relaying_authorized (setup : Setup) (inputs : List (Surroundings × Message)) {k : ℕ}
    {input : Surroundings × Message} (hinput : inputs[k]? = some input) :
    (∀ endpoint peer data,
      .send endpoint peer data ∈ (handle setup (final (handle setup) new (inputs.take k)) input).1 →
        setup.config.deniedPeers.permits peer.ip = true ∧ ∃ fiveTuple allocation,
          (final (handle setup) new (inputs.take k)).allocations.lookup fiveTuple =
            some allocation ∧ allocation.relay.id = endpoint ∧
          ((SendsTo input.2 fiveTuple peer data ∧ ∃ expiry,
            PermissionGrant setup inputs k fiveTuple peer.ip expiry ∧ input.1.now < expiry) ∨
          ∃ channel binding, SendsOn input.2 fiveTuple channel data ∧ binding.peer = peer ∧
            ChannelGrant setup inputs k fiveTuple channel binding ∧
              input.1.now < binding.expiresAt)) ∧
    (∀ endpoint peer data transport wire, input.2 = .relayInbound endpoint peer data →
      .reply transport wire ∈ (handle setup (final (handle setup) new (inputs.take k)) input).1 →
        ∃ fiveTuple allocation,
          (final (handle setup) new (inputs.take k)).relayIndex.lookup endpoint = some fiveTuple ∧
          (final (handle setup) new (inputs.take k)).allocations.lookup fiveTuple =
            some allocation ∧ allocation.transport = transport ∧
          hasPermission allocation peer.ip input.1.now = true) ∧
    ∀ fiveTuple message peer, Requests input.2 fiveTuple methodCreatePermission message →
      peer ∈ xorPeerAddresses message → setup.config.deniedPeers.permits peer.ip = false →
        (handle setup (final (handle setup) new (inputs.take k)) input).2 =
          final (handle setup) new (inputs.take k) ∧
        ∀ effect ∈ (handle setup (final (handle setup) new (inputs.take k)) input).1,
          ∃ transport, Answers transport effect := by
  obtain ⟨hlength, -⟩ := List.getElem?_eq_some_iff.mp hinput
  have hk := Nat.le_of_lt hlength
  refine ⟨fun endpoint peer data hmem ↦ ?_,
    fun endpoint peer data transport wire hmessage hmem ↦ ?_,
    fun fiveTuple message peer hrequests hpeer hdenied ↦ handle_of_denied hrequests hpeer hdenied⟩
  · obtain ⟨_, _, _, hsome, hbrings⟩ := sent_of_mem hmem
    cases hbrings with
    | indication hsends hpermission hpermits =>
      obtain ⟨expiry, hexpiry, hunexpired⟩ := (Option.any_eq_true _ _).mp hpermission
      exact ⟨hpermits, _, _, hsome, rfl, Or.inl ⟨hsends, expiry,
        (granted_run setup inputs hk hsome).permissions _ _ hexpiry, of_decide_eq_true hunexpired⟩⟩
    | channelData hsends hbinding hunexpired hpermits =>
      exact ⟨hpermits, _, _, hsome, rfl, Or.inr ⟨_, _, hsends, rfl,
        (granted_run setup inputs hk hsome).channels _ _ hbinding, hunexpired⟩⟩
  · obtain ⟨fiveTuple, allocation, _, hindex, hsome, hpermission, -, heffect⟩ :=
      delivered_of_mem hmessage hmem
    obtain ⟨rfl, -⟩ := Effect.reply.inj heffect
    exact ⟨fiveTuple, allocation, hindex, hsome, rfl, hpermission⟩

/-- A user allocates, gets a permission for a peer and sends to another port of it. -/
def openRun : List (Surroundings × Message) :=
  [(sampleEnv 0 (some ⟨7, .v4 0xC633640A 50000⟩), sampleAllocate (text "1") 600),
    (sampleEnv 5 none, samplePermit (text "1") (.v4 0xCB007109 5000)),
    (sampleEnv 10 none, sampleSend (.v4 0xCB007109 6000) [1])]

/-- The payload goes out, on a grant that has not expired. -/
theorem relaying_authorized_open :
    .send 7 (.v4 0xCB007109 6000) [1] ∈
        (handle sampleSetup (final (handle sampleSetup) new (openRun.take 2))
          (sampleEnv 10 none, sampleSend (.v4 0xCB007109 6000) [1])).1 ∧
      ∃ fiveTuple,
        (∃ expiry, PermissionGrant sampleSetup openRun 2 fiveTuple (.v4 0xCB007109) expiry ∧
          10 < expiry) ∨
        ∃ channel binding, ChannelGrant sampleSetup openRun 2 fiveTuple channel binding ∧
          10 < binding.expiresAt := by
  have hsend : .send 7 (.v4 0xCB007109 6000) [1] ∈
      (handle sampleSetup (final (handle sampleSetup) new (openRun.take 2))
        (sampleEnv 10 none, sampleSend (.v4 0xCB007109 6000) [1])).1 := by
    decide +kernel
  have hauthorized := @relaying_authorized sampleSetup openRun 2 _ rfl
  obtain ⟨-, fiveTuple, allocation, -, -, hgrant⟩ := hauthorized.1 7 _ [1] hsend
  refine ⟨hsend, fiveTuple, ?_⟩
  rcases hgrant with ⟨-, expiry, hgrant, hlater⟩ | ⟨channel, binding, -, -, hgrant, hlater⟩
  · exact Or.inl ⟨expiry, hgrant, hlater⟩
  · exact Or.inr ⟨channel, binding, hgrant, hlater⟩

/-- The addresses a client request carries. -/
def requestedPeers : Message → List SocketAddr
  | .client _ _ datagram =>
    match parse datagram with
    | .ok message =>
      if classOf message.messageType = classRequest then xorPeerAddresses message else []
    | .error _ => []
  | _ => []

theorem mem_requestedPeers {setup : Setup} {input : Surroundings × Message} {request : Request}
    {method : UInt16} {username : Bytes} {peer : SocketAddr}
    (hauthentic : Authentic setup input request method username)
    (hnames : Names method request.message peer) : peer ∈ requestedPeers input.2 := by
  rw [hauthentic.message_eq]
  unfold requestedPeers
  dsimp only
  rw [hauthentic.parsed]
  dsimp only
  rw [if_pos hauthentic.isRequest]
  rcases hnames with ⟨-, hmem⟩ | ⟨-, hpeer⟩
  · exact hmem
  · exact mem_xorPeerAddresses_of_first hpeer

/-- The address the payload goes to was never named: the permission is for another port of it. -/
theorem send_other_port :
    (handle sampleSetup (final (handle sampleSetup) new (openRun.take 2))
        (sampleEnv 10 none, sampleSend (.v4 0xCB007109 6000) [1])).1 =
          [.send 7 (.v4 0xCB007109 6000) [1]] ∧
      ¬ ∃ input request method username, input ∈ openRun ∧
        Authentic sampleSetup input request method username ∧
          Names method request.message (.v4 0xCB007109 6000) := by
  have hunnamed : ∀ input ∈ openRun,
      SocketAddr.v4 0xCB007109 6000 ∉ requestedPeers input.2 := by
    decide +kernel
  refine ⟨by decide +kernel, ?_⟩
  rintro ⟨input, request, method, username, hinput, hauthentic, hnames⟩
  exact hunnamed input hinput (mem_requestedPeers hauthentic hnames)

end AllocationManager

end SiphonRtp.Turn
