import SiphonRtp.Stun.Turn

/-!
# The TURN seam of the UDP backend

`relay_unwrap` and `relay_egress` of `siphon-rtp-datapath/src/udp_relay.rs`: what a relaying
endpoint makes of a datagram before any other layer sees it, and how it frames what leaves for a
peer behind the allocation. `serverUnwrap` is the other end, the demux and parsers of the TURN
server in `siphon-rtp-turn/src/manager.rs`.

`relayed_media_attributed`: a payload is attributed to a peer other than the sender of the datagram
only on the word of the allocation's server, what the server wraps is delivered as it was, and what
is wrapped for a peer reaches the server's parsers as the same payload for the same peer.
-/

set_option autoImplicit false

namespace SiphonRtp.Datapath

open Machine Stun

/-! ### The allocation -/

/-- What carries the leg to the TURN server. -/
inductive TurnCarrier
  | udp
  | stream
deriving DecidableEq

/-- A live TURN allocation of an endpoint. -/
structure TurnRelay where
  carrier : TurnCarrier
  server : SocketAddr
  channels : List (SocketAddr × UInt16)
  permitted : List SocketAddr
deriving DecidableEq

/-- The channel bound for a peer. -/
def TurnRelay.channelFor (relay : TurnRelay) (peer : SocketAddr) : Option UInt16 :=
  (relay.channels.find? fun binding ↦ binding.1 == peer).map (·.2)

/-- The peer a channel is bound to. -/
def TurnRelay.peerForChannel (relay : TurnRelay) (channel : UInt16) : Option SocketAddr :=
  (relay.channels.find? fun binding ↦ binding.2 == channel).map (·.1)

/-- Whether the server relays the traffic of a peer. -/
def TurnRelay.isPermitted (relay : TurnRelay) (peer : SocketAddr) : Bool :=
  relay.permitted.contains peer || (relay.channelFor peer).isSome

/-! ### Ingress -/

/-- What the de-encapsulation decides about a datagram. -/
inductive RelayIngress
  | direct
  | unwrapped (start stop : ℕ) (peer : SocketAddr)
  | indication (payload : Bytes) (peer : SocketAddr)
  | drop
deriving DecidableEq

def isDataIndication (datagram : Bytes) : Bool :=
  decide (20 ≤ datagram.length ∧ readU16 datagram 0 = messageTypeOf methodData classIndication)

def unwrapDataIndication (relay : TurnRelay) (datagram : Bytes) : RelayIngress :=
  match parse datagram with
  | .error _ => .drop
  | .ok message =>
    match message.peerData with
    | none => .drop
    | some (peer, payload) =>
      if relay.isPermitted peer = false then .drop else .indication payload peer

/-- `relay_unwrap`. -/
def relayUnwrap (relay : Option TurnRelay) (source : SocketAddr) (datagram : Bytes) :
    RelayIngress :=
  match relay with
  | none => .direct
  | some relay =>
    if source ≠ relay.server then .direct
    else match datagram.head? with
      | none => .direct
      | some first =>
        if isChannelData first = false then
          if isDataIndication datagram then unwrapDataIndication relay datagram else .direct
        else match parseChannelData datagram with
          | none => .drop
          | some message =>
            match relay.peerForChannel message.channel with
            | none => .drop
            | some peer => .unwrapped 4 (4 + message.data.length) peer

/-- The source and payload that the layers above see, none for a dropped datagram: the head of
`Inner::receive`. -/
def unwrapped (relay : Option TurnRelay) (source : SocketAddr) (datagram : Bytes) :
    Option (SocketAddr × Bytes) :=
  match relayUnwrap relay source datagram with
  | .direct => some (source, datagram)
  | .unwrapped start stop peer => some (peer, (datagram.drop start).take (stop - start))
  | .indication payload peer => some (peer, payload)
  | .drop => none

/-! ### Egress -/

/-- How a datagram leaves a relaying endpoint. -/
inductive RelayEgress
  | direct
  | wrapped (wire : Bytes) (server : SocketAddr) (carrier : TurnCarrier)
  | unavailable
deriving DecidableEq

/-- `relay_egress`. The transaction id of a Send indication is drawn from the system and may not be
there. -/
def relayEgress (digests : Digests) (relay : TurnRelay) (dst : SocketAddr) (payload : Bytes)
    (draw : Option TransactionId) : RelayEgress :=
  match relay.channelFor dst with
  | some channel =>
    .wrapped (encodeChannelData channel payload (decide (relay.carrier = .stream))) relay.server
      relay.carrier
  | none =>
    if relay.permitted.contains dst = false then .direct
    else match draw with
      | none => .unavailable
      | some id => .wrapped (Stun.indication digests methodSend id dst payload) relay.server
          relay.carrier

/-! ### The server -/

/-- `turn::method_of`. -/
def methodOf (messageType : UInt16) : UInt16 :=
  let middle : UInt16 := (messageType &&& 0x00E0) >>> 1 ||| (messageType &&& 0x3E00) >>> 2
  messageType &&& 0x000F ||| middle

/-- `turn::class_of`. -/
def classOf (messageType : UInt16) : UInt16 :=
  let high : UInt16 := (messageType &&& 0x0100) >>> 7
  (messageType &&& 0x0010) >>> 4 ||| high

/-- The demux and parsers of `handle_client`, `handle_channel_data` and `handle_send_indication`:
the peer and payload a client datagram is relayed as. The server's own policy (expiry, permissions,
budget) comes after them. -/
def serverUnwrap (channels : UInt16 → Option SocketAddr) (datagram : Bytes) :
    Option (SocketAddr × Bytes) :=
  match datagram.head? with
  | none => none
  | some first =>
    if isChannelData first then
      (parseChannelData datagram).bind fun message ↦
        (channels message.channel).map fun peer ↦ (peer, message.data)
    else match parse datagram with
      | .error _ => none
      | .ok message =>
        if classOf message.messageType = classIndication ∧
            methodOf message.messageType = methodSend then message.peerData
        else none

/-! ### Attribution -/

theorem head?_encodeChannelData {channel : UInt16} (data : Bytes) (padToFour : Bool)
    (hchannel : validChannelNumber channel = true) :
    ∃ first, (encodeChannelData channel data padToFour).head? = some first ∧
      isChannelData first = true :=
  ⟨UInt8.ofNat (channel.toNat / 256), rfl, isChannelData_of_valid hchannel⟩

theorem head?_indication (digests : Digests) (method : UInt16) (id : TransactionId)
    (peer : SocketAddr) (payload : Bytes) :
    (Stun.indication digests method id peer payload).head? =
      some (UInt8.ofNat ((messageTypeOf method classIndication).toNat / 256)) := by
  rfl

theorem isDataIndication_indication (digests : Digests) (id : TransactionId) (peer : SocketAddr)
    (payload : Bytes) :
    isDataIndication (Stun.indication digests methodData id peer payload) = true := by
  rw [indication_eq]
  refine decide_eq_true ⟨?_, ?_⟩
  · rw [List.length_append, length_header]
    exact Nat.le_add_right _ _
  · exact readU16_header_type _ _ _ _

/-- ChannelData starts with an octet of its own range. -/
theorem isChannelData_of_parse {datagram : Bytes} {message : ChannelData}
    (hparse : parseChannelData datagram = some message) :
    ∃ first, datagram.head? = some first ∧ isChannelData first = true := by
  obtain ⟨hchannel, _, rest, rfl⟩ := parseChannelData_eq_some_iff.mp hparse
  exact ⟨UInt8.ofNat (message.channel.toNat / 256), rfl, isChannelData_of_valid hchannel⟩

/-- What is not marked as ChannelData is not read as it. -/
theorem parseChannelData_eq_none {datagram : Bytes} {first : UInt8}
    (hhead : datagram.head? = some first) (hunmarked : isChannelData first = false) :
    parseChannelData datagram = none := by
  refine Option.eq_none_iff_forall_ne_some.mpr fun message hparse ↦ ?_
  obtain ⟨other, hother, hmarked⟩ := isChannelData_of_parse hparse
  obtain rfl := Option.some.inj (hhead.symm.trans hother)
  exact Bool.false_ne_true (hunmarked.symm.trans hmarked)

/-- The octets that ChannelData declares are its data. -/
theorem take_of_parseChannelData {datagram : Bytes} {message : ChannelData}
    (hparse : parseChannelData datagram = some message) :
    (datagram.drop 4).take message.data.length = message.data := by
  obtain ⟨_, _, rest, rfl⟩ := parseChannelData_eq_some_iff.mp hparse
  rw [← List.append_assoc, List.drop_left' (by simp), List.take_left' rfl]

/-- A Data indication is dropped, or attributed to the permitted peer it names. -/
theorem unwrapDataIndication_cases (relay : TurnRelay) (datagram : Bytes) :
    unwrapDataIndication relay datagram = .drop ∨
      ∃ peer payload, unwrapDataIndication relay datagram = .indication payload peer ∧
        relay.isPermitted peer = true ∧
        ∃ message, parse datagram = .ok message ∧ message.peerData = some (peer, payload) := by
  unfold unwrapDataIndication
  cases parse datagram with
  | error => exact Or.inl rfl
  | ok message =>
    dsimp only
    cases hnamed : message.peerData with
    | none => exact Or.inl rfl
    | some named =>
      cases hpermitted : relay.isPermitted named.1 with
      | false => exact Or.inl (by simp [hpermitted])
      | true =>
        exact Or.inr ⟨named.1, named.2, by simp [hpermitted], hpermitted, message, rfl, hnamed⟩

/-- What a delivered payload says about its datagram. -/
theorem unwrapped_eq_some {relay : TurnRelay} {source peer : SocketAddr} {datagram payload : Bytes}
    (hdelivered : unwrapped (some relay) source datagram = some (peer, payload)) :
    (peer = source ∧ payload = datagram ∧
        (source = relay.server → isDataIndication datagram = false ∧
          parseChannelData datagram = none)) ∨
      (source = relay.server ∧
        ((∃ channel, relay.peerForChannel channel = some peer ∧
            parseChannelData datagram = some ⟨channel, payload⟩) ∨
          (isDataIndication datagram = true ∧ relay.isPermitted peer = true ∧
            ∃ message, parse datagram = .ok message ∧
              message.peerData = some (peer, payload)))) := by
  unfold unwrapped relayUnwrap at hdelivered
  dsimp only at hdelivered
  by_cases hserver : source = relay.server
  swap
  · rw [if_pos hserver] at hdelivered
    obtain ⟨rfl, rfl⟩ := Prod.mk.inj (Option.some.inj hdelivered)
    exact Or.inl ⟨rfl, rfl, fun hequal ↦ absurd hequal hserver⟩
  rw [if_neg (not_not.mpr hserver)] at hdelivered
  cases hhead : datagram.head? with
  | none =>
    have hempty : datagram = [] := List.head?_eq_none_iff.mp hhead
    subst hempty
    obtain ⟨rfl, rfl⟩ := Prod.mk.inj (Option.some.inj hdelivered)
    exact Or.inl ⟨rfl, rfl, fun _ ↦ ⟨by decide, by decide⟩⟩
  | some first =>
    rw [hhead] at hdelivered
    dsimp only at hdelivered
    cases hchannel : isChannelData first with
    | false =>
      rw [hchannel] at hdelivered
      cases hdata : isDataIndication datagram with
      | false =>
        rw [hdata] at hdelivered
        obtain ⟨rfl, rfl⟩ := Prod.mk.inj (Option.some.inj hdelivered)
        exact Or.inl ⟨rfl, rfl, fun _ ↦ ⟨rfl, parseChannelData_eq_none hhead hchannel⟩⟩
      | true =>
        rw [hdata] at hdelivered
        rcases unwrapDataIndication_cases relay datagram with hdrop | hindication
        · rw [hdrop] at hdelivered
          exact nomatch hdelivered
        · obtain ⟨named, data, hresult, hpermitted, hmessage⟩ := hindication
          rw [hresult] at hdelivered
          obtain ⟨rfl, rfl⟩ := Prod.mk.inj (Option.some.inj hdelivered)
          exact Or.inr ⟨hserver, Or.inr ⟨rfl, hpermitted, hmessage⟩⟩
    | true =>
      rw [hchannel, if_neg (by decide)] at hdelivered
      cases hparse : parseChannelData datagram with
      | none =>
        rw [hparse] at hdelivered
        exact nomatch hdelivered
      | some message =>
        rw [hparse] at hdelivered
        dsimp only at hdelivered
        cases hpeer : relay.peerForChannel message.channel with
        | none =>
          rw [hpeer] at hdelivered
          exact nomatch hdelivered
        | some bound =>
          rw [hpeer] at hdelivered
          dsimp only at hdelivered
          rw [Nat.add_sub_cancel_left, take_of_parseChannelData hparse] at hdelivered
          obtain ⟨rfl, rfl⟩ := Prod.mk.inj (Option.some.inj hdelivered)
          exact Or.inr ⟨hserver, Or.inl ⟨message.channel, hpeer, rfl⟩⟩

/-- ChannelData of the server on a bound channel is delivered as it was wrapped. -/
theorem unwrapped_encodeChannelData {relay : TurnRelay} {channel : UInt16} {peer : SocketAddr}
    {payload : Bytes} (padToFour : Bool) (hpeer : relay.peerForChannel channel = some peer)
    (hchannel : validChannelNumber channel = true) (hpayload : payload.length < 2 ^ 16) :
    unwrapped (some relay) relay.server (encodeChannelData channel payload padToFour) =
      some (peer, payload) := by
  have hparse := parseChannelData_encodeChannelData padToFour hchannel hpayload
  have htaken := take_of_parseChannelData hparse
  obtain ⟨first, hhead, hmarked⟩ := head?_encodeChannelData payload padToFour hchannel
  simp [unwrapped, relayUnwrap, hhead, hmarked, hparse, hpeer, htaken]

/-- A Data indication of the server for a permitted peer is delivered as it was wrapped. -/
theorem unwrapped_indication (digests : Digests) {relay : TurnRelay} (id : TransactionId)
    {peer : SocketAddr} {payload : Bytes} (hpermitted : relay.isPermitted peer = true)
    (hplain : plainAddress peer = peer) (hpayload : payload.length ≤ 65504) :
    unwrapped (some relay) relay.server (Stun.indication digests methodData id peer payload) =
      some (peer, payload) := by
  obtain ⟨message, hparse, _, hnamed⟩ := parse_indication digests methodData id peer hpayload
  rw [hplain] at hnamed
  have hhead := head?_indication digests methodData id peer payload
  have hfirst : isChannelData
      (UInt8.ofNat ((messageTypeOf methodData classIndication).toNat / 256)) = false := by decide
  have hdata := isDataIndication_indication digests id peer payload
  simp [unwrapped, relayUnwrap, hhead, hfirst, hdata, unwrapDataIndication, hparse, hnamed,
    hpermitted]

/-- The server reads ChannelData on a channel as the payload for the peer it bound to it. -/
theorem serverUnwrap_encodeChannelData {channels : UInt16 → Option SocketAddr} {channel : UInt16}
    {peer : SocketAddr} {payload : Bytes} (padToFour : Bool)
    (hpeer : channels channel = some peer) (hchannel : validChannelNumber channel = true)
    (hpayload : payload.length < 2 ^ 16) :
    serverUnwrap channels (encodeChannelData channel payload padToFour) =
      some (peer, payload) := by
  have hparse := parseChannelData_encodeChannelData padToFour hchannel hpayload
  obtain ⟨first, hhead, hmarked⟩ := head?_encodeChannelData payload padToFour hchannel
  simp [serverUnwrap, hhead, hmarked, hparse, hpeer]

/-- The server reads a Send indication as the payload for the peer it names. -/
theorem serverUnwrap_indication (digests : Digests) (channels : UInt16 → Option SocketAddr)
    (id : TransactionId) {peer : SocketAddr} {payload : Bytes}
    (hplain : plainAddress peer = peer) (hpayload : payload.length ≤ 65504) :
    serverUnwrap channels (Stun.indication digests methodSend id peer payload) =
      some (peer, payload) := by
  obtain ⟨message, hparse, htype, hnamed⟩ := parse_indication digests methodSend id peer hpayload
  rw [hplain] at hnamed
  have hhead := head?_indication digests methodSend id peer payload
  have hfirst : isChannelData
      (UInt8.ofNat ((messageTypeOf methodSend classIndication).toNat / 256)) = false := by decide
  have hsend : classOf (messageTypeOf methodSend classIndication) = classIndication ∧
      methodOf (messageTypeOf methodSend classIndication) = methodSend := by decide
  simp [serverUnwrap, hhead, hfirst, hparse, htype, hsend, hnamed]

/-- Relayed media is attributed correctly. What an endpoint delivers is the datagram under its own
source or, from the allocation's server only, the payload of ChannelData under the peer the channel
is bound to or of a Data indication under the permitted peer it names. What the server wraps is
delivered as it was, and what the endpoint wraps for a bound or permitted peer the server reads as
the same payload for the same peer. Assumes: payloads that the length fields can declare, channel
numbers of the ChannelData range, peers whose address the wire can carry. -/
theorem relayed_media_attributed (digests : Digests) (relay : TurnRelay)
    (channels : UInt16 → Option SocketAddr) :
    (∀ source datagram peer payload,
      unwrapped (some relay) source datagram = some (peer, payload) →
        (peer = source ∧ payload = datagram ∧
            (source = relay.server → isDataIndication datagram = false ∧
              parseChannelData datagram = none)) ∨
          (source = relay.server ∧
            ((∃ channel, relay.peerForChannel channel = some peer ∧
                parseChannelData datagram = some ⟨channel, payload⟩) ∨
              (isDataIndication datagram = true ∧ relay.isPermitted peer = true ∧
                ∃ message, parse datagram = .ok message ∧
                  message.peerData = some (peer, payload))))) ∧
      (∀ channel peer payload padToFour, relay.peerForChannel channel = some peer →
        validChannelNumber channel = true → payload.length < 2 ^ 16 →
          unwrapped (some relay) relay.server (encodeChannelData channel payload padToFour) =
            some (peer, payload)) ∧
      (∀ id peer payload, relay.isPermitted peer = true → plainAddress peer = peer →
        payload.length ≤ 65504 →
          unwrapped (some relay) relay.server (Stun.indication digests methodData id peer payload) =
            some (peer, payload)) ∧
      (∀ channel dst payload draw, relay.channelFor dst = some channel →
        channels channel = some dst → validChannelNumber channel = true →
          payload.length < 2 ^ 16 →
            ∃ wire, relayEgress digests relay dst payload draw =
                .wrapped wire relay.server relay.carrier ∧
              serverUnwrap channels wire = some (dst, payload)) ∧
      (∀ id dst payload, relay.channelFor dst = none → dst ∈ relay.permitted →
        plainAddress dst = dst → payload.length ≤ 65504 →
          ∃ wire, relayEgress digests relay dst payload (some id) =
              .wrapped wire relay.server relay.carrier ∧
            serverUnwrap channels wire = some (dst, payload)) := by
  refine ⟨?_, ?_, ?_, ?_, ?_⟩
  · intro source datagram peer payload hdelivered
    exact unwrapped_eq_some hdelivered
  · intro channel peer payload padToFour hpeer hchannel hpayload
    exact unwrapped_encodeChannelData padToFour hpeer hchannel hpayload
  · intro id peer payload hpermitted hplain hpayload
    exact unwrapped_indication digests id hpermitted hplain hpayload
  · intro channel dst payload draw hbound hpeer hchannel hpayload
    refine ⟨encodeChannelData channel payload (decide (relay.carrier = .stream)), ?_, ?_⟩
    · simp [relayEgress, hbound]
    · exact serverUnwrap_encodeChannelData _ hpeer hchannel hpayload
  · intro id dst payload hunbound hpermitted hplain hpayload
    refine ⟨Stun.indication digests methodSend id dst payload, ?_, ?_⟩
    · simp [relayEgress, hunbound, hpermitted]
    · exact serverUnwrap_indication digests channels id hplain hpayload

/-! ### A relaying endpoint -/

/-- An allocation with one bound and one permitted peer. -/
def sampleRelay : TurnRelay where
  carrier := .udp
  server := .v4 7 3478
  channels := [(.v4 8 4000, 0x4000)]
  permitted := [.v4 9 5000]

/-- Digests of no consequence. -/
def zeroDigests : Digests where
  hmacSha1 _ _ := Vector.replicate 20 0
  crc32 _ := 0

/-- A payload that looks like ChannelData itself goes to the bound peer and comes back whole, and
the other peer is reached by indications. -/
theorem sample_relay_attributed :
    unwrapped (some sampleRelay) sampleRelay.server
        (encodeChannelData 0x4000 [0x40, 0x01, 0, 0] false) =
          some (.v4 8 4000, [0x40, 0x01, 0, 0]) ∧
      (∃ wire, relayEgress zeroDigests sampleRelay (.v4 8 4000) [0x40, 0x01, 0, 0] none =
          .wrapped wire sampleRelay.server .udp ∧
        serverUnwrap (fun _ ↦ some (.v4 8 4000)) wire = some (.v4 8 4000, [0x40, 0x01, 0, 0])) ∧
      (∃ wire, relayEgress zeroDigests sampleRelay (.v4 9 5000) [0x80]
          (some (Vector.replicate 12 5)) =
          .wrapped wire sampleRelay.server .udp ∧
        serverUnwrap (fun _ ↦ some (.v4 8 4000)) wire = some (.v4 9 5000, [0x80])) ∧
      unwrapped (some sampleRelay) sampleRelay.server
        (Stun.indication zeroDigests methodData (Vector.replicate 12 5) (.v4 9 5000) [0x80]) =
          some (.v4 9 5000, [0x80]) := by
  obtain ⟨_, hchannelIn, hindicationIn, hchannelOut, hindicationOut⟩ :=
    relayed_media_attributed zeroDigests sampleRelay (fun _ ↦ some (.v4 8 4000))
  exact ⟨hchannelIn 0x4000 _ _ false (by decide) (by decide) (by decide),
    hchannelOut 0x4000 _ _ none (by decide) rfl (by decide) (by decide),
    hindicationOut _ _ _ (by decide) (by decide) rfl (by decide),
    hindicationIn _ _ _ (by decide) rfl (by decide)⟩

/-- A datagram that did not come from the server is delivered under its own source, and a payload
longer than ChannelData can declare reaches the server's parsers empty. -/
theorem direct_and_oversize_relayed :
    (unwrapped (some sampleRelay) (.v4 8 4000) [0x80] = some (.v4 8 4000, [0x80]) ∧
        SocketAddr.v4 8 4000 ≠ sampleRelay.server) ∧
      ∃ payload wire, payload.length = 65536 ∧
        relayEgress zeroDigests sampleRelay (.v4 8 4000) payload none =
          .wrapped wire sampleRelay.server .udp ∧
        serverUnwrap (fun _ ↦ some (.v4 8 4000)) wire = some (.v4 8 4000, []) := by
  obtain ⟨payload, hlength⟩ : ∃ payload : Bytes, payload.length = 65536 :=
    ⟨List.replicate 65536 0, List.length_replicate⟩
  have hparse : parseChannelData (encodeChannelData 0x4000 payload false) =
      some ⟨0x4000, []⟩ := by
    refine parseChannelData_eq_some_iff.mpr ⟨by decide, by decide, payload, ?_⟩
    rw [encodeChannelData, hlength, if_neg Bool.false_ne_true, List.append_nil]
    rfl
  obtain ⟨first, hhead, hmarked⟩ := isChannelData_of_parse hparse
  refine ⟨by decide, payload, encodeChannelData 0x4000 payload false, hlength, rfl, ?_⟩
  simp [serverUnwrap, hhead, hmarked, hparse]

end SiphonRtp.Datapath
