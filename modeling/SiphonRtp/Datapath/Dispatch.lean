import SiphonRtp.Datapath.SourceLatch
import SiphonRtp.Machine.Runs

/-!
# Dispatch of the UDP backend

`Inner::dispatch` of `siphon-rtp-datapath/src/udp.rs`, what the userspace backend does with one
datagram that arrived on an endpoint: the demux, the ICE gate or the signalled-source gate and the
latch, then the counters, the RTCP hand-up and the destination. `admission` is the part that decides
whether a datagram is accepted and writes the latch.

The per-endpoint tables are functions of the endpoint. The emission itself (the TURN framing, the
socket, the counters of the out endpoint, the RTCP observers) comes after everything modelled here
and changes none of it; credentials count only by being there.
-/

set_option autoImplicit false

namespace SiphonRtp.Datapath

open Machine

/-! ### Addresses and gates -/

/-- An IP address, as the number its octets are. -/
inductive IpAddr
  | v4 (bits : BitVec 32)
  | v6 (bits : BitVec 128)
deriving DecidableEq

/-- A socket address. -/
inductive SocketAddr
  | v4 (ip : BitVec 32) (port : UInt16)
  | v6 (ip : BitVec 128) (port : UInt16) (flowinfo scopeId : UInt32)
deriving DecidableEq

/-- The address of a socket address. -/
def SocketAddr.ip : SocketAddr → IpAddr
  | .v4 ip _ => .v4 ip
  | .v6 ip _ _ _ => .v6 ip

/-- Whether two addresses of one family agree in their first bits. -/
def sameBlock {width : ℕ} (network : BitVec width) (length : ℕ) (source : BitVec width) : Bool :=
  let kept := min length width
  if kept = 0 then true
  else
    let mask := BitVec.allOnes width <<< (width - kept)
    decide (network &&& mask = source &&& mask)

/-- Whether a source falls within a CIDR block, of its own family only. -/
def subnetContains (network : IpAddr) (length : UInt8) (source : IpAddr) : Bool :=
  match network, source with
  | .v4 network, .v4 source => sameBlock network length.toNat source
  | .v6 network, .v6 source => sameBlock network length.toNat source
  | _, _ => false

/-- Which source address may send media to an endpoint. -/
inductive SourceFilter
  | exact (ip : IpAddr)
  | subnet (network : IpAddr) (length : UInt8)
  | any
deriving DecidableEq

/-- Whether a filter permits an address. The port is never gated. -/
def SourceFilter.accepts (filter : SourceFilter) (source : IpAddr) : Bool :=
  match filter with
  | .any => true
  | .exact ip => decide (ip = source)
  | .subnet network length => subnetContains network length source

/-- Whether and how an endpoint learns the source of its peer. -/
inductive LatchPolicy
  | off
  | signalledOnly
  | symmetric
deriving DecidableEq

/-! ### Flows -/

/-- An endpoint of the datapath. -/
abbrev EndpointId := UInt64

/-- A relay rule installed on a receiving endpoint. -/
structure ForwardRule where
  outEndpoint : EndpointId
  outDst : Option SocketAddr
  acceptedSource : SourceFilter
  latch : LatchPolicy
  rtcpToUserspace : Bool
deriving DecidableEq

/-- What the backend does with the datagrams of an endpoint. -/
inductive FlowAction
  | forward (rule : ForwardRule)
  | redirect
  | drop
deriving DecidableEq

/-- The ingress counters of an endpoint. -/
structure Stats where
  packetsDropped : ℕ := 0
  /-- The tick of the last accepted packet, zero for none. -/
  lastSeen : ℕ := 0
  packetsLost : UInt64 := 0
  lastRtpSeq : UInt64 := rtpSeqNone
deriving DecidableEq

/-- The tables of the backend that `dispatch` uses. -/
structure Inner where
  clock : ℕ
  endpoints : EndpointId → Bool
  flows : EndpointId → Option FlowAction
  latched : EndpointId → Option (SourceLatch SocketAddr)
  /-- The endpoints that carry ICE credentials. -/
  ice : EndpointId → Bool
  stats : EndpointId → Stats

/-- A datagram handed to userspace. -/
structure RxPacket where
  endpoint : EndpointId
  source : SocketAddr
  arrival : ℕ
  data : Bytes
deriving DecidableEq

/-- What became of a datagram. -/
inductive Dispatched
  | dropped
  | handedUp (packet : RxPacket)
  | forwarded (out : EndpointId) (destination : SocketAddr)
deriving DecidableEq

/-- A datagram that arrived on an endpoint. -/
structure Arrival where
  endpoint : EndpointId
  source : SocketAddr
  payload : Bytes
deriving DecidableEq

/-- The verdict of the ICE gate. -/
inductive IceGate
  | notIce
  | accept
  | reject
deriving DecidableEq

namespace Inner

/-- The ICE verdict for a datagram: with credentials, only the adopted source may send. -/
def iceGate (inner : Inner) (endpoint : EndpointId) (source : SocketAddr) : IceGate :=
  if ¬ inner.ice endpoint then .notIce
  else
    match inner.latched endpoint with
    | some latch => if latch.source = source then .accept else .reject
    | none => .reject

/-- The tables with another latch for one endpoint. -/
def setLatched (inner : Inner) (endpoint : EndpointId) (latch : Option (SourceLatch SocketAddr)) :
    Inner :=
  { inner with
    latched := fun other ↦ if other = endpoint then latch else inner.latched other }

/-- The tables with other counters for one endpoint. -/
def setStats (inner : Inner) (endpoint : EndpointId) (stats : Stats) : Inner :=
  { inner with stats := fun other ↦ if other = endpoint then stats else inner.stats other }

/-- Layers 1 to 4 of a forwarding flow: whether a datagram is accepted, and the latch written. -/
def admission (inner : Inner) (rule : ForwardRule) (arrival : Arrival) : Bool × Inner :=
  if classify arrival.payload ≠ .media then (false, inner)
  else
    match inner.iceGate arrival.endpoint arrival.source with
    | .reject => (false, inner)
    | .accept => (true, inner)
    | .notIce =>
      if ¬ rule.acceptedSource.accepts arrival.source.ip then (false, inner)
      else if rule.latch ≠ .off then
        let (accepted, latch) := updateLatch (inner.latched arrival.endpoint) arrival.source
          (rtpMediaSsrc arrival.payload)
        (accepted, inner.setLatched arrival.endpoint latch)
      else (true, inner)

/-- One more dropped packet. -/
def countDrop (inner : Inner) (endpoint : EndpointId) : Inner :=
  let stats := inner.stats endpoint
  inner.setStats endpoint { stats with packetsDropped := stats.packetsDropped + 1 }

/-- The counters of an accepted packet: the activity stamp, and the loss estimate for RTP media. -/
def countAccepted (inner : Inner) (arrival : Arrival) : Inner :=
  let stats := inner.stats arrival.endpoint
  let seen := { stats with lastSeen := inner.clock }
  inner.setStats arrival.endpoint <|
    if (rtpMediaSsrc arrival.payload).isSome then
      let (last, lost) := rtpLossUpdate stats.lastRtpSeq (readU16 arrival.payload 2)
      { seen with lastRtpSeq := last, packetsLost := stats.packetsLost + lost }
    else seen

/-- The packet handed to userspace, stamped with the logical clock at 20 ms a tick. -/
def rxPacket (inner : Inner) (arrival : Arrival) : RxPacket where
  endpoint := arrival.endpoint
  source := arrival.source
  arrival := min (inner.clock * 20000) (2 ^ 64 - 1)
  data := arrival.payload

/-- Apply the installed flow to one datagram. -/
def dispatch (inner : Inner) (arrival : Arrival) : Dispatched × Inner :=
  match inner.flows arrival.endpoint with
  | none => (.dropped, inner.countDrop arrival.endpoint)
  | some .drop => (.dropped, inner.countDrop arrival.endpoint)
  | some .redirect =>
    if inner.iceGate arrival.endpoint arrival.source = .reject then
      (.dropped, inner.countDrop arrival.endpoint)
    else (.handedUp (inner.rxPacket arrival), inner)
  | some (.forward rule) =>
    match inner.admission rule arrival with
    | (false, refused) => (.dropped, refused.countDrop arrival.endpoint)
    | (true, admitted) =>
      let counted := admitted.countAccepted arrival
      if rule.rtcpToUserspace && isRtcp arrival.payload then
        (.handedUp (counted.rxPacket arrival), counted)
      else
        -- the latched source of the peer comes before the configured destination
        match ((counted.latched rule.outEndpoint).map (·.source)).or rule.outDst with
        | none => (.dropped, counted.countDrop arrival.endpoint)
        | some destination =>
          if counted.endpoints rule.outEndpoint then
            (.forwarded rule.outEndpoint destination, counted)
          else (.dropped, counted.countDrop arrival.endpoint)

/-! ### What a datagram changes -/

section Counters

variable (inner : Inner) (endpoint : EndpointId) (arrival : Arrival)

@[simp] theorem latched_countDrop : (inner.countDrop endpoint).latched = inner.latched := rfl

@[simp] theorem flows_countDrop : (inner.countDrop endpoint).flows = inner.flows := rfl

@[simp] theorem ice_countDrop : (inner.countDrop endpoint).ice = inner.ice := rfl

@[simp] theorem latched_countAccepted : (inner.countAccepted arrival).latched = inner.latched := rfl

@[simp] theorem flows_countAccepted : (inner.countAccepted arrival).flows = inner.flows := rfl

@[simp] theorem ice_countAccepted : (inner.countAccepted arrival).ice = inner.ice := rfl

end Counters

/-- Admission changes the latch of the endpoint the datagram arrived on and nothing else. -/
theorem admission_frame (inner : Inner) (rule : ForwardRule) (arrival : Arrival) :
    (inner.admission rule arrival).2.flows = inner.flows ∧
      (inner.admission rule arrival).2.ice = inner.ice ∧
      ∀ other, other ≠ arrival.endpoint →
        (inner.admission rule arrival).2.latched other = inner.latched other := by
  unfold admission
  split
  · exact ⟨rfl, rfl, fun _ _ ↦ rfl⟩
  split
  · exact ⟨rfl, rfl, fun _ _ ↦ rfl⟩
  · exact ⟨rfl, rfl, fun _ _ ↦ rfl⟩
  split
  · exact ⟨rfl, rfl, fun _ _ ↦ rfl⟩
  split
  · refine ⟨rfl, rfl, ?_⟩
    intro other hother
    exact if_neg hother
  · exact ⟨rfl, rfl, fun _ _ ↦ rfl⟩

/-- What a datagram on a forwarding endpoint does to the tables it is decided by: what its admission
does. A datagram that is not admitted is dropped. -/
theorem dispatch_forward {inner : Inner} {rule : ForwardRule} {arrival : Arrival}
    (hflow : inner.flows arrival.endpoint = some (.forward rule)) :
    (inner.dispatch arrival).2.latched = (inner.admission rule arrival).2.latched ∧
      (inner.dispatch arrival).2.flows = (inner.admission rule arrival).2.flows ∧
      (inner.dispatch arrival).2.ice = (inner.admission rule arrival).2.ice ∧
      ((inner.admission rule arrival).1 = false → (inner.dispatch arrival).1 = .dropped) := by
  unfold dispatch
  rw [hflow]
  dsimp only
  split
  · rename_i refused heq
    simp [heq]
  · rename_i admitted heq
    rw [heq]
    refine ⟨?_, ?_, ?_, nofun⟩ <;>
    · split
      · simp
      split
      · simp
      split
      · simp
      · simp

/-- A datagram touches neither the flows nor the credentials, and no latch but that of its own
endpoint. -/
theorem dispatch_frame (inner : Inner) (arrival : Arrival) :
    (inner.dispatch arrival).2.flows = inner.flows ∧
      (inner.dispatch arrival).2.ice = inner.ice ∧
      ∀ other, other ≠ arrival.endpoint →
        (inner.dispatch arrival).2.latched other = inner.latched other := by
  cases hflow : inner.flows arrival.endpoint with
  | none => simp [dispatch, hflow]
  | some action =>
    cases action with
    | drop => simp [dispatch, hflow]
    | redirect =>
      unfold dispatch
      rw [hflow]
      dsimp only
      split_ifs
      · exact ⟨rfl, rfl, fun _ _ ↦ rfl⟩
      · exact ⟨rfl, rfl, fun _ _ ↦ rfl⟩
    | forward rule =>
      obtain ⟨hlatched, hflows, hice, -⟩ := dispatch_forward hflow
      rw [hlatched, hflows, hice]
      exact inner.admission_frame rule arrival

end Inner

/-! ### A sample flow -/

/-- A rule that latches any source. -/
def openRule : ForwardRule where
  outEndpoint := 2
  outDst := none
  acceptedSource := .any
  latch := .symmetric
  rtcpToUserspace := false

/-- A backend with that rule on every endpoint, and nothing latched. -/
def openFlow : Inner where
  clock := 1
  endpoints _ := true
  flows _ := some (.forward openRule)
  latched _ := none
  ice _ := false
  stats _ := {}

/-- An RTP packet of an SSRC, with nothing in it. -/
def emptyRtp (ssrc : ℕ) : Bytes := [0x80, 0, 0, 1, 0, 0, 0, 0] ++ toBe 4 ssrc

/-- A sender report without a body. -/
def emptyRtcp : Bytes := [0x80, 200, 0, 1, 0, 0, 0, 1]

end SiphonRtp.Datapath
