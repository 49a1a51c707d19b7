import SiphonRtp.Datapath.Dispatch

/-!
# The in-kernel latch

`latch_decision` and `ice_media_allowed` of `siphon-rtp-ebpf-common/src/rewrite.rs`, and the layers
of `forward_in_kernel` in `siphon-rtp-xdp/ebpf/src/main.rs` that decide whether a datagram counts as
accepted media. What the program does with accepted media, the counters and the resolution of its
destination, is not modelled here.

The program reads the frame, not the datagram: a load is bounded by the end of the frame, and behind
a short payload Ethernet padding follows. The source gate compares addresses as the little-endian
machine reads them from the wire, everything else in host order.
-/

set_option autoImplicit false

namespace SiphonRtp.Xdp

open Machine Datapath

/-- The learned source of a peer, in host order. -/
structure Latched where
  ipv4 : BitVec 32
  port : UInt16
  ssrc : UInt32
deriving DecidableEq

/-- What the in-kernel latch decides for one datagram. -/
inductive LatchVerdict
  | forward
  | learn (latched : Latched)
  | drop
deriving DecidableEq

/-- The in-kernel form of the latch. The map has no room for a latch without an SSRC, so where one
would be learned the datagram is forwarded and nothing is stored. -/
def latchDecision (current : Option Latched) (sourceIpv4 : BitVec 32) (sourcePort : UInt16)
    (ssrc : Option UInt32) : LatchVerdict :=
  let current := current.map fun latched ↦
    { source := (latched.ipv4, latched.port), ssrc := some latched.ssrc : SourceLatch _ }
  match sourceLatchVerdict current (sourceIpv4, sourcePort) ssrc with
  | .keep => .forward
  | .learn { source := (ipv4, port), ssrc } =>
    match ssrc with
    | none => .forward
    | some ssrc => .learn { ipv4, port, ssrc }
  | .reject => .drop

/-- Whether an ICE flow may forward a datagram: only from the adopted source. -/
def iceMediaAllowed (current : Option Latched) (sourceIpv4 : BitVec 32) (sourcePort : UInt16) :
    Bool :=
  match current with
  | some latched => decide (latched.ipv4 = sourceIpv4 ∧ latched.port = sourcePort)
  | none => false

/-- The part of a value of the `FLOWS` map that admission reads and writes. -/
structure FlowAction where
  latchPolicy : UInt8
  sourceKind : UInt8
  sourcePrefixLen : UInt8
  sourceIpv4 : BitVec 32
  latchedIpv4 : BitVec 32
  latchedSsrc : UInt32
  latchedPort : UInt16
  latchValid : UInt8
  ice : UInt8
deriving DecidableEq

/-- `latch::OFF`. -/
def latchOff : UInt8 := 0

/-- `source::ANY`. -/
def sourceAny : UInt8 := 0

/-- `source::EXACT`. -/
def sourceExact : UInt8 := 1

/-- `source::SUBNET`. -/
def sourceSubnet : UInt8 := 2

/-- The value of a word read with its octets in the other order. -/
def swapBytes (word : BitVec 32) : BitVec 32 := BitVec.ofNat 32 (fromBe (toBe 4 word.toNat).reverse)

/-- A UDP datagram in the frame that carries it, with what follows the payload in the frame. -/
structure Frame where
  sourceIpv4 : BitVec 32
  sourcePort : UInt16
  payload : Bytes
  padding : Bytes
deriving DecidableEq

/-- A bounds-checked load of the first octets from the payload on. -/
def Frame.load (frame : Frame) (count : ℕ) : Option Bytes :=
  let rest := frame.payload ++ frame.padding
  if count ≤ rest.length then some (rest.take count) else none

/-- The SSRC the program reads. -/
def Frame.ssrc (frame : Frame) : Option UInt32 := (frame.load 12).bind rtpMediaSsrc

/-- Whether the program goes on with a datagram. A redirect hands it to the userspace agent. -/
inductive Gate
  | drop
  | redirect
  | accepted
deriving DecidableEq

namespace FlowAction

/-- Whether a source, as read from the wire, passes the source gate. -/
def sourceAllowed (rule : FlowAction) (source : BitVec 32) : Bool :=
  if rule.sourceKind = sourceAny then true
  else if rule.sourceKind = sourceExact then decide (rule.sourceIpv4 = source)
  else if rule.sourceKind = sourceSubnet then
    sameBlock (swapBytes rule.sourceIpv4) rule.sourcePrefixLen.toNat (swapBytes source)
  else false

/-- The latch fields, when they hold a learned source. -/
def latched (rule : FlowAction) : Option Latched :=
  if rule.latchValid ≠ 0 then
    some { ipv4 := rule.latchedIpv4, port := rule.latchedPort, ssrc := rule.latchedSsrc }
  else none

/-- The map value with a learned source written to it. -/
def setLatched (rule : FlowAction) (learned : Latched) : FlowAction :=
  { rule with
    latchedIpv4 := learned.ipv4, latchedPort := learned.port, latchedSsrc := learned.ssrc,
    latchValid := 1 }

/-- What the program does on a verdict of the latch. -/
def actOn (rule : FlowAction) : LatchVerdict → Gate × FlowAction
  | .drop => (.drop, rule)
  | .learn learned => (.accepted, rule.setLatched learned)
  | .forward => (.accepted, rule)

/-- Layers 1 to 4 of `forward_in_kernel`: whether a datagram is accepted, and the latch written. -/
def admission (rule : FlowAction) (frame : Frame) : Gate × FlowAction :=
  match frame.load 1 with
  | none => (.drop, rule)
  | some first =>
    if rule.ice ≠ 0 ∧ isStun first = true then (.redirect, rule)
    else if ¬ isRtpOrRtcp first then (.drop, rule)
    else if rule.ice ≠ 0 then
      -- layer 4 takes the place of layers 2 and 3
      if iceMediaAllowed rule.latched frame.sourceIpv4 frame.sourcePort then (.accepted, rule)
      else (.drop, rule)
    else if ¬ rule.sourceAllowed (swapBytes frame.sourceIpv4) then (.drop, rule)
    else if rule.latchPolicy ≠ latchOff then
      rule.actOn (latchDecision rule.latched frame.sourceIpv4 frame.sourcePort frame.ssrc)
    else (.accepted, rule)

end FlowAction

/-! ### The decision, state by state -/

/-- A latch takes its own source, follows its SSRC, and drops everything else. -/
theorem latchDecision_some (latched : Latched) (ipv4 : BitVec 32) (port : UInt16)
    (ssrc : Option UInt32) :
    latchDecision (some latched) ipv4 port ssrc =
      if (latched.ipv4, latched.port) = (ipv4, port) then .forward
      else if ssrc = some latched.ssrc then .learn { ipv4, port, ssrc := latched.ssrc }
      else .drop := by
  unfold latchDecision sourceLatchVerdict
  by_cases hsame : (latched.ipv4, latched.port) = (ipv4, port)
  · simp [hsame]
  · cases ssrc with
    | none => simp [hsame]
    | some seen =>
      by_cases hknown : latched.ssrc = seen
      · simp [hsame, hknown]
      · have hseen : ¬ seen = latched.ssrc := fun heq ↦ hknown heq.symm
        simp [hsame, hknown, hseen]

/-! ### What the program reads of a frame -/

/-- The program reads nothing behind the payload: it is long enough for the RTP header, or the frame
ends with it. -/
def Frame.Exact (frame : Frame) : Prop := 12 ≤ frame.payload.length ∨ frame.padding = []

theorem rtpMediaSsrc_take {payload : Bytes} (hlength : 12 ≤ payload.length) :
    rtpMediaSsrc (payload.take 12) = rtpMediaSsrc payload := by
  have hword : readU32 (payload.take 12) 8 = readU32 payload 8 := by
    unfold readU32
    rw [octet_take (by decide), octet_take (by decide), octet_take (by decide),
      octet_take (by decide)]
  unfold rtpMediaSsrc
  rw [octet_take (by decide), octet_take (by decide), hword]
  simp [Nat.not_lt.mpr hlength]

/-- Of an exact frame the program reads the SSRC of the payload. -/
theorem Frame.ssrc_of_exact {frame : Frame} (hexact : frame.Exact) :
    frame.ssrc = rtpMediaSsrc frame.payload := by
  unfold Frame.ssrc Frame.load
  by_cases hlength : 12 ≤ frame.payload.length
  · have hlong : 12 ≤ (frame.payload ++ frame.padding).length := by
      rw [List.length_append]
      omega
    rw [if_pos hlong, List.take_append_of_le_length hlength]
    exact rtpMediaSsrc_take hlength
  · have hend : frame.padding = [] := hexact.resolve_left hlength
    rw [hend, List.append_nil, if_neg hlength]
    unfold rtpMediaSsrc
    rw [if_pos (Or.inl (Nat.lt_of_not_le hlength))]
    rfl

/-- Of an exact frame the program sees the class of the payload. -/
theorem Frame.load_one_of_exact {frame : Frame} (hexact : frame.Exact) :
    frame.load 1 = frame.payload.head?.map ([·]) := by
  unfold Frame.load
  cases hpayload : frame.payload with
  | nil =>
    have hend : frame.padding = [] := by
      refine hexact.resolve_left ?_
      rw [hpayload]
      decide
    rw [hend]
    rfl
  | cons first rest => simp

end SiphonRtp.Xdp
