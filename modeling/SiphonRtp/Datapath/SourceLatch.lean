import SiphonRtp.Machine.Octets

/-!
# The source latch

What both datapaths read of a media datagram and the latch they run on it, from
`siphon-rtp-ebpf-common/src/rewrite.rs`, `loss.rs` and `siphon-rtp-datapath/src/lib.rs`: the RFC
7983 demux by first octet, the SSRC reader, the forward-gap loss estimate, and
`source_latch_verdict`, the SSRC-consistent latch of RFC 3550 §8. The latch is generic in how a
source is written down: the kernel keys on an IPv4 address and port, userspace on a socket address.

The state machine is three equations, one for each state of the latch: it learns when it is empty
(`updateLatch_none`), it follows its source when it holds no SSRC (`updateLatch_unpinned`), and once
it holds one it follows its source or that SSRC (`updateLatch_pinned`).
-/

set_option autoImplicit false

namespace SiphonRtp.Datapath

open Machine

/-! ### Readers -/

/-- The RFC 7983 class of a datagram. -/
inductive PacketClass
  | stun
  | dtls
  | media
  | other
deriving DecidableEq

/-- Classify a datagram by its first octet. -/
def classify (datagram : Bytes) : PacketClass :=
  match datagram.head? with
  | none => .other
  | some first =>
    if first ≤ 3 then .stun
    else if 20 ≤ first ∧ first ≤ 63 then .dtls
    else if 128 ≤ first ∧ first ≤ 191 then .media
    else .other

/-- Whether the demux takes a datagram for RTP or RTCP. -/
def isRtpOrRtcp (payload : Bytes) : Bool :=
  match payload.head? with
  | none => false
  | some first => decide (128 ≤ first ∧ first ≤ 191)

/-- Whether the demux takes a datagram for STUN. -/
def isStun (payload : Bytes) : Bool :=
  match payload.head? with
  | none => false
  | some first => decide (first ≤ 3)

/-- Whether a payload type is one of RTCP's, RFC 5761 §4. -/
def isRtcpType (second : UInt8) : Bool := decide (64 ≤ second &&& 0x7f ∧ second &&& 0x7f ≤ 95)

/-- The SSRC of an RTP media packet. A datagram too short for the fixed header, of another version
or of an RTCP payload type has none. -/
def rtpMediaSsrc (payload : Bytes) : Option UInt32 :=
  if payload.length < 12 ∨ octet payload 0 >>> 6 ≠ 2 then none
  else if isRtcpType (octet payload 1) then none
  else some (readU32 payload 8)

/-- `is_rtcp` of the UDP backend. -/
def isRtcp (payload : Bytes) : Bool :=
  decide (classify payload = .media) && (payload[1]?.any isRtcpType)

/-- The two demuxes agree on what media is. -/
theorem classify_eq_media_iff (payload : Bytes) :
    classify payload = .media ↔ isRtpOrRtcp payload = true := by
  unfold classify isRtpOrRtcp
  cases payload.head? with
  | none => simp
  | some first =>
    -- the ranges of the other classes lie below
    have hstun : first ≤ 3 → ¬ (128 : UInt8) ≤ first := by
      simp only [UInt8.le_iff_toNat_le, UInt8.reduceToNat]
      omega
    have hdtls : first ≤ 63 → ¬ (128 : UInt8) ≤ first := by
      simp only [UInt8.le_iff_toNat_le, UInt8.reduceToNat]
      omega
    by_cases hone : first ≤ 3
    · simp [hone, hstun hone]
    by_cases htwo : 20 ≤ first ∧ first ≤ 63
    · simp [hone, htwo, hdtls htwo.2]
    by_cases hmedia : 128 ≤ first ∧ first ≤ 191
    · simp [hone, htwo]
    · simp [hone, htwo]

/-! ### Loss estimate -/

/-- `RTP_SEQ_NONE`. -/
def rtpSeqNone : UInt64 := 0xFFFFFFFFFFFFFFFF

/-- `MAX_DROPOUT`. -/
def maxDropout : UInt16 := 3000

/-- `MAX_MISORDER`. -/
def maxMisorder : UInt16 := 100

/-- `rtp_loss_update`: the last sequence number after a packet, and the packets lost before it. -/
def rtpLossUpdate (last : UInt64) (seq : UInt16) : UInt64 × UInt64 :=
  if last = rtpSeqNone then (seq.toUInt64, 0)
  else
    let step := seq - last.toUInt16
    if step = 0 then (last, 0)
    else if step < maxDropout then (seq.toUInt64, (step - 1).toUInt64)
    else if 0xFFFF - maxMisorder < step then (last, 0)
    else (seq.toUInt64, 0)

/-! ### The latch -/

/-- A source a latch has adopted, and the SSRC it carried, none for RTCP or an ICE check. -/
structure SourceLatch (Source : Type*) where
  source : Source
  ssrc : Option UInt32
deriving DecidableEq

/-- What the latch decides for one datagram. -/
inductive SourceLatchVerdict (Source : Type*)
  | keep
  | learn (latch : SourceLatch Source)
  | reject
deriving DecidableEq

section Latch

variable {Source : Type*} [DecidableEq Source]

/-- The SSRC-consistent latch for one datagram that has passed the demux and the source gate. -/
def sourceLatchVerdict (current : Option (SourceLatch Source)) (source : Source)
    (ssrc : Option UInt32) : SourceLatchVerdict Source :=
  let learn := SourceLatchVerdict.learn { source, ssrc }
  match current with
  | none => learn
  | some latched =>
    if latched.source = source then
      -- the first SSRC its own source sends is recorded, a later change is not
      if latched.ssrc.isNone && ssrc.isSome then learn else .keep
    else
      match latched.ssrc, ssrc with
      | some known, some seen => if known = seen then learn else .reject
      | _, _ => .reject

/-- `update_latch`: whether the datagram is accepted, and the latch it leaves behind. -/
def updateLatch (current : Option (SourceLatch Source)) (source : Source) (ssrc : Option UInt32) :
    Bool × Option (SourceLatch Source) :=
  match sourceLatchVerdict current source ssrc with
  | .keep => (true, current)
  | .learn latch => (true, some latch)
  | .reject => (false, current)

/-- An empty latch learns whatever comes. -/
theorem updateLatch_none (source : Source) (ssrc : Option UInt32) :
    updateLatch none source ssrc = (true, some { source, ssrc }) := rfl

/-- A latch without an SSRC takes its own source alone, and records the SSRC that one sends. -/
theorem updateLatch_unpinned (latched source : Source) (ssrc : Option UInt32) :
    updateLatch (some { source := latched, ssrc := none }) source ssrc =
      if latched = source then (true, some { source := latched, ssrc })
      else (false, some { source := latched, ssrc := none }) := by
  unfold updateLatch sourceLatchVerdict
  by_cases hsame : latched = source
  · subst hsame
    cases ssrc with
    | none => simp
    | some seen => simp
  · simp [hsame]

/-- A latch with an SSRC takes its own source and whatever carries that SSRC, and keeps the SSRC. -/
theorem updateLatch_pinned (latched source : Source) (known : UInt32) (ssrc : Option UInt32) :
    updateLatch (some { source := latched, ssrc := some known }) source ssrc =
      if latched = source ∨ ssrc = some known then (true, some { source, ssrc := some known })
      else (false, some { source := latched, ssrc := some known }) := by
  unfold updateLatch sourceLatchVerdict
  by_cases hsame : latched = source
  · subst hsame
    simp
  · cases ssrc with
    | none => simp [hsame]
    | some seen =>
      by_cases hknown : known = seen
      · subst hknown
        simp [hsame]
      · have hseen : ¬ seen = known := fun heq ↦ hknown heq.symm
        simp [hsame, hknown, hseen]

end Latch

end SiphonRtp.Datapath
