import SiphonRtp.Srtp.RtcpContext
import SiphonRtp.Srtp.RtpContext

/-!
# The secure leg

`SecureLeg` of `siphon-rtp-srtp/src/leg.rs`: the four contexts one secure leg needs, with the RTP
and RTCP packets of a leg told apart by the second header octet (RFC 5761 §4), and the rollover
snapshot an HA standby is seeded from. Outbound traffic is encrypted under the local key, inbound
traffic decrypted under the remote one.
-/

set_option autoImplicit false

namespace SiphonRtp.Srtp

open Machine

/-- Which media a packet carries. -/
inductive PacketKind
  | rtp
  | rtcp
deriving DecidableEq, Repr

/-- Packet types 64 to 95, the marker bit masked off, are RTCP. A packet too short to classify is
treated as RTP. -/
def isRtcp (packet : Bytes) : Bool :=
  decide (2 ≤ packet.length) && decide (64 ≤ octet packet 1 &&& 0x7F) &&
    decide (octet packet 1 &&& 0x7F ≤ 95)

/-- One secure leg's crypto state: inbound and outbound contexts for RTP and RTCP. -/
structure SecureLeg where
  inboundRtp : SrtpContext
  outboundRtp : SrtpContext
  inboundRtcp : SrtcpContext
  outboundRtcp : SrtcpContext

/-- The rollover state of a leg, for an HA checkpoint. -/
structure SecureLegRollover where
  inboundRtp : List StreamRollover
  outboundRtp : List StreamRollover
  outboundRtcpIndex : UInt32
deriving DecidableEq, Repr

/-- `seed_stream` for every stream of a checkpoint, in its order. -/
def SrtpContext.seedStreams (context : SrtpContext) (streams : List StreamRollover) : SrtpContext :=
  streams.foldl SrtpContext.seedStream context

theorem isOk_map {α β : Type*} (result : Except SrtpError α) (f : α → β) :
    (result.map f).isOk = result.isOk := by
  cases result <;> rfl

namespace SecureLeg

/-- Build a leg from the engine's own key and the peer's. -/
def new (P : Primitives) (localKey remoteKey : SrtpKeyMaterial) : SecureLeg where
  inboundRtp := .fromKeyMaterial P remoteKey
  outboundRtp := .fromKeyMaterial P localKey
  inboundRtcp := .fromKeyMaterial P remoteKey
  outboundRtcp := .fromKeyMaterial P localKey

/-- Decrypt a packet arriving from the peer, returning which kind it was. -/
def unprotect (P : Primitives) (leg : SecureLeg) (packet : Bytes) :
    Except SrtpError (PacketKind × Bytes) × SecureLeg :=
  if isRtcp packet then
    let (result, inboundRtcp) := leg.inboundRtcp.unprotect P packet
    (result.map (PacketKind.rtcp, ·), { leg with inboundRtcp })
  else
    let (result, inboundRtp) := leg.inboundRtp.unprotect P packet
    (result.map (PacketKind.rtp, ·), { leg with inboundRtp })

/-- Encrypt a packet going to the peer, returning which kind it was. -/
def protect (P : Primitives) (leg : SecureLeg) (packet : Bytes) :
    Except SrtpError (PacketKind × Bytes) × SecureLeg :=
  if isRtcp packet then
    let (result, outboundRtcp) := leg.outboundRtcp.protect P packet
    (result.map (PacketKind.rtcp, ·), { leg with outboundRtcp })
  else
    let (result, outboundRtp) := leg.outboundRtp.protect P packet
    (result.map (PacketKind.rtp, ·), { leg with outboundRtp })

/-- Export the leg's rollover state. -/
def rolloverSnapshot (leg : SecureLeg) : SecureLegRollover where
  inboundRtp := leg.inboundRtp.rolloverState
  outboundRtp := leg.outboundRtp.rolloverState
  outboundRtcpIndex := leg.outboundRtcp.sendIndex

/-- Seed the leg's rollover state from a checkpoint. -/
def seedRollover (leg : SecureLeg) (rollover : SecureLegRollover) : SecureLeg :=
  { leg with
    inboundRtp := leg.inboundRtp.seedStreams rollover.inboundRtp
    outboundRtp := leg.outboundRtp.seedStreams rollover.outboundRtp
    outboundRtcp := leg.outboundRtcp.setSendIndex rollover.outboundRtcpIndex }

/-! ### What the operations do -/

variable (P : Primitives) {leg : SecureLeg} {packet : Bytes}

theorem unprotect_of_isRtcp (hkind : isRtcp packet = true) :
    leg.unprotect P packet =
      ((leg.inboundRtcp.unprotect P packet).1.map (PacketKind.rtcp, ·),
        { leg with inboundRtcp := (leg.inboundRtcp.unprotect P packet).2 }) := by
  simp only [unprotect, hkind, ↓reduceIte]

theorem unprotect_of_not_isRtcp (hkind : isRtcp packet = false) :
    leg.unprotect P packet =
      ((leg.inboundRtp.unprotect P packet).1.map (PacketKind.rtp, ·),
        { leg with inboundRtp := (leg.inboundRtp.unprotect P packet).2 }) := by
  simp only [unprotect, hkind, Bool.false_eq_true, ↓reduceIte]

theorem protect_of_isRtcp (hkind : isRtcp packet = true) :
    leg.protect P packet =
      ((leg.outboundRtcp.protect P packet).1.map (PacketKind.rtcp, ·),
        { leg with outboundRtcp := (leg.outboundRtcp.protect P packet).2 }) := by
  simp only [protect, hkind, ↓reduceIte]

theorem protect_of_not_isRtcp (hkind : isRtcp packet = false) :
    leg.protect P packet =
      ((leg.outboundRtp.protect P packet).1.map (PacketKind.rtp, ·),
        { leg with outboundRtp := (leg.outboundRtp.protect P packet).2 }) := by
  simp only [protect, hkind, Bool.false_eq_true, ↓reduceIte]

/-- A failed packet leaves the leg alone. -/
theorem unprotect_of_error {error : SrtpError}
    (herror : (leg.unprotect P packet).1 = .error error) :
    (leg.unprotect P packet).2 = leg := by
  rcases hkind : isRtcp packet with _ | _
  · rw [unprotect_of_not_isRtcp P hkind] at herror ⊢
    rcases hresult : (leg.inboundRtp.unprotect P packet).1 with cause | plain
    · rw [SrtpContext.unprotect_of_error P hresult]
    · simp [hresult, Except.map] at herror
  · rw [unprotect_of_isRtcp P hkind] at herror ⊢
    rcases hresult : (leg.inboundRtcp.unprotect P packet).1 with cause | plain
    · rw [SrtcpContext.unprotect_of_error P hresult]
    · simp [hresult, Except.map] at herror

end SecureLeg

end SiphonRtp.Srtp
