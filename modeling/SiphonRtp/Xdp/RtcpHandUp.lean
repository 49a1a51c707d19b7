import SiphonRtp.Xdp.LatchNarrowing

/-!
# RTCP handed to userspace

What `forward_in_kernel` does with a datagram it has accepted: the destination the flow names, the
RTCP a flow wants in userspace, and the next hop. The program takes for RTCP whatever has no media
SSRC in its first twelve octets, and so also whatever has no twelve octets; the UDP backend goes by
the payload type alone.

On a flow that hands its RTCP up the two therefore part ways with a datagram exactly when the frame
ends before the RTP header does, unless its second octet is an RTCP payload type
(`hand_up_agrees_iff`): the program passes such a datagram up where the UDP backend forwards it.
-/

set_option autoImplicit false

namespace SiphonRtp.Xdp

open Machine Datapath

/-! ### The relay -/

/-- The fields of a flow that relaying accepted media reads besides those of admission, the port in
host order. -/
structure RelayAction extends FlowAction where
  outIpv4 : BitVec 32
  outPort : UInt16
  rtcpToUserspace : UInt8
deriving DecidableEq

/-- What the two helpers the program calls answer for a datagram: whether the lookup of the next hop
succeeds, and whether the queue of the flow has a socket to redirect to. -/
structure Helpers where
  fibSuccess : Bool
  xskRedirect : Bool
deriving DecidableEq

/-- What becomes of a datagram in the program. -/
inductive Verdict
  | drop
  | redirect
  | forward
deriving DecidableEq

/-- Whether the program takes an accepted datagram for RTCP. -/
def Frame.isRtcp (frame : Frame) : Bool :=
  match frame.load 12 with
  | some header => (rtpMediaSsrc header).isNone
  | none => true

/-- A datagram handed to the socket of the flow. -/
def Helpers.handUp (helpers : Helpers) : Verdict :=
  if helpers.xskRedirect then .redirect else .drop

/-- The program for a flow that forwards: its verdict, and the map value it leaves behind. -/
def RelayAction.forwardInKernel (helpers : Helpers) (rule : RelayAction) (frame : Frame) :
    Verdict × RelayAction :=
  match rule.toFlowAction.admission frame with
  | (.drop, action) => (.drop, { rule with toFlowAction := action })
  | (.redirect, action) => (helpers.handUp, { rule with toFlowAction := action })
  | (.accepted, action) =>
    let written := { rule with toFlowAction := action }
    if rule.outIpv4 = 0 ∨ rule.outPort = 0 then (.drop, written)
    else if frame.isRtcp ∧ rule.rtcpToUserspace ≠ 0 then (helpers.handUp, written)
    else if helpers.fibSuccess then (.forward, written)
    -- a cold neighbour: userspace resolves it and sends the original datagram
    else (helpers.handUp, written)

/-! ### The two classifications -/

/-- The octets the program reads tell it what the UDP backend knows of the payload: twelve of them
are there and the second one is the payload's, or at least no RTCP type; or the payload shows an
RTCP type. -/
def Frame.ShowsType (frame : Frame) : Prop :=
  (12 ≤ frame.payload.length + frame.padding.length ∧
      (frame.payload.length = 1 → isRtcpType (octet frame.padding 0) = false)) ∨
    (2 ≤ frame.payload.length ∧ isRtcpType (octet frame.payload 1) = true)

theorem isRtcp_of_media {first : UInt8} {rest : Bytes}
    (hmedia : classify (first :: rest) = .media) :
    Datapath.isRtcp (first :: rest) = (rest.head?).any isRtcpType := by
  unfold Datapath.isRtcp
  rw [hmedia]
  cases rest with
  | nil => rfl
  | cons second rest => rfl

/-- The version bits of whatever the demux takes for media are those of RTP. -/
theorem version_of_media {first : UInt8} {rest : Bytes}
    (hmedia : classify (first :: rest) = .media) : first >>> 6 = 2 := by
  have hrange : 128 ≤ first ∧ first ≤ 191 := by
    have hclass := (classify_eq_media_iff (first :: rest)).mp hmedia
    simpa [isRtpOrRtcp] using hclass
  have hlow : 128 ≤ first.toNat := UInt8.le_iff_toNat_le.mp hrange.1
  have hhigh : first.toNat ≤ 191 := UInt8.le_iff_toNat_le.mp hrange.2
  apply UInt8.toNat_inj.mp
  rw [UInt8.toNat_shiftRight, Nat.shiftRight_eq_div_pow]
  show first.toNat / 64 = 2
  omega

/-- The program takes media for RTCP by its second octet, and for want of twelve octets. -/
theorem Frame.isRtcp_of_media {frame : Frame} {first : UInt8} {rest : Bytes}
    (hpayload : frame.payload = first :: rest) (hmedia : classify (first :: rest) = .media) :
    frame.isRtcp =
      if 12 ≤ frame.payload.length + frame.padding.length then
        isRtcpType (octet (frame.payload ++ frame.padding) 1)
      else true := by
  unfold Frame.isRtcp Frame.load
  dsimp only
  rw [List.length_append]
  by_cases hlong : 12 ≤ frame.payload.length + frame.padding.length
  · have hlength : ((frame.payload ++ frame.padding).take 12).length = 12 := by
      rw [List.length_take, List.length_append]
      omega
    have hversion : octet (frame.payload ++ frame.padding) 0 >>> 6 = 2 := by
      rw [hpayload]
      exact version_of_media hmedia
    rw [if_pos hlong, if_pos hlong]
    dsimp only
    unfold rtpMediaSsrc
    rw [hlength, octet_take (by decide), octet_take (by decide), hversion]
    cases isRtcpType (octet (frame.payload ++ frame.padding) 1) with
    | true => rfl
    | false => rfl
  · rw [if_neg hlong, if_neg hlong]

/-- Assumes: the payload is media. The program and the UDP backend classify it alike exactly when
the frame shows its type. -/
theorem Frame.isRtcp_eq_iff {frame : Frame} (hmedia : classify frame.payload = .media) :
    frame.isRtcp = Datapath.isRtcp frame.payload ↔ frame.ShowsType := by
  obtain ⟨first, rest, hpayload⟩ : ∃ first rest, frame.payload = first :: rest := by
    cases hcases : frame.payload with
    | nil => exact absurd hmedia (by rw [hcases]; decide)
    | cons first rest => exact ⟨first, rest, rfl⟩
  have hmedia' : classify (first :: rest) = .media := hpayload ▸ hmedia
  rw [Frame.isRtcp_of_media hpayload hmedia', hpayload, Xdp.isRtcp_of_media hmedia']
  unfold Frame.ShowsType
  rw [hpayload]
  cases rest with
  | nil =>
    have hpadding : octet ([first] ++ frame.padding) 1 = octet frame.padding 0 := by
      simp [octet]
    rw [hpadding]
    by_cases hlong : 12 ≤ [first].length + frame.padding.length
    · simp only [hlong]
      simp
    · simp only [hlong]
      simp
  | cons second rest =>
    have hsecond : octet (first :: second :: rest ++ frame.padding) 1 = second := rfl
    have hsecond' : octet (first :: second :: rest) 1 = second := rfl
    rw [hsecond, hsecond']
    by_cases hlong : 12 ≤ (first :: second :: rest).length + frame.padding.length
    · simp only [hlong]
      simp
    · simp only [List.head?_cons, Option.any_some]
      cases isRtcpType second with
      | true => simp
      | false => simp

/-! ### The two backends -/

section Backends

variable {endpoint : EndpointId} {rule : ForwardRule} {kernel : RelayAction} {inner : Inner}
  {frame : Frame} {helpers : Helpers}

/-- What the program does with an accepted datagram of a flow with a destination. -/
theorem RelayAction.forwardInKernel_of_accepted
    (haccepted : (kernel.toFlowAction.admission frame).1 = .accepted)
    (hdestination : kernel.outIpv4 ≠ 0 ∧ kernel.outPort ≠ 0)
    (hrtcp : kernel.rtcpToUserspace ≠ 0) (hfib : helpers.fibSuccess = true)
    (hxsk : helpers.xskRedirect = true) :
    (kernel.forwardInKernel helpers frame).1 = if frame.isRtcp then .redirect else .forward := by
  unfold RelayAction.forwardInKernel Helpers.handUp
  rcases hresult : kernel.toFlowAction.admission frame with ⟨gate, action⟩
  rw [hresult] at haccepted
  obtain rfl : gate = .accepted := haccepted
  dsimp only
  rw [if_neg (not_or.mpr hdestination), hfib, hxsk]
  cases frame.isRtcp with
  | true => simp [hrtcp]
  | false => simp

/-- Admission forgets no latch. -/
theorem latched_admission_isSome (inner : Inner) (rule : ForwardRule) (arrival : Arrival)
    (other : EndpointId) (hother : (inner.latched other).isSome) :
    ((inner.admission rule arrival).2.latched other).isSome := by
  by_cases hhere : other = arrival.endpoint
  swap
  · rw [(inner.admission_frame rule arrival).2.2 other hhere]
    exact hother
  subst hhere
  unfold Inner.admission
  split
  · exact hother
  split
  · exact hother
  · exact hother
  split
  · exact hother
  split
  · obtain ⟨latch, hlatch⟩ := Option.isSome_iff_exists.mp hother
    have hkept : (updateLatch (inner.latched arrival.endpoint) arrival.source
        (rtpMediaSsrc arrival.payload)).2.isSome := by
      rw [hlatch]
      unfold updateLatch
      split
      · rfl
      · rfl
      · rfl
    simpa [Inner.setLatched] using hkept
  · exact hother

/-- What the UDP backend does with an admitted datagram of a flow with a destination. -/
theorem dispatch_of_admitted (arrival : Arrival)
    (hflow : inner.flows arrival.endpoint = some (.forward rule))
    (hadmitted : (inner.admission rule arrival).1 = true)
    (hdestination : (inner.latched rule.outEndpoint).isSome ∨ rule.outDst.isSome)
    (hout : inner.endpoints rule.outEndpoint = true) (hrtcp : rule.rtcpToUserspace = true) :
    if Datapath.isRtcp arrival.payload then
      ∃ packet, (inner.dispatch arrival).1 = .handedUp packet
    else ∃ destination, (inner.dispatch arrival).1 = .forwarded rule.outEndpoint destination := by
  have hlatched := latched_admission_isSome inner rule arrival rule.outEndpoint
  have hendpoints : (inner.admission rule arrival).2.endpoints = inner.endpoints := by
    unfold Inner.admission
    split
    · rfl
    split
    · rfl
    · rfl
    split
    · rfl
    split
    · rfl
    · rfl
  unfold Inner.dispatch
  rw [hflow]
  dsimp only
  rcases hresult : inner.admission rule arrival with ⟨accepted, admitted⟩
  rw [hresult] at hadmitted hlatched hendpoints
  obtain rfl : accepted = true := hadmitted
  dsimp only at hlatched hendpoints ⊢
  rw [hrtcp]
  cases Datapath.isRtcp arrival.payload with
  | true => simp
  | false =>
    have hresolved : ∃ destination,
        ((admitted.latched rule.outEndpoint).map (·.source)).or rule.outDst = some destination := by
      apply Option.isSome_iff_exists.mp
      rcases hdestination with hlatch | hdst
      · simp [hlatched hlatch]
      · simp [hdst]
    obtain ⟨destination, hresolved⟩ := hresolved
    simp [hresolved, Inner.countAccepted, Inner.setStats, hendpoints, hout]

/-- The two backends hand the same RTCP up. Assumes: a forwarding flow in both that wants its RTCP
in userspace, with a destination (in the kernel down to the next hop and the socket of the queue),
and a datagram that both admit. The program passes it up exactly when the UDP backend does, and
forwards it exactly when the UDP backend does, if and only if the frame shows the type. -/
theorem hand_up_agrees_iff (hflow : inner.flows endpoint = some (.forward rule))
    (huser : rule.rtcpToUserspace = true) (hkernel : kernel.rtcpToUserspace ≠ 0)
    (hdestination : (inner.latched rule.outEndpoint).isSome ∨ rule.outDst.isSome)
    (hout : inner.endpoints rule.outEndpoint = true)
    (hkernelDestination : kernel.outIpv4 ≠ 0 ∧ kernel.outPort ≠ 0)
    (hfib : helpers.fibSuccess = true) (hxsk : helpers.xskRedirect = true)
    (hadmitted : (inner.admission rule (frame.arrival endpoint)).1 = true)
    (haccepted : (kernel.toFlowAction.admission frame).1 = .accepted) :
    (((kernel.forwardInKernel helpers frame).1 = .redirect ↔
          ∃ packet, (inner.dispatch (frame.arrival endpoint)).1 = .handedUp packet) ∧
        ((kernel.forwardInKernel helpers frame).1 = .forward ↔
          ∃ out destination,
            (inner.dispatch (frame.arrival endpoint)).1 = .forwarded out destination)) ↔
      frame.ShowsType := by
  have hmedia : classify frame.payload = .media := by
    by_contra hother
    have hrefused : (inner.admission rule (frame.arrival endpoint)).1 = false := by
      unfold Inner.admission
      rw [if_pos (show classify (frame.arrival endpoint).payload ≠ .media from hother)]
    rw [hrefused] at hadmitted
    exact Bool.noConfusion hadmitted
  rw [← Frame.isRtcp_eq_iff hmedia,
    RelayAction.forwardInKernel_of_accepted haccepted hkernelDestination hkernel hfib hxsk]
  have hdispatch := dispatch_of_admitted (frame.arrival endpoint) hflow hadmitted
    hdestination hout huser
  have hpayload : (frame.arrival endpoint).payload = frame.payload := rfl
  rw [hpayload] at hdispatch
  cases hrtcp : Datapath.isRtcp frame.payload with
  | true =>
    rw [hrtcp] at hdispatch
    obtain ⟨packet, hpacket⟩ := hdispatch
    rw [hpacket]
    cases frame.isRtcp with
    | true => simp
    | false => simp
  | false =>
    rw [hrtcp] at hdispatch
    obtain ⟨destination, hforwarded⟩ := hdispatch
    rw [hforwarded]
    cases frame.isRtcp with
    | true => simp
    | false => simp

end Backends

/-! ### A flow that hands its RTCP up -/

/-- The sample flow with a destination, its RTCP wanted in userspace. -/
def floorRule : ForwardRule :=
  { openRule with outDst := some (.v4 9 5000), rtcpToUserspace := true }

def floorFlow : Inner := { openFlow with flows := fun _ ↦ some (.forward floorRule) }

def floorKernel : RelayAction where
  toFlowAction := openKernel
  outIpv4 := 9
  outPort := 5000
  rtcpToUserspace := 1

/-- A report without padding is handed up by both. -/
theorem report_handed_up :
    (reportFrame 1).ShowsType ∧
      (floorKernel.forwardInKernel ⟨true, true⟩ (reportFrame 1)).1 = .redirect ∧
      ∃ packet, (floorFlow.dispatch ((reportFrame 1).arrival 1)).1 = .handedUp packet := by
  have hshows : (reportFrame 1).ShowsType := Or.inr ⟨by decide, by decide⟩
  have hagrees := (@hand_up_agrees_iff 1 floorRule floorKernel floorFlow (reportFrame 1)
    ⟨true, true⟩ rfl rfl (by decide) (Or.inr rfl) rfl (by decide) rfl rfl (by decide)
    (by decide)).mpr hshows
  have hredirect : (floorKernel.forwardInKernel ⟨true, true⟩ (reportFrame 1)).1 = .redirect := by
    decide
  exact ⟨hshows, hredirect, hagrees.1.mp hredirect⟩

/-- A datagram of eight octets with a media payload type, admitted by both: the program passes it up
and the UDP backend forwards it. -/
theorem short_media_handed_up :
    let frame : Frame := ⟨1, 4000, [0x80, 0, 0, 1, 0, 0, 0, 0], []⟩
    (floorFlow.admission floorRule (frame.arrival 1)).1 = true ∧
      (floorKernel.toFlowAction.admission frame).1 = .accepted ∧
      (floorKernel.forwardInKernel ⟨true, true⟩ frame).1 = .redirect ∧
      (floorFlow.dispatch (frame.arrival 1)).1 = .forwarded 2 (.v4 9 5000) := by
  decide

end SiphonRtp.Xdp
