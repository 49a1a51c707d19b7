import SiphonRtp.Engine.SeatGate
import SiphonRtp.Engine.SrtpBridge

/-!
# Refused traffic at the bridge and at a seat

The SRTP bridge and the gate of a room seat refuse a datagram for its source, for its
authentication, or because the reply latch does not know its source. The first two leave no trace:
the filter comes first, and a failed `unprotect` changes nothing. The latch comes last, though. What
it refuses has spent a slot of the replay window, and at the bridge also moved the contexts of the
egress leg, so a copy of an SRTCP packet that arrives first from another source makes the bridge
refuse the genuine one (`refused_copy_spends_replay`).

`RefusalsInvisible` says of a run that deleting the refused datagrams changes nothing else, and
`refusals_invisible` that both have it as long as the latch refuses nothing that went through SRTP.
-/

set_option autoImplicit false

namespace SiphonRtp.Engine

open Machine Datapath Srtp

section Invisible

variable {σ α β : Type*} (step : σ → α → β × σ) (passes : β → Bool)

/-- The datagrams that do not pass are invisible in a run: deleting them leaves the outcome of every
other one as it was, and each datagram has the outcome it would have without them. -/
structure RefusalsInvisible (start : σ) (inputs : List α) : Prop where
  deletable : trace step start (loudInputs step passes start inputs) =
    (trace step start inputs).filter fun entry ↦ passes entry.2
  unmoved : ∀ k input, inputs[k]? = some input →
    (step (final step start (loudInputs step passes start (inputs.take k))) input).1 =
      (step (final step start (inputs.take k)) input).1

variable {step passes}

/-- Assumes: along the run, what does not pass leaves the state where it was. -/
theorem refusalsInvisible_of_silent {start : σ} {inputs : List α}
    (hsilent : ∀ k input, inputs[k]? = some input →
      passes (step (final step start (inputs.take k)) input).1 = false →
        (step (final step start (inputs.take k)) input).2 = final step start (inputs.take k)) :
    RefusalsInvisible step passes start inputs := by
  refine ⟨(run_loudInputs hsilent).1, fun k input _ ↦ ?_⟩
  have hbefore : final step start (loudInputs step passes start (inputs.take k)) =
      final step start (inputs.take k) := by
    refine (run_loudInputs fun i other hother hquiet ↦ ?_).2
    obtain ⟨hik, hother'⟩ : i < k ∧ inputs[i]? = some other := by
      rw [List.getElem?_take] at hother
      split_ifs at hother with hik
      exact ⟨hik, hother⟩
    rw [List.take_take, Nat.min_eq_left hik.le] at hquiet ⊢
    exact hsilent i other hother' hquiet
  rw [hbefore]

end Invisible

/-! ### The bridge -/

/-- Whether a datagram was not refused. -/
def BridgeOutcome.passes : BridgeOutcome → Bool
  | .refused _ => false
  | _ => true

/-- The flow of the endpoint decrypts or encrypts. -/
def SrtpBridge.Secures (bridge : SrtpBridge) (endpoint : EndpointId) : Prop :=
  ∃ flow, bridge.flows endpoint = some flow ∧ (flow.ingressLeg.isSome ∨ flow.egressLeg.isSome)

/-- The latch of a flow rejects a datagram that passes the source filter and is decrypted and
encrypted as the flow asks. -/
def SrtpBridge.LatchRejects (P : Primitives) (bridge : SrtpBridge) (packet : RxPacket) : Prop :=
  ∃ flow plaintext out opened closed, bridge.flows packet.endpoint = some flow ∧
    flow.acceptedSource.accepts packet.source.ip = true ∧
    bridge.transform (SecureLeg.unprotect P) flow.ingressLeg packet.data =
      some (.ok plaintext, opened) ∧
    opened.transform (SecureLeg.protect P) flow.egressLeg plaintext = some (.ok out, closed) ∧
    (flow.admits packet.source plaintext).1 = .reject

theorem SrtpBridge.newSource_iff (P : Primitives) {bridge : SrtpBridge} {packet : RxPacket} :
    (bridge.handle P packet).1 = .refused .newSource ↔ bridge.LatchRejects P packet := by
  constructor
  · intro hrefused
    unfold handle at hrefused
    split at hrefused
    · cases hrefused
    next flow hflow =>
    split at hrefused
    · cases hrefused
    next hsource =>
    split at hrefused
    · cases hrefused
    · cases hrefused
    next plaintext opened hopened =>
    split at hrefused
    · cases hrefused
    · cases hrefused
    next out closed hclosed =>
    split at hrefused
    next hreject =>
      exact ⟨flow, plaintext, out, opened, closed, hflow, by simpa using hsource, hopened, hclosed,
        congrArg Prod.fst hreject⟩
    · cases hrefused
  · rintro ⟨flow, plaintext, out, opened, closed, hflow, hsource, hopened, hclosed, hreject⟩
    unfold handle
    rw [hflow]
    dsimp only
    rw [if_neg (by simp [hsource]), hopened]
    dsimp only
    rw [hclosed]
    cases hadmits : flow.admits packet.source plaintext with
    | mk verdict next =>
      rw [hadmits] at hreject
      subst hreject
      rfl

/-- A refused datagram changes nothing, unless the latch refused it on a flow that secures. -/
theorem SrtpBridge.handle_of_refused (P : Primitives) {bridge : SrtpBridge} {packet : RxPacket}
    (hrefused : (bridge.handle P packet).1.passes = false)
    (hlatch : bridge.LatchRejects P packet → ¬ bridge.Secures packet.endpoint) :
    (bridge.handle P packet).2 = bridge := by
  have hhandled := bridge.handled P packet
  rw [← newSource_iff] at hlatch
  generalize bridge.handle P packet = outcome at hhandled hrefused hlatch ⊢
  cases hhandled with
  | notOwned => rfl
  | unsignalled => rfl
  | undecryptable => rfl
  | dropped legs => exact nomatch hrefused
  | relayed => exact nomatch hrefused
  | latched => exact nomatch hrefused
  | newSource hflow legs hplain =>
    rename_i flow
    have hclear : flow.ingressLeg = none ∧ flow.egressLeg = none := by
      by_contra hsome
      refine hlatch rfl ⟨flow, hflow, ?_⟩
      cases hin : flow.ingressLeg with
      | some side => exact Or.inl rfl
      | none =>
        cases hout : flow.egressLeg with
        | some side => exact Or.inr rfl
        | none => exact absurd ⟨hin, hout⟩ hsome
    rw [hplain hclear.1 hclear.2]

/-! ### A seat -/

/-- A latch that refuses a datagram is left as it was. -/
theorem SymmetricLatch.admits_reject {latch next : SymmetricLatch} {source : SocketAddr}
    {ssrc : Option UInt32} (hreject : latch.admits source ssrc = (.reject, next)) :
    next = latch := by
  cases hverdict : sourceLatchVerdict latch.latch source ssrc with
  | keep => simp [admits, hverdict] at hreject
  | learn learned =>
    by_cases hssrc : learned.ssrc = none
    · simp [admits, hverdict, hssrc] at hreject
    · simp [admits, hverdict, hssrc] at hreject
  | reject =>
    simp only [admits, hverdict] at hreject
    exact (Prod.mk.inj hreject).2.symm

/-- A refused datagram changes nothing, unless it went through SRTP and the latch refused it. -/
theorem Seat.admits_of_refused (P : Primitives) {seat : Seat} {gate : SeatGate} {packet : RxPacket}
    (hrefused : (seat.admits P (gate, packet)).1.isOk = false)
    (hlatch : ∀ data secure, Cleared P seat gate packet data secure → gate.latch = true →
      (seat.reverseLatch.admits packet.source (rtpMediaSsrc data)).1 = .reject →
        seat.secure = none) :
    (seat.admits P (gate, packet)).2 = seat := by
  by_cases hcleared : ∃ data secure, Cleared P seat gate packet data secure
  · obtain ⟨data, secure, hcleared⟩ := hcleared
    obtain ⟨hopen, hlatching⟩ := admits_of_cleared P hcleared
    cases hon : gate.latch with
    | false =>
      rw [hopen hon] at hrefused
      exact nomatch hrefused
    | true =>
      cases hverdict : seat.reverseLatch.admits packet.source (rtpMediaSsrc data) with
      | mk verdict next =>
        cases verdict with
        | accept reply =>
          rw [(hlatching hon next).2 reply hverdict] at hrefused
          exact nomatch hrefused
        | reject =>
          have hplain := hlatch data secure hcleared hon (congrArg Prod.fst hverdict)
          have hsecure : secure = seat.secure := by
            have hopened := hcleared.opened
            rw [hplain] at hopened ⊢
            exact (Prod.mk.inj hopened).2.symm
          rw [(hlatching hon next).1 hverdict, SymmetricLatch.admits_reject hverdict, hsecure]
  · rw [admits_of_not_cleared P fun data secure hcleared' ↦ hcleared ⟨data, secure, hcleared'⟩]

/-! ### Runs -/

/-- Deleting the refused datagrams of a run leaves the bytes and the destination of every forwarded
one at a bridge, and every admitted one at a seat, as they were, and no refused datagram makes
another one be refused. Assumes: before each datagram, the latch does not reject it on a flow of the
bridge that decrypts or encrypts, nor at a secure seat that has decrypted it. -/
theorem refusals_invisible (P : Primitives) :
    (∀ (bridge : SrtpBridge) (packets : List RxPacket),
      (∀ k packet, packets[k]? = some packet →
        (final (SrtpBridge.handle P) bridge (packets.take k)).LatchRejects P packet →
          ¬ (final (SrtpBridge.handle P) bridge (packets.take k)).Secures packet.endpoint) →
        RefusalsInvisible (SrtpBridge.handle P) BridgeOutcome.passes bridge packets) ∧
      ∀ (seat : Seat) (inputs : List (SeatGate × RxPacket)),
        (∀ k gate packet data secure, inputs[k]? = some (gate, packet) →
          Cleared P (final (Seat.admits P) seat (inputs.take k)) gate packet data secure →
          gate.latch = true →
          ((final (Seat.admits P) seat (inputs.take k)).reverseLatch.admits packet.source
            (rtpMediaSsrc data)).1 = .reject →
            (final (Seat.admits P) seat (inputs.take k)).secure = none) →
          RefusalsInvisible (Seat.admits P) Except.isOk seat inputs := by
  constructor
  · intro bridge packets hlatch
    refine refusalsInvisible_of_silent fun k packet hpacket hrefused ↦ ?_
    exact SrtpBridge.handle_of_refused P hrefused (hlatch k packet hpacket)
  · intro seat inputs hlatch
    refine refusalsInvisible_of_silent fun k input hinput hrefused ↦ ?_
    refine Seat.admits_of_refused P hrefused fun data secure hcleared hon hreject ↦ ?_
    exact hlatch k input.1 input.2 data secure hinput hcleared hon hreject

/-- A replayed packet in between is invisible at the bridge. -/
theorem refusals_invisible_replay :
    RefusalsInvisible (SrtpBridge.handle transparent) BridgeOutcome.passes
      (SrtpBridge.new.register (samplePlan true))
      [securePacket (.v4 0x0A000001 4000) rtpPortion, securePacket (.v4 0x0A000001 4000) rtpPortion,
        securePacket (.v4 0x0A000001 4000) rtcpPortion] := by
  refine (refusals_invisible transparent).1 _ _ fun k packet hpacket hrejects ↦ ?_
  have houtcomes : ∀ outcome ∈ outputs (SrtpBridge.handle transparent)
      (SrtpBridge.new.register (samplePlan true))
      [securePacket (.v4 0x0A000001 4000) rtpPortion, securePacket (.v4 0x0A000001 4000) rtpPortion,
        securePacket (.v4 0x0A000001 4000) rtcpPortion], outcome ≠ .refused .newSource := by
    decide +kernel
  have hat := getElem?_outputs_of_eq (SrtpBridge.handle transparent) hpacket
    (SrtpBridge.new.register (samplePlan true))
  exact absurd ((SrtpBridge.newSource_iff transparent).mpr hrejects)
    (houtcomes _ (List.mem_of_getElem? hat))

/-- A copy of an SRTCP packet from another source is refused by the latch, and then the packet
itself is refused as a replay. Without the copy it is forwarded. -/
theorem refused_copy_spends_replay :
    let bridge := SrtpBridge.new.register (samplePlan true)
    let offerer : SocketAddr := .v4 0x0A000002 5000
    let other : SocketAddr := .v4 0x0A000063 9999
    let destination : SocketAddr := .v4 0x0A000001 4000
    outputs (SrtpBridge.handle transparent) bridge
        [securePacket offerer rtpPortion, securePacket other rtcpPortion,
          securePacket offerer rtcpPortion] =
        [.forwarded 2 destination rtpPortion, .refused .newSource, .refused .undecryptable] ∧
      outputs (SrtpBridge.handle transparent) bridge
        [securePacket offerer rtpPortion, securePacket offerer rtcpPortion] =
        [.forwarded 2 destination rtpPortion, .forwarded 2 destination (rtcpPortion.take 8)] := by
  decide +kernel

end SiphonRtp.Engine
