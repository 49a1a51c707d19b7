import SiphonRtp.Srtp.GcmContext
import SiphonRtp.Srtp.SecureLeg

/-!
# Rejected traffic is invisible

Every `unprotect` of this development leaves its state alone when it fails: the rollover anchor of
an SRTP stream is estimated on a copy and committed only after the tag verified, and the replay
windows record nothing before that. Whatever is interleaved with the genuine traffic of a leg, on
any SSRC and of either kind, a receiver that never saw the rejected datagrams returns the same
packets and ends in the same state.
-/

set_option autoImplicit false

namespace SiphonRtp.Srtp

open Machine

section Receiver

variable {σ β : Type*} (unprotect : σ → Bytes → Except SrtpError β × σ)

/-- From every state and for every sequence of datagrams, deleting those that were rejected leaves
the result of every other datagram and the final state as they were. -/
def RejectionsInvisible : Prop :=
  ∀ (state : σ) (datagrams : List Bytes),
    let accepted := loudInputs unprotect Except.isOk state datagrams
    trace unprotect state accepted =
        (trace unprotect state datagrams).filter (fun entry ↦ entry.2.isOk) ∧
      final unprotect state accepted = final unprotect state datagrams

variable {unprotect}

/-- Assumes: a receiver leaves its state alone on error. -/
theorem rejectionsInvisible_of_error
    (hstays : ∀ state datagram error, (unprotect state datagram).1 = .error error →
      (unprotect state datagram).2 = state) : RejectionsInvisible unprotect := by
  have hsilent : ∀ state datagram, (unprotect state datagram).1.isOk = false →
      (unprotect state datagram).2 = state := by
    intro state datagram hrejected
    rcases hresult : (unprotect state datagram).1 with error | plain
    · exact hstays state datagram error hresult
    · simp [hresult, Except.toBool] at hrejected
  exact fun state datagrams ↦
    ⟨trace_loudInputs hsilent state datagrams, final_loudInputs hsilent state datagrams⟩

end Receiver

/-- Rejected traffic is invisible. Along every sequence of packets, from every state, a packet that
is rejected can be left out: every other packet has the outcome it would have had without it. This
holds of the SRTP and SRTCP receivers of a secure leg, and of the AES-GCM SRTCP context of a floor
stream. Assumes nothing of the primitives, nor of how the packets came about. -/
theorem rejected_traffic_invisible (P : Primitives) :
    RejectionsInvisible (SecureLeg.unprotect P) ∧
      RejectionsInvisible (SrtcpGcmContext.unprotect P) := by
  constructor
  · exact rejectionsInvisible_of_error fun _ _ _ herror ↦ SecureLeg.unprotect_of_error P herror
  · exact rejectionsInvisible_of_error fun _ _ _ herror ↦
      SrtcpGcmContext.unprotect_of_error P herror

end SiphonRtp.Srtp
