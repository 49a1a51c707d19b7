import SiphonRtp.Srtp.RtcpContext

/-!
# The send index of an SRTCP context

`SrtcpContext::protect` masks its running index to 31 bits as it increments it, so the index is the
number of packets protected so far modulo `2³¹` (`toNat_sendIndex_final`). No index is refused:
after `2³¹` packets the context starts over, and the keystream of an SSRC is used again.
`index_fresh_iff` says exactly when that happens. The AES-GCM context of the same crate stops at the
last index instead.
-/

set_option autoImplicit false

namespace SiphonRtp.Srtp

open Machine

namespace SrtcpContext

variable (P : Primitives)

/-- The index `protect` uses for the packet at a position of a run: the send index of the state it
is called in. -/
def indexAt (context : SrtcpContext) (packets : List Bytes) (k : ℕ) : UInt32 :=
  (final (SrtcpContext.protect P) context (packets.take k)).sendIndex

/-- A protected packet advances the index modulo `2³¹`, a refused one leaves it alone. -/
theorem toNat_sendIndex_protect {context : SrtcpContext} (hfits : context.sendIndex.toNat < 2 ^ 31)
    (rtcp : Bytes) :
    (context.protect P rtcp).2.sendIndex.toNat =
      (context.sendIndex.toNat + if wellFormedRtcp rtcp then 1 else 0) % 2 ^ 31 := by
  cases hformed : wellFormedRtcp rtcp with
  | false =>
    obtain ⟨error, hcheck⟩ := exists_error_of_not_wellFormed hformed
    rw [protect_of_check_error P hcheck]
    exact (Nat.mod_eq_of_lt hfits).symm
  | true =>
    rw [(protect_of_check P context (checkRtcp_of_wellFormed hformed)).2]
    have hone : (1 : UInt32).toNat = 1 := rfl
    simp only [↓reduceIte, toNat_and_indexMask, UInt32.toNat_add]
    omega

/-- The index is the number of packets protected so far, modulo `2³¹`. Assumes: the run starts at
index zero. -/
theorem toNat_sendIndex_final {context : SrtcpContext} (hfresh : context.sendIndex = 0)
    (packets : List Bytes) :
    (final (SrtcpContext.protect P) context packets).sendIndex.toNat =
      packets.countP wellFormedRtcp % 2 ^ 31 := by
  have hrun : ∀ k ≤ packets.length,
      (final (SrtcpContext.protect P) context (packets.take k)).sendIndex.toNat =
        (packets.take k).countP wellFormedRtcp % 2 ^ 31 := by
    intro k hk
    refine final_take_induction (fun position (state : SrtcpContext) ↦ state.sendIndex.toNat =
      (packets.take position).countP wellFormedRtcp % 2 ^ 31) ?_ ?_ hk
    · rw [hfresh]
      rfl
    · intro j rtcp hrtcp hindex
      have hfits : (final (SrtcpContext.protect P) context (packets.take j)).sendIndex.toNat <
          2 ^ 31 := hindex ▸ Nat.mod_lt _ (by decide)
      rw [toNat_sendIndex_protect P hfits, hindex, List.take_add_one, hrtcp, Option.toList_some,
        List.countP_append, List.countP_singleton, Nat.mod_add_mod]
  have hwhole := hrun packets.length le_rfl
  rwa [List.take_length] at hwhole

/-- Two positions of a run use the same index exactly when the packets protected between them are a
multiple of `2³¹`. -/
theorem indexAt_eq_iff {context : SrtcpContext} (hfresh : context.sendIndex = 0)
    (packets : List Bytes) {i j : ℕ} (hij : i ≤ j) :
    context.indexAt P packets i = context.indexAt P packets j ↔
      ((packets.take j).drop i).countP wellFormedRtcp % 2 ^ 31 = 0 := by
  have hsplit : (packets.take j).countP wellFormedRtcp =
      (packets.take i).countP wellFormedRtcp +
        ((packets.take j).drop i).countP wellFormedRtcp := by
    have htake : packets.take i = (packets.take j).take i := by
      rw [List.take_take, Nat.min_eq_left hij]
    rw [htake, ← List.countP_append, List.take_append_drop]
  unfold indexAt
  rw [← UInt32.toNat_inj, toNat_sendIndex_final P hfresh, toNat_sendIndex_final P hfresh]
  omega

/-- Protecting succeeds exactly on well-formed packets. -/
theorem protect_isOk (context : SrtcpContext) (rtcp : Bytes) :
    (context.protect P rtcp).1.isOk = wellFormedRtcp rtcp := by
  cases hformed : wellFormedRtcp rtcp with
  | false =>
    obtain ⟨error, hcheck⟩ := exists_error_of_not_wellFormed hformed
    rw [protect_of_check_error P hcheck]
    rfl
  | true =>
    obtain ⟨⟨srtcp, hok⟩, -⟩ := protect_of_check P context (checkRtcp_of_wellFormed hformed)
    rw [hok]
    rfl

/-- The packet at a position of a run is protected exactly when it is well formed. -/
theorem isOk_outputs_iff (context : SrtcpContext) {packets : List Bytes} {k : ℕ} {rtcp : Bytes}
    (hrtcp : packets[k]? = some rtcp) :
    (∃ srtcp, (outputs (SrtcpContext.protect P) context packets)[k]? = some (.ok srtcp)) ↔
      wellFormedRtcp rtcp = true := by
  rw [getElem?_outputs_of_eq _ hrtcp,
    ← protect_isOk P (final (SrtcpContext.protect P) context (packets.take k)) rtcp]
  cases
    (SrtcpContext.protect P (final (SrtcpContext.protect P) context (packets.take k)) rtcp).1 with
  | error error => simp [Except.toBool]
  | ok srtcp => simp [Except.toBool]

/-- A packet protected along a run is encrypted with the index of its position and trailed with
it. -/
theorem sealed_at_indexAt (context : SrtcpContext) {packets : List Bytes} {k : ℕ}
    {rtcp srtcp : Bytes} (hrtcp : packets[k]? = some rtcp)
    (hok : (outputs (SrtcpContext.protect P) context packets)[k]? = some (.ok srtcp)) :
    let index := context.indexAt P packets k
    ∃ rest, srtcp = xorFrom clearHeaderLen (context.keystream P (rtcpSsrc rtcp) index) rtcp ++
      toBe 4 (encryptFlag ||| index).toNat ++ rest := by
  have hkey : (final (SrtcpContext.protect P) context (packets.take k)).SameKey context :=
    final_invariant (·.SameKey context)
      (fun state rtcp _ hstate ↦ (sameKey_protect P state rtcp).trans hstate) (.refl context)
  have hprotect := output_at (SrtcpContext.protect P) hrtcp hok
  unfold indexAt
  generalize final (SrtcpContext.protect P) context (packets.take k) = state at hkey hprotect ⊢
  unfold SrtcpContext.protect at hprotect
  split at hprotect
  · cases hprotect
  · obtain rfl := Except.ok.inj hprotect
    simp only [keystream, hkey.sessionKey, hkey.sessionSalt, List.append_assoc]
    exact ⟨_, rfl⟩

/-- When a context fresh from its key reuses no index. For every sequence of packets, a packet that
is protected is encrypted with the index of its position and carries it, and no two successful
`protect` calls for one SSRC use the same index if and only if no two well-formed packets of one
SSRC are a multiple of `2³¹` well-formed packets apart. -/
theorem index_fresh_iff (material : SrtpKeyMaterial) (packets : List Bytes) :
    let context := fromKeyMaterial P material
    let results := outputs (SrtcpContext.protect P) context packets
    (∀ k rtcp srtcp, packets[k]? = some rtcp → results[k]? = some (.ok srtcp) →
      let index := context.indexAt P packets k
      ∃ rest, srtcp = xorFrom clearHeaderLen (context.keystream P (rtcpSsrc rtcp) index) rtcp ++
        toBe 4 (encryptFlag ||| index).toNat ++ rest) ∧
    ((∀ i j first second, i < j → packets[i]? = some first → packets[j]? = some second →
        (∃ srtcp, results[i]? = some (.ok srtcp)) → (∃ srtcp, results[j]? = some (.ok srtcp)) →
          rtcpSsrc first = rtcpSsrc second →
            context.indexAt P packets i ≠ context.indexAt P packets j) ↔
      ∀ i j first second, i < j → packets[i]? = some first → packets[j]? = some second →
        wellFormedRtcp first = true → wellFormedRtcp second = true →
          rtcpSsrc first = rtcpSsrc second →
            ((packets.take j).drop i).countP wellFormedRtcp % 2 ^ 31 ≠ 0) := by
  intro context results
  have hfresh : context.sendIndex = 0 := rfl
  refine ⟨fun k rtcp srtcp hrtcp hok ↦ sealed_at_indexAt P context hrtcp hok, ?_, ?_⟩
  · intro hdistinct i j first second hij hfirst hsecond hformed hother hssrc hmultiple
    apply hdistinct i j first second hij hfirst hsecond
    · exact (isOk_outputs_iff P context hfirst).mpr hformed
    · exact (isOk_outputs_iff P context hsecond).mpr hother
    · exact hssrc
    · exact (indexAt_eq_iff P hfresh packets hij.le).mpr hmultiple
  · intro hapart i j first second hij hfirst hsecond hok hother hssrc hsame
    apply hapart i j first second hij hfirst hsecond
    · exact (isOk_outputs_iff P context hfirst).mp hok
    · exact (isOk_outputs_iff P context hsecond).mp hother
    · exact hssrc
    · exact (indexAt_eq_iff P hfresh packets hij.le).mp hsame

end SrtcpContext

/-- A context that has protected `2³¹` packets starts over: the first packet and the one after them
succeed, for one SSRC, at the same index. -/
theorem index_reused_after_wrap :
    wellFormedRtcp bareRtcp = true ∧
      ∀ (P : Primitives) (material : SrtpKeyMaterial),
        let context := SrtcpContext.fromKeyMaterial P material
        let packets := List.replicate (2 ^ 31 + 1) bareRtcp
        let results := outputs (SrtcpContext.protect P) context packets
        packets[0]? = some bareRtcp ∧ packets[2 ^ 31]? = some bareRtcp ∧
          (∃ srtcp, results[0]? = some (.ok srtcp)) ∧
          (∃ srtcp, results[2 ^ 31]? = some (.ok srtcp)) ∧
          context.indexAt P packets 0 = context.indexAt P packets (2 ^ 31) := by
  have hformed : wellFormedRtcp bareRtcp = true := by decide
  refine ⟨hformed, ?_⟩
  intro P material context packets results
  have hfirst : packets[0]? = some bareRtcp := List.getElem?_replicate_of_lt (Nat.succ_pos _)
  have hlast : packets[2 ^ 31]? = some bareRtcp :=
    List.getElem?_replicate_of_lt (Nat.lt_succ_self _)
  refine ⟨hfirst, hlast, (SrtcpContext.isOk_outputs_iff P context hfirst).mpr hformed,
    (SrtcpContext.isOk_outputs_iff P context hlast).mpr hformed, ?_⟩
  apply (SrtcpContext.indexAt_eq_iff P rfl packets (Nat.zero_le _)).mpr
  have hcount : ((packets.take (2 ^ 31)).drop 0).countP wellFormedRtcp = 2 ^ 31 := by
    rw [List.drop_zero, List.take_replicate, List.countP_replicate, if_pos hformed]
    exact Nat.min_eq_left (Nat.le_succ _)
  rw [hcount, Nat.mod_self]

end SiphonRtp.Srtp
