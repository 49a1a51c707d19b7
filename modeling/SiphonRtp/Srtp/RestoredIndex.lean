import SiphonRtp.Srtp.GcmContext
import SiphonRtp.Srtp.Rollover
import Mathlib.Data.Nat.Bitwise

/-!
# Indices after a checkpoint

What `seed_stream` and `set_send_index` of `siphon-rtp-srtp` do to the packet indices when a standby
takes over with values from a checkpoint.

The first packet of a stream without a highest sequence number takes its sequence number for its
index, whatever the rollover counter is, so the index and the counter of a stream restored with a
counter and no sequence number do not belong together. The SRTCP setter does not mask its argument
to 31 bits: the index that goes into the IV then has a bit that the trailer has no room for, and at
the last 32-bit value the increment overflows.
-/

set_option autoImplicit false

namespace SiphonRtp.Srtp

open Machine

/-! ### Rollover of a restored stream -/

/-- The index and the rollover counter of a packet belong together. -/
def Consistent (seq : UInt16) (pair : ℕ × UInt32) : Prop :=
  pair.1 = pair.2.toNat * 2 ^ 16 + seq.toNat

theorem StreamState.consistent_indexFor_iff (state : StreamState) (seq : UInt16) :
    Consistent seq (state.indexFor seq).1 ↔ state.highestSeq.isSome = true ∨ state.roc = 0 := by
  rcases hhighest : state.highestSeq with _ | highest
  · rw [indexFor_of_none hhighest, Consistent, ← UInt32.toNat_inj, UInt32.toNat_zero]
    simp only [Option.isSome_none, Bool.false_eq_true, false_or]
    omega
  · have hpair := (@indexFor_cases state seq _ hhighest).1
    simp only [Option.isSome_some, true_or, iff_true]
    rw [Consistent, hpair, packetIndex_eq]

/-- A stream that has seen a packet has a highest sequence number. -/
theorem StreamState.isSome_highestSeq_indexFor (state : StreamState) (seq : UInt16) :
    (state.indexFor seq).2.highestSeq.isSome = true := by
  rcases hhighest : state.highestSeq with _ | highest
  · rw [indexFor_of_none hhighest]
    rfl
  · rcases (@indexFor_cases state seq _ hhighest).2 with h | h
    · rw [h, hhighest]
      rfl
    · rw [h]
      rfl

/-- After its first packet a stream gives out pairs that belong together. -/
theorem StreamState.consistent_of_seen {state : StreamState}
    (hseen : state.highestSeq.isSome = true ∨ state.roc = 0) (seqs : List UInt16) :
    ∀ entry ∈ trace StreamState.indexFor state seqs, Consistent entry.1 entry.2 := by
  induction seqs generalizing state with
  | nil =>
    intro entry hmem
    exact absurd hmem List.not_mem_nil
  | cons seq seqs ih =>
    intro entry hmem
    rw [trace_cons, List.mem_cons] at hmem
    rcases hmem with rfl | hmem
    · exact (state.consistent_indexFor_iff seq).mpr hseen
    · exact ih (.inl (state.isSome_highestSeq_indexFor seq)) entry hmem

/-- The first packet of a restored stream has an index and a rollover counter that belong together
exactly if the checkpoint had a highest sequence number, or a counter of zero. Then the same is true
of every later packet of the stream. -/
theorem restored_index_consistent_iff (context : SrtpContext) (rollover : StreamRollover) :
    let stream := (context.seedStream rollover).stream rollover.ssrc
    (∀ seq, Consistent seq (stream.indexFor seq).1 ↔
      rollover.highestSeq.isSome = true ∨ rollover.roc = 0) ∧
    (rollover.highestSeq.isSome = true ∨ rollover.roc = 0 →
      ∀ seqs, ∀ entry ∈ trace StreamState.indexFor stream seqs, Consistent entry.1 entry.2) := by
  intro stream
  have hstream : stream = rollover.seeded :=
    SrtpContext.stream_setStream_self context rollover.ssrc rollover.seeded
  rw [hstream]
  exact ⟨rollover.seeded.consistent_indexFor_iff,
    @StreamState.consistent_of_seen rollover.seeded⟩

/-- A context of zero keys that has seen nothing. -/
def quietContext : SrtpContext where
  sessionKey := Vector.replicate 16 0
  sessionSalt := Vector.replicate 14 0
  sessionAuth := Vector.replicate 20 0
  streams := ∅
  mki := none

theorem restored_anchor_consistent :
    Consistent 7 (((quietContext.seedStream ⟨1, 5, some 3⟩).stream 1).indexFor 7).1 :=
  ((restored_index_consistent_iff quietContext ⟨1, 5, some 3⟩).1 7).mpr (.inl rfl)

/-- A counter without a sequence number: the index is not that of the counter. -/
theorem restored_counter_inconsistent :
    (((quietContext.seedStream ⟨1, 5, none⟩).stream 1).indexFor 7).1 = (7, 5) ∧
      ¬ Consistent 7 (((quietContext.seedStream ⟨1, 5, none⟩).stream 1).indexFor 7).1 := by
  exact ⟨rfl, by unfold Consistent; decide⟩

/-! ### The SRTCP index of a restored context -/

namespace SrtcpContext

variable (P : Primitives)

/-- What a sender does with its context. -/
inductive SendOp
  | setSendIndex (index : UInt32)
  | protect (rtcp : Bytes)

def sendStep (context : SrtcpContext) : SendOp → SrtcpContext
  | .setSendIndex index => context.setSendIndex index
  | .protect rtcp => (context.protect P rtcp).2

/-- The context after some operations. -/
def sent (context : SrtcpContext) (ops : List SendOp) : SrtcpContext :=
  ops.foldl (sendStep P) context

/-- The part of a protected packet that is authenticated, up to the trailer. -/
def sealedPart (context : SrtcpContext) (rtcp : Bytes) : Bytes :=
  xorFrom clearHeaderLen (context.keystream P (rtcpSsrc rtcp) context.sendIndex) rtcp ++
    toBe 4 (encryptFlag ||| context.sendIndex).toNat

/-- A packet that is protected soundly: the increment of the index does not overflow, the trailer
carries the index that the IV was made with, and a fresh receiver under the key reads the packet. -/
structure ProtectsSoundly (context receiver : SrtcpContext) (rtcp : Bytes) : Prop where
  no_overflow : context.sendIndex.toNat + 1 < 2 ^ 32
  succeeds : (context.protect P rtcp).1 =
    .ok (context.sealedPart P rtcp ++ mkiField context.mki ++
      hmacSha180 P context.sessionAuth (context.sealedPart P rtcp))
  index_eq : indexField (context.sealedPart P rtcp) &&& indexMask = context.sendIndex
  recovered : ∀ srtcp, (context.protect P rtcp).1 = .ok srtcp →
    (receiver.unprotect P srtcp).1 = .ok rtcp

theorem indexField_sealedPart (context : SrtcpContext) (rtcp : Bytes) :
    indexField (context.sealedPart P rtcp) = encryptFlag ||| context.sendIndex := by
  have hlength : (context.sealedPart P rtcp).length - indexTrailerLen = rtcp.length := by
    simp [sealedPart, indexTrailerLen]
  have hread := readU32_append_right
    (xorFrom clearHeaderLen (context.keystream P (rtcpSsrc rtcp) context.sendIndex) rtcp)
    (toBe 4 (encryptFlag ||| context.sendIndex).toNat) 0
  rw [indexField, hlength, sealedPart]
  rw [length_xorFrom, Nat.add_zero] at hread
  have htrailer := readU32_toBe (encryptFlag ||| context.sendIndex).toNat []
  rw [List.append_nil] at htrailer
  rw [hread, htrailer, UInt32.ofNat_toNat]

/-- The trailer carries the index that the IV was made with exactly if it fits 31 bits. -/
theorem index_eq_iff (context : SrtcpContext) (rtcp : Bytes) :
    indexField (context.sealedPart P rtcp) &&& indexMask = context.sendIndex ↔
      context.sendIndex.toNat < 2 ^ 31 := by
  have hflag : encryptFlag.toNat = 2 ^ 31 := rfl
  have hmod : (2 ^ 31 ||| context.sendIndex.toNat) % 2 ^ 31 = context.sendIndex.toNat % 2 ^ 31 := by
    rw [Nat.or_mod_two_pow, Nat.mod_self, Nat.zero_or]
  rw [indexField_sealedPart, ← UInt32.toNat_inj, toNat_and_indexMask, UInt32.toNat_or, hflag]
  omega

theorem encrypted_sealedPart (context : SrtcpContext) (rtcp : Bytes) :
    indexField (context.sealedPart P rtcp) &&& encryptFlag ≠ 0 := by
  rw [indexField_sealedPart]
  intro hzero
  have hflag : encryptFlag.toNat = 2 ^ 31 := rfl
  have hnat := congrArg UInt32.toNat hzero
  rw [UInt32.toNat_and, UInt32.toNat_or, hflag, Nat.and_two_pow, Nat.testBit_or,
    Nat.testBit_two_pow_self] at hnat
  simp at hnat

theorem sealedPart_take (context : SrtcpContext) (rtcp : Bytes) :
    (context.sealedPart P rtcp).take
        ((context.sealedPart P rtcp).length - indexTrailerLen) =
      xorFrom clearHeaderLen (context.keystream P (rtcpSsrc rtcp) context.sendIndex) rtcp := by
  have hlength : (context.sealedPart P rtcp).length - indexTrailerLen =
      (xorFrom clearHeaderLen
        (context.keystream P (rtcpSsrc rtcp) context.sendIndex) rtcp).length := by
    simp [sealedPart, indexTrailerLen]
  rw [hlength, sealedPart, List.take_left]

/-- The octets of the clear header are those of the packet. -/
theorem octet_sealedPart {context : SrtcpContext} {rtcp : Bytes}
    (hlength : clearHeaderLen ≤ rtcp.length) {position : ℕ}
    (hposition : position < clearHeaderLen) :
    octet (context.sealedPart P rtcp) position = octet rtcp position := by
  rw [sealedPart, octet_append_left (by rw [length_xorFrom]; omega),
    octet_xorFrom _ hposition hlength]

theorem rtcpSsrc_sealedPart {context : SrtcpContext} {rtcp : Bytes}
    (hlength : clearHeaderLen ≤ rtcp.length) :
    rtcpSsrc (context.sealedPart P rtcp) = rtcpSsrc rtcp := by
  unfold rtcpSsrc readU32
  rw [octet_sealedPart P hlength (by decide), octet_sealedPart P hlength (by decide),
    octet_sealedPart P hlength (by decide), octet_sealedPart P hlength (by decide)]

/-- A sealed part with an index of 31 bits decrypts to its packet. -/
theorem decrypted_sealedPart {context : SrtcpContext} {rtcp : Bytes}
    (hlength : clearHeaderLen ≤ rtcp.length) (hindex : context.sendIndex.toNat < 2 ^ 31) :
    context.decrypted P (context.sealedPart P rtcp) = rtcp := by
  unfold decrypted
  rw [if_pos (encrypted_sealedPart P context rtcp), (index_eq_iff P context rtcp).mpr hindex,
    rtcpSsrc_sealedPart P hlength, sealedPart_take, xorFrom_xorFrom _ hlength]

theorem checkRtcp_ok_iff {rtcp : Bytes} :
    checkRtcp rtcp = .ok () ↔ clearHeaderLen ≤ rtcp.length ∧ octet rtcp 0 >>> 6 = 2 := by
  unfold checkRtcp
  split_ifs with hshort hversion
  · simp only [false_iff]
    omega
  · simp [hversion]
  · simp only [true_iff]
    exact ⟨by omega, not_not.mp hversion⟩

theorem unprotect_protect {context receiver : SrtcpContext} (hkey : receiver.SameKey context)
    (hfresh : receiver.recvReplay = {}) {rtcp : Bytes} (hcheck : checkRtcp rtcp = .ok ())
    (hindex : context.sendIndex.toNat < 2 ^ 31) :
    (receiver.unprotect P (context.sealedPart P rtcp ++ mkiField context.mki ++
      hmacSha180 P context.sessionAuth (context.sealedPart P rtcp))).1 = .ok rtcp := by
  obtain ⟨hlength, hversion⟩ := checkRtcp_ok_iff.mp hcheck
  have hsealed : (context.sealedPart P rtcp).length = rtcp.length + 4 := by
    simp [sealedPart]
  have htag : (context.sealedPart P rtcp ++ mkiField context.mki ++
      hmacSha180 P context.sessionAuth (context.sealedPart P rtcp)).length - authTagLen =
        (context.sealedPart P rtcp ++ mkiField context.mki).length := by
    rw [List.length_append, length_hmacSha180, Nat.add_sub_cancel]
  have hlong : ¬ (context.sealedPart P rtcp ++ mkiField context.mki ++
      hmacSha180 P context.sessionAuth (context.sealedPart P rtcp)).length <
        clearHeaderLen + indexTrailerLen + mkiLen context.mki + authTagLen := by
    rw [List.length_append, List.length_append, length_mkiField, length_hmacSha180, indexTrailerLen]
    omega
  have hfirst : octet (context.sealedPart P rtcp ++ mkiField context.mki ++
      hmacSha180 P context.sessionAuth (context.sealedPart P rtcp)) 0 = octet rtcp 0 := by
    rw [List.append_assoc, octet_append_left (by omega), octet_sealedPart P hlength (by decide)]
  have hnew : ∀ index, ReplayWindow.isReplay {} index = false := fun _ ↦ rfl
  unfold unprotect
  rw [hkey.mki, if_neg hlong, hfirst, if_neg (not_not.mpr hversion), htag]
  rw [List.take_left, List.drop_left, stripMki_append]
  dsimp only
  rw [hfresh, hnew, if_neg Bool.false_ne_true, hkey.sessionAuth, if_neg (not_not.mpr rfl),
    hkey.decrypted, decrypted_sealedPart P hlength hindex]

theorem protectsSoundly_iff {context receiver : SrtcpContext} (hkey : receiver.SameKey context)
    (hfresh : receiver.recvReplay = {}) {rtcp : Bytes} (hcheck : checkRtcp rtcp = .ok ()) :
    ProtectsSoundly P context receiver rtcp ↔ context.sendIndex.toNat < 2 ^ 31 := by
  have hprotect : (context.protect P rtcp).1 =
      .ok (context.sealedPart P rtcp ++ mkiField context.mki ++
        hmacSha180 P context.sessionAuth (context.sealedPart P rtcp)) := by
    simp only [protect, hcheck]
    rfl
  constructor
  · intro hsound
    exact (index_eq_iff P context rtcp).mp hsound.index_eq
  · intro hindex
    refine ⟨by omega, hprotect, (index_eq_iff P context rtcp).mpr hindex, ?_⟩
    intro srtcp hsrtcp
    rw [hprotect] at hsrtcp
    rw [← Except.ok.inj hsrtcp]
    exact unprotect_protect P hkey hfresh hcheck hindex

/-! ### Whole runs -/

/-- An operation keeps the key, and an index of 31 bits unless it sets another one. -/
theorem sameKey_sendStep (context : SrtcpContext) (op : SendOp) :
    context.SameKey (sendStep P context op) := by
  cases op with
  | setSendIndex index => exact ⟨rfl, rfl, rfl, rfl⟩
  | protect rtcp =>
    rw [sendStep]
    rcases hcheck : checkRtcp rtcp with error | _
    · rw [protect_of_check_error P hcheck]
      exact SameKey.refl context
    · rw [(protect_of_check P context hcheck).2]
      exact ⟨rfl, rfl, rfl, rfl⟩

theorem sameKey_sent (context : SrtcpContext) (ops : List SendOp) :
    context.SameKey (sent P context ops) := by
  induction ops generalizing context with
  | nil => exact SameKey.refl context
  | cons op ops ih => exact (sameKey_sendStep P context op).trans (ih (sendStep P context op))

theorem sendIndex_sendStep_lt {context : SrtcpContext} (hfits : context.sendIndex.toNat < 2 ^ 31)
    {op : SendOp} (hop : ∀ index, op = .setSendIndex index → index.toNat < 2 ^ 31) :
    (sendStep P context op).sendIndex.toNat < 2 ^ 31 := by
  cases op with
  | setSendIndex index => exact hop index rfl
  | protect rtcp =>
    rw [sendStep]
    rcases hcheck : checkRtcp rtcp with error | _
    · rw [protect_of_check_error P hcheck]
      exact hfits
    · rw [(protect_of_check P context hcheck).2, toNat_and_indexMask]
      exact Nat.mod_lt _ (by decide)

theorem sendIndex_sent_lt {context : SrtcpContext} (hfits : context.sendIndex.toNat < 2 ^ 31)
    {ops : List SendOp} (hops : ∀ index, .setSendIndex index ∈ ops → index.toNat < 2 ^ 31) :
    (sent P context ops).sendIndex.toNat < 2 ^ 31 := by
  induction ops generalizing context with
  | nil => exact hfits
  | cons op ops ih =>
    refine ih (sendIndex_sendStep_lt P hfits ?_) fun index hmem ↦
      hops index (List.mem_cons_of_mem _ hmem)
    rintro index rfl
    exact hops index List.mem_cons_self

/-- When SRTCP protection is sound. Assumes: a context made from a key by any operations, and a
packet that passes the checks. The receiver of the key takes the packet at the index it was
protected with if and only if the send index does not exceed 31 bits. In a run that sets no larger
index, every packet is sound. -/
theorem srtcp_index_sound_iff (material : SrtpKeyMaterial) (ops : List SendOp) (rtcp : Bytes)
    (hcheck : checkRtcp rtcp = .ok ()) :
    let receiver := fromKeyMaterial P material
    let context := sent P (fromKeyMaterial P material) ops
    (ProtectsSoundly P context receiver rtcp ↔ context.sendIndex.toNat < 2 ^ 31) ∧
      ((∀ index, .setSendIndex index ∈ ops → index.toNat < 2 ^ 31) →
        ProtectsSoundly P context receiver rtcp) := by
  intro receiver context
  have hiff : ProtectsSoundly P context receiver rtcp ↔ context.sendIndex.toNat < 2 ^ 31 :=
    protectsSoundly_iff P (sameKey_sent P receiver ops) rfl hcheck
  refine ⟨hiff, fun hops ↦ hiff.mpr (sendIndex_sent_lt P ?_ hops)⟩
  exact Nat.two_pow_pos 31

end SrtcpContext

/-- A key of zeros. -/
def plainMaterial : SrtpKeyMaterial where
  masterKey := Vector.replicate 16 0
  masterSalt := Vector.replicate 14 0
  mki := none

theorem srtcp_index_sound_after_checkpoint :
    SrtcpContext.ProtectsSoundly transparent
      (SrtcpContext.sent transparent
        (SrtcpContext.fromKeyMaterial transparent plainMaterial)
        [.setSendIndex 0x7FFFFFFF, .protect bareRtcp])
      (SrtcpContext.fromKeyMaterial transparent plainMaterial) bareRtcp := by
  refine (SrtcpContext.srtcp_index_sound_iff transparent plainMaterial
    [.setSendIndex 0x7FFFFFFF, .protect bareRtcp] bareRtcp rfl).2 ?_
  intro index hmem
  obtain rfl : index = 0x7FFFFFFF := by simpa using hmem
  decide

/-- After a checkpoint with the top bit set the trailer names another index than the IV, and at the
last value the increment overflows. -/
theorem large_checkpoint_misnumbers :
    SrtcpContext.indexField
        ((SrtcpContext.sent transparent
          (SrtcpContext.fromKeyMaterial transparent plainMaterial)
          [.setSendIndex 0xFFFFFFFF]).sealedPart transparent bareRtcp) &&& indexMask =
      0x7FFFFFFF ∧
    (SrtcpContext.sent transparent
      (SrtcpContext.fromKeyMaterial transparent plainMaterial)
      [.setSendIndex 0xFFFFFFFF]).sendIndex = 0xFFFFFFFF ∧
    ¬ SrtcpContext.ProtectsSoundly transparent
      (SrtcpContext.sent transparent
        (SrtcpContext.fromKeyMaterial transparent plainMaterial) [.setSendIndex 0xFFFFFFFF])
      (SrtcpContext.fromKeyMaterial transparent plainMaterial) bareRtcp := by
  refine ⟨by decide +kernel, rfl, fun hsound ↦ ?_⟩
  exact absurd hsound.no_overflow (by decide)

end SiphonRtp.Srtp
