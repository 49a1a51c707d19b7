import SiphonRtp.Engine.FloorProtection
import Mathlib.Order.CompletePartialOrder

/-!
# Failover of the floor stream

Two nodes seal under the same keys: a primary, and a standby restored from a checkpoint the primary
has moved past since. The indices in the packets of a run lie between the next index at its start
and the one at its end (`usedIndices_subset`), so the runs of the two nodes are apart as long
as the standby starts where the primary has not arrived. `prepare` puts the margin of `2¹⁶` in
between, and refuses where it does not fit (`prepare_checkpoint`), which an exhausted primary always
runs into. `failover_fresh` puts the two together.
-/

set_option autoImplicit false

namespace SiphonRtp.Engine

open Machine Srtp

/-! ### The indices of a run -/

namespace FloorProtection

variable (P : Primitives)

/-- The indices that the packets sealed along a run carry. -/
def usedIndices (protection : FloorProtection) (calls : List FloorCall) : Set ℕ :=
  {index | ∃ (k : ℕ) (rtcp out : Bytes), calls[k]? = some (.seal rtcp) ∧
    (outputs (call P) protection calls)[k]? = some (.ok out) ∧
    SrtcpGcmContext.packetSrtcpIndex out = index}

/-- The packets a run seals. -/
def sealedCount (protection : FloorProtection) (calls : List FloorCall) : ℕ :=
  (trace (call P) protection calls).countP fun entry ↦ entry.1.onContext.seals entry.2

variable {P} {protection : FloorProtection}

/-- A run moves the next index up by the packets it seals. -/
theorem nextIndex_final (hbounded : protection.context.Bounded) (calls : List FloorCall) :
    (final (call P) protection calls).context.nextIndex =
      protection.context.nextIndex + sealedCount P protection calls := by
  have hcount : (trace (SrtcpGcmContext.call P) protection.context
      (calls.map FloorCall.onContext)).countP (fun entry ↦ entry.1.seals entry.2) =
      sealedCount P protection calls := by
    rw [trace_map_of_projection FloorProtection.context FloorCall.onContext
      (fun state input ↦ call_context P state input), List.countP_map]
    rfl
  rw [← final_context, ← hcount]
  exact (SrtcpGcmContext.nextIndex_final P hbounded _).2

/-- The indices of a run lie between the next index at its start and the one at its end. -/
theorem usedIndices_subset (hbounded : protection.context.Bounded) {calls : List FloorCall}
    {index : ℕ} (hused : index ∈ usedIndices P protection calls) :
    protection.context.nextIndex ≤ index ∧
      index < (final (call P) protection calls).context.nextIndex := by
  obtain ⟨k, rtcp, out, hcall, hok, rfl⟩ := hused
  have hk : k < calls.length := (List.getElem?_eq_some_iff.mp hcall).1
  have hgcm : (calls.map FloorCall.onContext)[k]? = some (.protect rtcp true) := by
    rw [List.getElem?_map, hcall]
    rfl
  rw [← outputs_context] at hok
  have hk' : k < (calls.map FloorCall.onContext).length := by rwa [List.length_map]
  obtain ⟨-, hindex, hlt⟩ := SrtcpGcmContext.sealed_at P hbounded hgcm hok hk'
  have hlow := (SrtcpGcmContext.nextIndex_mono P hbounded (calls.map FloorCall.onContext)
    (Nat.zero_le k)).2
  rw [List.take_length, final_context] at hlt
  exact ⟨hlow.trans_eq hindex.symm, hindex.trans_lt hlt⟩

end FloorProtection

/-! ### Checkpoint and restore -/

theorem secretFromHex_toHex {n : ℕ} (secret : Vector UInt8 n) (reason : String) :
    secretFromHex n (toHex secret.toList) reason = .ok secret := by
  unfold secretFromHex
  rw [fromHex_toHex]
  obtain ⟨octets, rfl⟩ := secret
  simp

/-- The keys of a snapshot decode to the keys it was taken from. -/
theorem restoreKeys_keySnapshots (keys : List FloorMasterKey) :
    restoreKeys (keySnapshots keys) = .ok keys := by
  induction keys with
  | nil => rfl
  | cons key rest ih =>
    unfold restoreKeys keySnapshots at ih ⊢
    rw [List.map_cons, List.mapM_cons, ih, restoreKey, secretFromHex_toHex, secretFromHex_toHex]
    rfl

theorem resumedSendIndex_of_lt {checkpointed : UInt32}
    (hroom : checkpointed.toNat + 2 ^ 16 < 2 ^ 31) :
    ∃ index, resumedSendIndex checkpointed = some index ∧
      index.toNat = checkpointed.toNat + 2 ^ 16 := by
  have hmargin : sendIndexMargin.toNat = 2 ^ 16 := rfl
  have hlast : lastIndex.toNat = 2 ^ 31 - 1 := rfl
  have hsum : (checkpointed + sendIndexMargin).toNat = checkpointed.toNat + 2 ^ 16 := by
    rw [UInt32.toNat_add]
    omega
  refine ⟨_, if_pos ⟨?_, ?_⟩, hsum⟩
  · omega
  · rw [UInt32.le_iff_toNat_le]
    omega

theorem resumedSendIndex_of_le {checkpointed : UInt32}
    (hfull : 2 ^ 31 ≤ checkpointed.toNat + 2 ^ 16) : resumedSendIndex checkpointed = none := by
  apply if_neg
  rintro ⟨hfits, hle⟩
  have hmargin : sendIndexMargin.toNat = 2 ^ 16 := rfl
  have hlast : lastIndex.toNat = 2 ^ 31 - 1 := rfl
  rw [UInt32.le_iff_toNat_le, UInt32.toNat_add] at hle
  omega

section Restore

variable {P : Primitives} {protection : FloorProtection}

/-- A protection with room for the margin has an index left. -/
theorem FloorProtection.Sound.nextIndex_of_room (hsound : protection.Sound P)
    (hroom : protection.sendIndex.toNat + 2 ^ 16 < 2 ^ 31) :
    protection.context.nextIndex = protection.sendIndex.toNat := by
  unfold SrtcpGcmContext.nextIndex
  cases hexhausted : protection.context.exhausted with
  | false => rfl
  | true =>
    have hlast : protection.sendIndex = lastIndex := hsound.stopped hexhausted
    have hvalue : lastIndex.toNat = 2 ^ 31 - 1 := rfl
    rw [hlast] at hroom
    omega

/-- What the standby makes of a checkpoint: it is refused where the margin does not fit below `2³¹`,
and otherwise restored with the same keys, sending from the margin on. -/
theorem prepare_checkpoint (hsound : protection.Sound P) :
    (2 ^ 31 ≤ protection.sendIndex.toNat + 2 ^ 16 →
        prepare (checkpoint protection) = .error (.refused (noRoom protection.sendIndex))) ∧
      (protection.sendIndex.toNat + 2 ^ 16 < 2 ^ 31 →
        ∃ prepared standby, prepare (checkpoint protection) = .ok prepared ∧
          registerRestored P prepared = some standby ∧ standby.Sound P ∧
          standby.keys = protection.keys ∧
          standby.context.nextIndex = protection.sendIndex.toNat + 2 ^ 16 ∧
          standby.sendIndex.toNat = protection.sendIndex.toNat + 2 ^ 16) := by
  have hkeys : restoreKeys (checkpoint protection).keys = .ok protection.keys :=
    restoreKeys_keySnapshots protection.keys
  have hindex : (checkpoint protection).sendIndex = protection.sendIndex := rfl
  constructor
  · intro hfull
    unfold prepare
    rw [hkeys]
    simp only [hsound.holds.nonempty, ↓reduceIte, hindex, resumedSendIndex_of_le hfull]
  · intro hroom
    obtain ⟨index, hresumed, hsum⟩ := resumedSendIndex_of_lt hroom
    obtain ⟨fresh, hnew, hsame⟩ := FloorProtection.exists_new hsound.holds
    have hfresh := (FloorProtection.sound_of_new hnew).1
    have hfits : index.toNat < 2 ^ 31 := hsum.trans_lt hroom
    obtain ⟨hstandby, hheld, hstart, hopen⟩ := hfresh.resume index
      ((checkpoint protection).received.map fun received ↦ (received.mki, received.index))
    have hmasked : (index &&& indexMask).toNat = protection.sendIndex.toNat + 2 ^ 16 := by
      rw [toNat_and_indexMask, Nat.mod_eq_of_lt hfits, hsum]
    refine ⟨{ snapshot := checkpoint protection, keys := protection.keys, sendIndex := index }, _,
      ?_, ?_, hstandby, hheld.trans hsame, ?_, ?_⟩
    · unfold prepare
      rw [hkeys]
      simp only [hsound.holds.nonempty, ↓reduceIte, hindex, hresumed]
    · unfold registerRestored register
      rw [hnew]
      rfl
    · unfold SrtcpGcmContext.nextIndex
      rw [hopen]
      exact (congrArg UInt32.toNat hstart).trans hmasked
    · exact (congrArg UInt32.toNat hstart).trans hmasked

end Restore

/-- A failover reuses no nonce. Assumes: a primary as it is registered, fresh or itself restored,
any calls on it up to a checkpoint, and calls after it that seal at most `2¹⁶` packets. Whatever
calls a standby restored from that checkpoint is given, no packet it seals carries an index that a
packet of the primary ever carried. The checkpoint is refused when the resumed index does not fit
below `2³¹`, and otherwise restores the same keys at that index. -/
theorem failover_fresh {P : Primitives} {keys : List FloorMasterKey}
    {restore : Option FloorRestore} {primary : FloorProtection}
    (hprimary : register P keys restore = some primary) (history : List FloorCall) :
    let checkpointed := final (FloorProtection.call P) primary history
    (∀ later prepared standby calls, checkpointed.sealedCount P later ≤ 2 ^ 16 →
        prepare (checkpoint checkpointed) = .ok prepared →
          registerRestored P prepared = some standby →
            Disjoint (primary.usedIndices P (history ++ later)) (standby.usedIndices P calls)) ∧
      (2 ^ 31 ≤ checkpointed.sendIndex.toNat + 2 ^ 16 →
        prepare (checkpoint checkpointed) = .error (.refused (noRoom checkpointed.sendIndex))) ∧
      (checkpointed.sendIndex.toNat + 2 ^ 16 < 2 ^ 31 →
        ∃ prepared standby, prepare (checkpoint checkpointed) = .ok prepared ∧
          registerRestored P prepared = some standby ∧ standby.keys = checkpointed.keys ∧
          standby.sendIndex.toNat = checkpointed.sendIndex.toNat + 2 ^ 16) := by
  intro checkpointed
  have hstart := sound_of_register hprimary
  have hsound : checkpointed.Sound P := hstart.final history
  obtain ⟨hrefused, hrestored⟩ := prepare_checkpoint hsound
  refine ⟨?_, hrefused, ?_⟩
  · intro later prepared standby calls hcount hprepared hstandby
    have hroom : checkpointed.sendIndex.toNat + 2 ^ 16 < 2 ^ 31 := by
      by_contra hfull
      rw [hrefused (Nat.le_of_not_lt hfull)] at hprepared
      exact nomatch hprepared
    obtain ⟨prepared', standby', hprepared', hstandby', hfresh, -, hnext, -⟩ := hrestored hroom
    obtain rfl : prepared' = prepared := Except.ok.inj (hprepared'.symm.trans hprepared)
    obtain rfl : standby' = standby := Option.some.inj (hstandby'.symm.trans hstandby)
    -- a primary with room for the margin has not stopped at the last index
    have hleft : checkpointed.context.nextIndex = checkpointed.sendIndex.toNat :=
      hsound.nextIndex_of_room hroom
    rw [Set.disjoint_left]
    intro index hused hreused
    have hbelow := (FloorProtection.usedIndices_subset hstart.bounded hused).2
    have habove := (FloorProtection.usedIndices_subset hfresh.bounded hreused).1
    rw [final_append, FloorProtection.nextIndex_final hsound.bounded] at hbelow
    omega
  · intro hroom
    obtain ⟨prepared, standby, hprepared, hstandby, -, hkeys, -, hindex⟩ := hrestored hroom
    exact ⟨prepared, standby, hprepared, hstandby, hkeys, hindex⟩

/-- A primary that has sealed one packet, and seals another one after its checkpoint. -/
theorem failover_fresh_after_seal :
    let primary : FloorProtection :=
      { context := sampleContext transparent, keys := [sampleMaster] }
    let checkpointed := final (FloorProtection.call transparent) primary [.seal bareRtcp]
    register transparent [sampleMaster] none = some primary ∧ checkpointed.sendIndex = 1 ∧
      checkpointed.sealedCount transparent [.seal bareRtcp] = 1 ∧
      ∃ prepared standby, prepare (checkpoint checkpointed) = .ok prepared ∧
        registerRestored transparent prepared = some standby ∧
        ∀ calls, Disjoint (primary.usedIndices transparent [.seal bareRtcp, .seal bareRtcp])
          (standby.usedIndices transparent calls) := by
  intro primary checkpointed
  have hprimary : register transparent [sampleMaster] none = some primary := rfl
  have hindex : checkpointed.sendIndex = 1 := by decide
  have hcount : checkpointed.sealedCount transparent [.seal bareRtcp] = 1 := by decide
  obtain ⟨hdisjoint, -, hrestored⟩ := failover_fresh hprimary [.seal bareRtcp]
  have hroom : checkpointed.sendIndex.toNat + 2 ^ 16 < 2 ^ 31 := by
    decide
  obtain ⟨prepared, standby, hprepared, hstandby, -, -⟩ := hrestored hroom
  refine ⟨hprimary, hindex, hcount, prepared, standby, hprepared, hstandby, ?_⟩
  intro calls
  exact hdisjoint [.seal bareRtcp] prepared standby calls
    (hcount.trans_le (Nat.one_le_two_pow)) hprepared hstandby

end SiphonRtp.Engine
