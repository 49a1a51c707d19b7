import SiphonRtp.Datapath.SourceLatch
import Mathlib.Data.List.Chain
import Mathlib.Tactic.Ring

/-!
# The in-kernel loss estimate

`rtp_loss_update` of `siphon-rtp-ebpf-common/src/loss.rs`, and the part of `forward_in_kernel` that
folds the sequence number of an accepted media packet into the entry of its flow. A packet ahead of
the last one adds the packets between them to the loss, and one that is too far ahead starts again.

The estimate is exact on an ordered stream: `Counts` relates the entry to the extended sequence
numbers of the packets so far.
-/

set_option autoImplicit false

namespace SiphonRtp.Xdp

open Datapath

/-- The fields of a flow's statistics that the estimate reads and writes. -/
structure LossEntry where
  lastRtpSeq : UInt64
  packetsLost : UInt64
deriving DecidableEq

namespace LossEntry

/-- The entry of a flow without media. -/
def fresh : LossEntry where
  lastRtpSeq := rtpSeqNone
  packetsLost := 0

/-- What `forward_in_kernel` does with the sequence number of a media packet. -/
def account (entry : LossEntry) (seq : UInt16) : LossEntry :=
  let (updatedLast, lost) := rtpLossUpdate entry.lastRtpSeq seq
  { lastRtpSeq := updatedLast
    packetsLost := if 0 < lost then entry.packetsLost + lost else entry.packetsLost }

theorem account_eq (entry : LossEntry) (seq : UInt16) :
    entry.account seq =
      ⟨(rtpLossUpdate entry.lastRtpSeq seq).1,
        entry.packetsLost + (rtpLossUpdate entry.lastRtpSeq seq).2⟩ := by
  unfold account
  generalize rtpLossUpdate entry.lastRtpSeq seq = updated
  obtain ⟨updatedLast, lost⟩ := updated
  dsimp only
  split_ifs with hlost
  · rfl
  · have hzero : lost = 0 := UInt64.not_lt.mp hlost |> UInt64.le_zero_iff.mp
    rw [hzero, UInt64.add_zero]

end LossEntry

/-! ### Ordered streams -/

/-- A packet that follows another one in its stream, before the estimate starts again. -/
def Follows (previous next : ℕ) : Prop := previous < next ∧ next - previous < 3000

theorem toUInt16_toUInt64 (seq : UInt16) : seq.toUInt64.toUInt16 = seq := by
  simp

theorem toUInt64_ne_none (seq : UInt16) : seq.toUInt64 ≠ rtpSeqNone := by
  intro heq
  have hnat := congrArg UInt64.toNat heq
  have hlt := seq.toNat_lt
  change seq.toNat = 2 ^ 64 - 1 at hnat
  omega

/-- The distance from a position to one less than 2^16 ahead. -/
theorem toNat_sub_ofNat {m n : ℕ} (hle : m ≤ n) (hlt : n < m + 2 ^ 16) :
    (UInt16.ofNat n - UInt16.ofNat m).toNat = n - m := by
  rw [UInt16.toNat_sub, UInt16.toNat_ofNat', UInt16.toNat_ofNat']
  omega

theorem rtpLossUpdate_of_follows {previous next : ℕ} (hfollows : Follows previous next) :
    rtpLossUpdate (UInt16.ofNat previous).toUInt64 (UInt16.ofNat next) =
      ((UInt16.ofNat next).toUInt64, UInt64.ofNat (next - previous - 1)) := by
  obtain ⟨hlt, hgap⟩ := hfollows
  have hstep : (UInt16.ofNat next - UInt16.ofNat previous).toNat = next - previous :=
    toNat_sub_ofNat hlt.le (by omega)
  unfold rtpLossUpdate
  rw [if_neg (toUInt64_ne_none _), toUInt16_toUInt64]
  generalize UInt16.ofNat next - UInt16.ofNat previous = step at hstep
  have hne : step ≠ 0 := by
    rintro rfl
    rw [UInt16.toNat_zero] at hstep
    omega
  have hnear : step < maxDropout := by
    rw [UInt16.lt_iff_toNat_lt, hstep]
    exact hgap
  have hlost : (step - 1).toUInt64 = UInt64.ofNat (next - previous - 1) := by
    have hone : (1 : UInt16).toNat = 1 := rfl
    apply UInt64.toNat_inj.mp
    rw [UInt16.toNat_toUInt64, UInt16.toNat_sub, hstep, hone, UInt64.toNat_ofNat']
    omega
  rw [if_neg hne, if_pos hnear, hlost]

/-- An entry after the packets of a stream, the last one at an extended sequence number, and the
packets lost so far. -/
structure Counts (last lost : ℕ) (entry : LossEntry) : Prop where
  last_eq : entry.lastRtpSeq = (UInt16.ofNat last).toUInt64
  lost_eq : entry.packetsLost = UInt64.ofNat lost

theorem Counts.account {last lost next : ℕ} {entry : LossEntry} (hcounts : Counts last lost entry)
    (hfollows : Follows last next) :
    Counts next (lost + (next - last - 1)) (entry.account (UInt16.ofNat next)) := by
  rw [LossEntry.account_eq, hcounts.last_eq, rtpLossUpdate_of_follows hfollows, hcounts.lost_eq]
  exact ⟨rfl, (UInt64.ofNat_add _ _).symm⟩

theorem Counts.foldl {last lost : ℕ} {entry : LossEntry} (hcounts : Counts last lost entry)
    {stream : List ℕ} (hstream : (last :: stream).IsChain Follows) :
    ∃ total, total + stream.length + last = lost + (last :: stream).getLast (by simp) ∧
      Counts ((last :: stream).getLast (by simp)) total
        ((stream.map UInt16.ofNat).foldl LossEntry.account entry) := by
  induction stream generalizing last lost entry with
  | nil => exact ⟨lost, rfl, hcounts⟩
  | cons next stream ih =>
    obtain ⟨hfollows, hrest⟩ := List.isChain_cons_cons.mp hstream
    obtain ⟨total, htotal, hfinal⟩ := ih (hcounts.account hfollows) hrest
    refine ⟨total, ?_, ?_⟩
    · rw [List.getLast_cons (by simp), List.length_cons]
      have hlt := hfollows.1
      omega
    · exact hfinal

/-- The loss estimate is exact. Assumes: the extended sequence numbers increase, each by less than
the reset threshold. Over any number of wraps of the 16-bit numbers, the loss counted is the number
of packets from the first to the last one, without those that came. -/
theorem loss_estimate_exact (first : ℕ) (stream : List ℕ)
    (hstream : (first :: stream).IsChain Follows) :
    (((first :: stream).map UInt16.ofNat).foldl LossEntry.account .fresh).packetsLost =
      UInt64.ofNat
        ((first :: stream).getLast (by simp) - first + 1 - (first :: stream).length) := by
  have hfirst : Counts first 0 (LossEntry.fresh.account (UInt16.ofNat first)) := by
    exact ⟨rfl, rfl⟩
  obtain ⟨total, htotal, hfinal⟩ := hfirst.foldl hstream
  have heq :
      (first :: stream).getLast (by simp) - first + 1 - (first :: stream).length = total := by
    rw [List.length_cons]
    omega
  rw [List.map_cons, List.foldl_cons, hfinal.lost_eq, heq]

theorem loss_estimate_across_wrap :
    ([65534, 65535, 65539, 65540].map UInt16.ofNat |>.foldl LossEntry.account .fresh).packetsLost =
      3 := by
  have hchain : [65534, 65535, 65539, 65540].IsChain Follows := by
    simp [Follows]
  exact loss_estimate_exact 65534 [65535, 65539, 65540] hchain

end SiphonRtp.Xdp
