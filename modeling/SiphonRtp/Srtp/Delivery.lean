import SiphonRtp.Machine.Runs
import SiphonRtp.Srtp.Rollover

/-!
# Delivery of a stream under loss, duplication and reordering

A sender protects the packets of one SSRC in order, starting anywhere in the sequence space, and a
fresh receiver under the same key is handed copies of what the sender emitted, in any order.
`delivery_of_copies` says what the receiver makes of each copy, as long as every delivered index is
less than `2¹⁵` away from the highest one delivered before it: a packet delivered for the first
time and less than a window behind is returned as it was, once, and every other copy is reported as
replayed.

The receiver side is a refinement. `Tracks` relates a stream state to the list of indices delivered
so far: the anchor is at the highest of them, and the window blocks what their `history` blocks.
`Tracks.guess` is where the distance bound is used. At a distance of exactly `2¹⁵` the sequence
number no longer tells which side of the anchor a packet is on (`delivery_at_half_range`).
-/

set_option autoImplicit false

namespace SiphonRtp.Srtp

open Machine

/-- The 48-bit index of packet `n` of a stream that starts at the sequence number `start`. -/
def wireIndex (start : UInt16) (n : ℕ) : ℕ := (start.toNat + n) % 2 ^ 48

/-- The packets of one SSRC, their sequence numbers increasing by one modulo `2¹⁶`. -/
def InOrder (ssrc : UInt32) (start : UInt16) (packets : List Bytes) : Prop :=
  ∀ n rtp, packets[n]? = some rtp →
    ∃ headerLen, parseRtpHeader rtp = .ok (headerLen, ssrc, start + UInt16.ofNat n)

/-- A datagram is a copy of what the sender emitted for packet `n`. -/
def CopyOf (P : Primitives) (sender : SrtpContext) (packets : List Bytes) (n : ℕ)
    (datagram : Bytes) : Prop :=
  (outputs (SrtpContext.protect P) sender packets)[n]? = some (.ok datagram)

/-- The indices delivered before position `k`. -/
def deliveredBefore (start : UInt16) (deliveries : List ℕ) (k : ℕ) : List ℕ :=
  (deliveries.take k).map (wireIndex start)

/-- The deliveries a receiver is expected to follow: the first of them was sent before the first
wrap, and each is at most `reach` away from the highest index delivered before it. -/
structure Deliverable (reach : ℕ) (start : UInt16) (deliveries : List ℕ) : Prop where
  first : ∀ n, deliveries.head? = some n → start.toNat + n < 2 ^ 16
  near : ∀ k n highest, deliveries[k]? = some n →
    (deliveredBefore start deliveries k).max? = some highest →
      wireIndex start n ≤ highest + reach ∧ highest ≤ wireIndex start n + reach

/-! ### The sender -/

section Sender

variable (P : Primitives)

theorem seq_eq_ofNat (start : UInt16) (n : ℕ) :
    start + UInt16.ofNat n = UInt16.ofNat (start.toNat + n) := by
  rw [UInt16.ofNat_add, UInt16.ofNat_toNat]

/-- The sender's state before packet `n`: its key is untouched and the stream was sent in order. -/
def SentInOrder (sender : SrtpContext) (ssrc : UInt32) (start : UInt16) (n : ℕ)
    (context : SrtpContext) : Prop :=
  context.SameKey sender ∧
    ((n = 0 ∧ context.stream ssrc = {}) ∨
      ∃ previous, n = previous + 1 ∧
        context.stream ssrc = .sentUpTo (start.toNat + previous))

/-- Before packet `n`, the sender gives that packet its own index. -/
theorem SentInOrder.indexFor {sender context : SrtpContext} {ssrc : UInt32} {start : UInt16}
    {n : ℕ} (hsent : SentInOrder sender ssrc start n context) :
    (context.stream ssrc).indexFor (start + UInt16.ofNat n) =
      ((wireIndex start n, UInt32.ofNat ((start.toNat + n) / 2 ^ 16)),
        .sentUpTo (start.toNat + n)) := by
  obtain ⟨-, ⟨rfl, hempty⟩ | ⟨previous, rfl, hstream⟩⟩ := hsent
  · have hlimit := start.toNat_lt
    have hroc : start.toNat / 2 ^ 16 = 0 := by omega
    rw [hempty, seq_eq_ofNat]
    simp only [wireIndex, StreamState.sentUpTo, Nat.add_zero, UInt16.ofNat_toNat, hroc,
      Nat.mod_eq_of_lt (show start.toNat < 2 ^ 48 by omega)]
    rfl
  · rw [hstream, seq_eq_ofNat, ← Nat.add_assoc, StreamState.indexFor_sentUpTo]
    rfl

/-- What a fresh sender emits for packet `n`. -/
theorem protect_in_order {sender : SrtpContext} {ssrc : UInt32} {start : UInt16}
    {packets : List Bytes} (hfresh : sender.stream ssrc = {})
    (hpackets : InOrder ssrc start packets)
    {n : ℕ} {rtp : Bytes} (hrtp : packets[n]? = some rtp) {headerLen : ℕ}
    (hparse : parseRtpHeader rtp = .ok (headerLen, ssrc, start + UInt16.ofNat n)) :
    (outputs (SrtpContext.protect P) sender packets)[n]? =
      some (.ok (sender.sealed P headerLen ssrc (wireIndex start n)
        (UInt32.ofNat ((start.toNat + n) / 2 ^ 16)) rtp)) := by
  have hsent : SentInOrder sender ssrc start n
      (final (SrtpContext.protect P) sender (packets.take n)) := by
    refine final_take_induction (SentInOrder sender ssrc start)
      ⟨SrtpContext.SameKey.refl sender, Or.inl ⟨rfl, hfresh⟩⟩ ?_
      (List.getElem?_eq_some_iff.mp hrtp).1.le
    intro j packet hpacket hbefore
    obtain ⟨length, hheader⟩ := hpackets j packet hpacket
    rw [SrtpContext.protect_eq P hheader, hbefore.indexFor]
    refine ⟨(SrtpContext.SameKey.setStream _ _ _).trans hbefore.1, Or.inr ⟨j, rfl, ?_⟩⟩
    exact SrtpContext.stream_setStream_self _ _ _
  rw [getElem?_outputs_of_eq _ hrtp, SrtpContext.protect_eq P hparse, hsent.indexFor]
  rw [hsent.1.sealed]

end Sender

/-! ### The receiver -/

/-- A stream state follows a list of delivered indices. -/
structure Tracks (delivered : List ℕ) (stream : StreamState) : Prop where
  anchor : stream.anchorIndex = delivered.max?
  fresh : stream.highestSeq = none → stream.roc = 0
  blocked : stream.replay.blocked = history replayWindow delivered

theorem tracks_nil : Tracks [] {} := by
  refine ⟨rfl, fun _ ↦ rfl, ?_⟩
  rw [history_nil]
  exact ReplayWindow.blocked_default

namespace Tracks

variable {delivered : List ℕ} {stream : StreamState} {index : ℕ} {seq : UInt16}

theorem isReplay_iff (htracks : Tracks delivered stream) :
    stream.replay.isReplay index = true ↔ index ∈ history replayWindow delivered := by
  rw [← htracks.blocked, ReplayWindow.mem_blocked]

theorem max?_of_some {highest : UInt16} (htracks : Tracks delivered stream)
    (hhighest : stream.highestSeq = some highest) :
    delivered.max? = some (packetIndex stream.roc highest) := by
  rw [← htracks.anchor, StreamState.anchorIndex, hhighest, Option.map_some]

theorem max?_of_none (htracks : Tracks delivered stream) (hfresh : stream.highestSeq = none) :
    delivered.max? = none := by
  rw [← htracks.anchor, StreamState.anchorIndex, hfresh, Option.map_none]

/-- A refused delivery leaves nothing to follow. -/
theorem refused (htracks : Tracks delivered stream)
    (hmem : index ∈ history replayWindow delivered) :
    Tracks (delivered ++ [index]) stream := by
  refine ⟨?_, htracks.fresh, ?_⟩
  · obtain ⟨other, hother, hcovered⟩ := hmem
    obtain ⟨highest, hhighest, hle⟩ := exists_max?_of_mem hother
    rw [htracks.anchor, hhighest, max?_concat_of_le hhighest (by omega)]
  · rw [htracks.blocked, history_concat_of_mem hmem]

/-- The receiver guesses the index and the rollover counter of a packet near the highest delivered
one, and of a first packet sent before the first wrap. -/
theorem guess (htracks : Tracks delivered stream) (hspace : index < 2 ^ 48)
    (hseq : seq.toNat = index % 2 ^ 16) (hfirst : delivered = [] → index < 2 ^ 16)
    (hnear : ∀ highest, delivered.max? = some highest →
      index < highest + 2 ^ 15 ∧ highest < index + 2 ^ 15) :
    (stream.indexFor seq).1 = (index, UInt32.ofNat (index / 2 ^ 16)) := by
  rcases hhighest : stream.highestSeq with _ | highest
  · have hsmall := hfirst (List.max?_eq_none_iff.mp (htracks.max?_of_none hhighest))
    have hroc : index / 2 ^ 16 = 0 := by omega
    rw [StreamState.indexFor_of_none hhighest, htracks.fresh hhighest, hroc, hseq,
      Nat.mod_eq_of_lt hsmall]
    rfl
  · obtain ⟨hbelow, habove⟩ := hnear _ (htracks.max?_of_some hhighest)
    exact StreamState.indexFor_of_near hhighest hspace hseq hbelow habove

/-- Assumes: as in `guess`. An accepted delivery is followed. -/
theorem accepted (htracks : Tracks delivered stream) (hspace : index < 2 ^ 48)
    (hseq : seq.toNat = index % 2 ^ 16) (hfirst : delivered = [] → index < 2 ^ 16)
    (hnear : ∀ highest, delivered.max? = some highest →
      index < highest + 2 ^ 15 ∧ highest < index + 2 ^ 15) :
    Tracks (delivered ++ [index]) (stream.accepted seq) := by
  have hguess := htracks.guess hspace hseq hfirst hnear
  have hindex : (stream.indexFor seq).1.1 = index := by rw [hguess]
  have hblocked : (stream.accepted seq).replay.blocked =
      history replayWindow (delivered ++ [index]) := by
    rw [history_concat, ← htracks.blocked, ← ReplayWindow.blocked_record, ← hindex]
    rfl
  rcases hhighest : stream.highestSeq with _ | highest
  · have hnone := htracks.max?_of_none hhighest
    have hmax : (delivered ++ [index]).max? = some index :=
      max?_concat_of_lt fun highest hsome ↦ by simp [hnone] at hsome
    refine ⟨?_, ?_, hblocked⟩
    · rw [hmax, ← hindex]
      simp [StreamState.anchorIndex, StreamState.accepted, StreamState.indexFor_of_none hhighest,
        htracks.fresh hhighest, packetIndex_eq]
    · simp [StreamState.accepted, StreamState.indexFor_of_none hhighest]
  · obtain ⟨hbelow, habove⟩ := hnear _ (htracks.max?_of_some hhighest)
    have hstays := StreamState.stays_of_near hhighest hspace hseq hbelow habove
    have hpacket := (StreamState.indexFor_cases seq hhighest).1.symm.trans hindex
    rcases StreamState.indexFor_of_stays hhighest hstays with ⟨hnewer, hmoves⟩ | ⟨holder, hrests⟩
    · rw [hindex] at hnewer
      have hmax : (delivered ++ [index]).max? = some index :=
        max?_concat_of_lt fun other hother ↦ by
          obtain rfl := Option.some.inj ((htracks.max?_of_some hhighest).symm.trans hother)
          exact hnewer
      refine ⟨?_, ?_, hblocked⟩
      · rw [hmax, StreamState.anchorIndex, StreamState.accepted, hmoves]
        simp only [Option.map_some, hpacket]
      · simp [StreamState.accepted, hmoves]
    · rw [hindex] at holder
      have hmax := max?_concat_of_le (htracks.max?_of_some hhighest) holder
      refine ⟨?_, ?_, hblocked⟩
      · rw [hmax, StreamState.anchorIndex, StreamState.accepted, hrests]
        simp only [hhighest, Option.map_some]
      · simp [StreamState.accepted, hrests, hhighest]

end Tracks

/-! ### One delivery -/

section Step

variable (P : Primitives)

theorem ofNat_wireIndex (start : UInt16) (n : ℕ) :
    UInt32.ofNat (wireIndex start n / 2 ^ 16) = UInt32.ofNat ((start.toNat + n) / 2 ^ 16) := by
  rw [← UInt32.toNat_inj, UInt32.toNat_ofNat', UInt32.toNat_ofNat', wireIndex]
  omega

theorem toNat_seq (start : UInt16) (n : ℕ) :
    (start + UInt16.ofNat n).toNat = wireIndex start n % 2 ^ 16 := by
  rw [seq_eq_ofNat, UInt16.toNat_ofNat', wireIndex]
  omega

/-- What a receiver that follows the deliveries so far does with one more copy. Assumes: the copy is
near the highest index delivered, or the first one and from before the first wrap. -/
theorem unprotect_copy {sender receiver : SrtpContext} (hkey : sender.SameKey receiver)
    {ssrc : UInt32} {start : UInt16} {n headerLen : ℕ} {rtp : Bytes} {delivered : List ℕ}
    (htracks : Tracks delivered (receiver.stream ssrc))
    (hparse : parseRtpHeader rtp = .ok (headerLen, ssrc, start + UInt16.ofNat n))
    (hfirst : delivered = [] → wireIndex start n < 2 ^ 16)
    (hnear : ∀ highest, delivered.max? = some highest →
      wireIndex start n < highest + 2 ^ 15 ∧ highest < wireIndex start n + 2 ^ 15) :
    let result := receiver.unprotect P (sender.sealed P headerLen ssrc (wireIndex start n)
      (UInt32.ofNat ((start.toNat + n) / 2 ^ 16)) rtp)
    sender.SameKey result.2 ∧
      Tracks (delivered ++ [wireIndex start n]) (result.2.stream ssrc) ∧
      (wireIndex start n ∈ history replayWindow delivered → result.1 = .error .replayed) ∧
      (wireIndex start n ∉ history replayWindow delivered → result.1 = .ok rtp) := by
  have hspace : wireIndex start n < 2 ^ 48 := Nat.mod_lt _ (by decide)
  have hguess := htracks.guess hspace (toNat_seq start n) hfirst hnear
  rw [ofNat_wireIndex] at hguess
  rw [SrtpContext.unprotect_sealed_of_guess P hkey hparse hguess]
  rcases hreplay : (receiver.stream ssrc).replay.isReplay (wireIndex start n) with _ | _
  · have hmem : wireIndex start n ∉ history replayWindow delivered := fun hmem ↦ by
      simp [htracks.isReplay_iff.mpr hmem] at hreplay
    simp only [Bool.false_eq_true, ↓reduceIte, SrtpContext.stream_setStream_self]
    exact ⟨hkey.trans (SrtpContext.SameKey.setStream _ _ _).symm,
      htracks.accepted hspace (toNat_seq start n) hfirst hnear,
      fun hin ↦ absurd hin hmem, fun _ ↦ trivial⟩
  · have hmem := htracks.isReplay_iff.mp hreplay
    simp only [↓reduceIte]
    exact ⟨hkey, htracks.refused hmem, fun _ ↦ trivial, fun hout ↦ absurd hmem hout⟩

end Step

/-! ### Whole runs -/

section Run

variable (P : Primitives) {sender receiver : SrtpContext} {ssrc : UInt32} {start : UInt16}
  {packets copies : List Bytes} {deliveries : List ℕ}

theorem deliveredBefore_succ {k n : ℕ} (hdelivery : deliveries[k]? = some n) :
    deliveredBefore start deliveries (k + 1) =
      deliveredBefore start deliveries k ++ [wireIndex start n] := by
  rw [deliveredBefore, List.take_add_one, hdelivery, List.map_append]
  rfl

theorem mem_deliveredBefore {j k n : ℕ} (hlt : j < k) (hdelivery : deliveries[j]? = some n) :
    wireIndex start n ∈ deliveredBefore start deliveries k := by
  have hmem : n ∈ deliveries.take k :=
    List.mem_of_getElem? (by rwa [List.getElem?_take_of_lt hlt])
  exact List.mem_map_of_mem hmem

/-- The distance bound of a deliverable sequence, at one of its positions. -/
theorem Deliverable.bounds (hdeliverable : Deliverable (2 ^ 15 - 1) start deliveries) {k n : ℕ}
    (hdelivery : deliveries[k]? = some n) :
    (deliveredBefore start deliveries k = [] → wireIndex start n < 2 ^ 16) ∧
      ∀ highest, (deliveredBefore start deliveries k).max? = some highest →
        wireIndex start n < highest + 2 ^ 15 ∧ highest < wireIndex start n + 2 ^ 15 := by
  constructor
  · intro hempty
    have hlength := (List.getElem?_eq_some_iff.mp hdelivery).1
    have hzero : k = 0 := by
      have hcount := congrArg List.length hempty
      simp only [deliveredBefore, List.length_map, List.length_take, List.length_nil] at hcount
      omega
    subst hzero
    have hhead := hdeliverable.first n (by rwa [List.head?_eq_getElem?])
    exact (Nat.mod_le _ _).trans_lt hhead
  · intro highest hhighest
    obtain ⟨hbelow, habove⟩ := hdeliverable.near k n highest hdelivery hhighest
    omega

/-- Assumes: the setting of `delivery_of_copies`. The receiver follows the deliveries, and the copy
at a position is opened by `unprotect_copy`. -/
theorem copy_at (hsender : sender.stream ssrc = {}) (hpackets : InOrder ssrc start packets)
    (hcopies : List.Forall₂ (CopyOf P sender packets) deliveries copies) {k : ℕ} {datagram : Bytes}
    (hdatagram : copies[k]? = some datagram) :
    ∃ n rtp headerLen, deliveries[k]? = some n ∧ packets[n]? = some rtp ∧
      parseRtpHeader rtp = .ok (headerLen, ssrc, start + UInt16.ofNat n) ∧
      datagram = sender.sealed P headerLen ssrc (wireIndex start n)
        (UInt32.ofNat ((start.toNat + n) / 2 ^ 16)) rtp := by
  obtain ⟨hk, rfl⟩ := List.getElem?_eq_some_iff.mp hdatagram
  obtain ⟨hlength, hall⟩ := List.forall₂_iff_get.mp hcopies
  have hcopy := hall k (hlength ▸ hk) hk
  generalize hn : deliveries.get ⟨k, hlength ▸ hk⟩ = n at hcopy
  have hdelivery : deliveries[k]? = some n := by
    rw [← hn]
    exact List.getElem?_eq_getElem _
  have hrange : n < packets.length := by
    rw [← length_outputs (SrtpContext.protect P) sender packets]
    exact (List.getElem?_eq_some_iff.mp hcopy).1
  have hrtp : packets[n]? = some packets[n] := List.getElem?_eq_getElem hrange
  obtain ⟨headerLen, hparse⟩ := hpackets n _ hrtp
  refine ⟨n, _, headerLen, hdelivery, hrtp, hparse, ?_⟩
  rw [CopyOf, protect_in_order P hsender hpackets hrtp hparse] at hcopy
  exact (Except.ok.inj (Option.some.inj hcopy)).symm

section Assumed

variable (hkey : sender.SameKey receiver) (hsender : sender.stream ssrc = {})
  (hreceiver : receiver.stream ssrc = {}) (hpackets : InOrder ssrc start packets)
  (hcopies : List.Forall₂ (CopyOf P sender packets) deliveries copies)
  (hdeliverable : Deliverable (2 ^ 15 - 1) start deliveries)

include hkey hsender hreceiver hpackets hcopies hdeliverable

theorem receiver_tracks {k : ℕ} (hk : k ≤ copies.length) :
    let context := final (SrtpContext.unprotect P) receiver (copies.take k)
    sender.SameKey context ∧ Tracks (deliveredBefore start deliveries k) (context.stream ssrc) := by
  refine final_take_induction (fun position (context : SrtpContext) ↦ sender.SameKey context ∧
    Tracks (deliveredBefore start deliveries position) (context.stream ssrc)) ?_ ?_ hk
  · rw [hreceiver]
    exact ⟨hkey, tracks_nil⟩
  · rintro j datagram hdatagram ⟨hsame, htracks⟩
    obtain ⟨n, rtp, headerLen, hdelivery, -, hparse, rfl⟩ :=
      copy_at P hsender hpackets hcopies hdatagram
    obtain ⟨hfirst, hnear⟩ := hdeliverable.bounds hdelivery
    obtain ⟨hnext, hfollows, -⟩ := unprotect_copy P hsame htracks hparse hfirst hnear
    rw [deliveredBefore_succ hdelivery]
    exact ⟨hnext, hfollows⟩

/-- The result of every delivery, by whether the filter of the earlier deliveries blocks it. -/
theorem result_of_delivery {k n : ℕ} {rtp : Bytes} (hdelivery : deliveries[k]? = some n)
    (hrtp : packets[n]? = some rtp) :
    let earlier := history replayWindow (deliveredBefore start deliveries k)
    let result := (outputs (SrtpContext.unprotect P) receiver copies)[k]?
    (wireIndex start n ∈ earlier → result = some (.error .replayed)) ∧
      (wireIndex start n ∉ earlier → result = some (.ok rtp)) := by
  have hlength := hcopies.length_eq
  have hk : k < copies.length := hlength ▸ (List.getElem?_eq_some_iff.mp hdelivery).1
  have hdatagram : copies[k]? = some copies[k] := List.getElem?_eq_getElem hk
  obtain ⟨other, packet, headerLen, hother, hpacket, hparse, heq⟩ :=
    copy_at P hsender hpackets hcopies hdatagram
  obtain rfl : n = other := Option.some.inj (hdelivery.symm.trans hother)
  obtain rfl : rtp = packet := Option.some.inj (hrtp.symm.trans hpacket)
  obtain ⟨hsame, htracks⟩ :=
    receiver_tracks P hkey hsender hreceiver hpackets hcopies hdeliverable hk.le
  obtain ⟨hfirst, hnear⟩ := hdeliverable.bounds hdelivery
  obtain ⟨-, -, hrefused, hreturned⟩ := unprotect_copy P hsame htracks hparse hfirst hnear
  rw [← heq] at hrefused hreturned
  rw [getElem?_outputs_of_eq _ hdatagram]
  exact ⟨fun hmem ↦ by rw [hrefused hmem], fun hmem ↦ by rw [hreturned hmem]⟩

end Assumed

/-- Delivery under loss, duplication and reordering. Assumes: a sender fresh on the SSRC protects
the packets of one SSRC in order, a fresh receiver under the same key is handed copies of what the
sender emitted, the first of them from before the first wrap, and every delivered index is less than
`2¹⁵` away from the highest index delivered before it. No copy fails authentication. A copy whose
index was delivered before, or that is a window or more behind the highest one, is reported as
replayed. Every other copy is returned as the packet it was made from, and no other copy with its
index is returned. -/
theorem delivery_of_copies (hkey : sender.SameKey receiver) (hsender : sender.stream ssrc = {})
    (hreceiver : receiver.stream ssrc = {}) (hpackets : InOrder ssrc start packets)
    (hcopies : List.Forall₂ (CopyOf P sender packets) deliveries copies)
    (hdeliverable : Deliverable (2 ^ 15 - 1) start deliveries) {k n : ℕ} {rtp : Bytes}
    (hdelivery : deliveries[k]? = some n) (hrtp : packets[n]? = some rtp) :
    let earlier := deliveredBefore start deliveries k
    let results := outputs (SrtpContext.unprotect P) receiver copies
    results[k]? ≠ some (.error .authFailed) ∧
      ((wireIndex start n ∈ earlier ∨
          ∃ highest, earlier.max? = some highest ∧ wireIndex start n + 64 ≤ highest) →
        results[k]? = some (.error .replayed)) ∧
      (wireIndex start n ∉ earlier →
        (∀ highest, earlier.max? = some highest → highest < wireIndex start n + 64) →
          results[k]? = some (.ok rtp) ∧
            ∀ j other, j ≠ k → deliveries[j]? = some other →
              wireIndex start other = wireIndex start n →
                results[j]? = some (.error .replayed)) := by
  have hresult := @result_of_delivery P sender receiver ssrc start packets copies deliveries hkey
    hsender hreceiver hpackets hcopies hdeliverable
  obtain ⟨hrefused, hreturned⟩ := hresult hdelivery hrtp
  refine ⟨?_, fun hblocked ↦ hrefused (mem_history_iff_max.mpr hblocked), fun hnew hinside ↦ ?_⟩
  · by_cases hmem : wireIndex start n ∈ history replayWindow (deliveredBefore start deliveries k)
    · simp [hrefused hmem]
    · simp [hreturned hmem]
  · have hmem : wireIndex start n ∉ history replayWindow (deliveredBefore start deliveries k) := by
      rw [mem_history_iff_max]
      rintro (hin | ⟨highest, hhighest, hold⟩)
      · exact hnew hin
      · exact absurd (hinside highest hhighest) (Nat.not_lt.mpr hold)
    refine ⟨hreturned hmem, fun j other hne hother hsame ↦ ?_⟩
    rcases Nat.lt_or_gt_of_ne hne with hearlier | hlater
    · exact absurd (hsame ▸ mem_deliveredBefore hearlier hother) hnew
    · have hj : j < copies.length :=
        hcopies.length_eq ▸ (List.getElem?_eq_some_iff.mp hother).1
      obtain ⟨_, packet, _, hagain, hpacket, -⟩ :=
        copy_at P hsender hpackets hcopies (List.getElem?_eq_getElem hj)
      obtain rfl := Option.some.inj (hother.symm.trans hagain)
      refine (hresult hother hpacket).1 (mem_history_iff_max.mpr (Or.inl ?_))
      rw [hsame]
      exact mem_deliveredBefore hlater hdelivery

end Run

/-! ### A stream across a wrap, and one at half the sequence range -/

/-- Bare packets in order. -/
def bareStream (start : UInt16) (count : ℕ) : List Bytes :=
  (List.range count).map fun n ↦ bareRtp (start + UInt16.ofNat n)

theorem getElem?_bareStream {start : UInt16} {count n : ℕ} (hn : n < count) :
    (bareStream start count)[n]? = some (bareRtp (start + UInt16.ofNat n)) := by
  simp [bareStream, hn]

theorem inOrder_bareStream (start : UInt16) (count : ℕ) :
    InOrder 1 start (bareStream start count) := by
  intro n rtp hrtp
  have hn : n < count := by
    have hlength := (List.getElem?_eq_some_iff.mp hrtp).1
    simpa [bareStream] using hlength
  obtain rfl := Option.some.inj ((getElem?_bareStream hn).symm.trans hrtp)
  exact ⟨12, parseRtpHeader_bareRtp _⟩

theorem copyOf_bareStream (P : Primitives) {sender : SrtpContext} (hfresh : sender.stream 1 = {})
    (start : UInt16) {count n : ℕ} (hn : n < count) :
    CopyOf P sender (bareStream start count) n
      (sender.sealed P 12 1 (wireIndex start n) (UInt32.ofNat ((start.toNat + n) / 2 ^ 16))
        (bareRtp (start + UInt16.ofNat n))) :=
  protect_in_order P hfresh (inOrder_bareStream start count) (getElem?_bareStream hn)
    (parseRtpHeader_bareRtp _)

/-- Two packets across a wrap, the first of them delivered twice. -/
theorem delivery_across_wrap :
    Deliverable (2 ^ 15 - 1) 65535 [0, 1, 0] ∧
      ∀ (P : Primitives) (material : SrtpKeyMaterial),
        let fresh := SrtpContext.fromKeyMaterial P material
        ∃ copies, List.Forall₂ (CopyOf P fresh (bareStream 65535 2)) [0, 1, 0] copies ∧
          (outputs (SrtpContext.unprotect P) fresh copies)[0]? = some (.ok (bareRtp 65535)) ∧
          (outputs (SrtpContext.unprotect P) fresh copies)[2]? = some (.error .replayed) := by
  have hdeliverable : Deliverable (2 ^ 15 - 1) 65535 [0, 1, 0] := by
    refine ⟨by simp, ?_⟩
    rintro (_ | _ | _ | k) n highest hn hhighest
    · simp [deliveredBefore] at hhighest
    · obtain rfl := Option.some.inj hn
      obtain rfl : 65535 = highest := Option.some.inj hhighest
      decide
    · obtain rfl := Option.some.inj hn
      obtain rfl : 65536 = highest := Option.some.inj hhighest
      decide
    · simp at hn
  refine ⟨hdeliverable, fun P material ↦ ?_⟩
  have hempty := SrtpContext.stream_fromKeyMaterial P material 1
  generalize SrtpContext.fromKeyMaterial P material = fresh at hempty ⊢
  have hcopies := List.Forall₂.cons (copyOf_bareStream P hempty 65535 (by decide : 0 < 2))
    (List.Forall₂.cons (copyOf_bareStream P hempty 65535 (by decide : 1 < 2))
      (List.Forall₂.cons (copyOf_bareStream P hempty 65535 (by decide : 0 < 2))
        List.Forall₂.nil))
  obtain ⟨-, -, hreturned⟩ := delivery_of_copies P (SrtpContext.SameKey.refl fresh) hempty hempty
    (inOrder_bareStream 65535 2) hcopies hdeliverable (k := 0) (n := 0) rfl rfl
  obtain ⟨hfirst, hothers⟩ := hreturned (by decide) (by simp [deliveredBefore])
  exact ⟨_, hcopies, hfirst, hothers 2 0 (by decide) rfl rfl⟩

/-- At a distance of exactly `2¹⁵` the claim of `delivery_of_copies` fails: the packet that carries
the sequence number zero after the wrap is taken for one from before the anchor and reported as
replayed, on its first delivery and above everything delivered before it. -/
theorem delivery_at_half_range :
    Deliverable (2 ^ 15) 32768 [0, 32768] ∧
      wireIndex 32768 32768 ∉ deliveredBefore 32768 [0, 32768] 1 ∧
      (∀ highest, (deliveredBefore 32768 [0, 32768] 1).max? = some highest →
        highest < wireIndex 32768 32768 + 64) ∧
      InOrder 1 32768 (bareStream 32768 32769) ∧
      ∀ (P : Primitives) (material : SrtpKeyMaterial),
        let fresh := SrtpContext.fromKeyMaterial P material
        ∃ copies, List.Forall₂ (CopyOf P fresh (bareStream 32768 32769)) [0, 32768] copies ∧
          (outputs (SrtpContext.unprotect P) fresh copies)[1]? = some (.error .replayed) := by
  refine ⟨⟨by simp, ?_⟩, by decide, ?_, inOrder_bareStream 32768 32769, fun P material ↦ ?_⟩
  · rintro (_ | _ | k) n highest hn hhighest
    · simp [deliveredBefore] at hhighest
    · obtain rfl := Option.some.inj hn
      obtain rfl : 32768 = highest := Option.some.inj hhighest
      decide
    · simp at hn
  · rintro highest hhighest
    obtain rfl : 32768 = highest := Option.some.inj hhighest
    decide
  · have hempty := SrtpContext.stream_fromKeyMaterial P material 1
    generalize SrtpContext.fromKeyMaterial P material = fresh at hempty ⊢
    have hcopies := List.Forall₂.cons (copyOf_bareStream P hempty 32768 (by decide : 0 < 32769))
      (List.Forall₂.cons (copyOf_bareStream P hempty 32768 (by decide : 32768 < 32769))
        List.Forall₂.nil)
    refine ⟨_, hcopies, ?_⟩
    have hguess : ((fresh.stream 1).indexFor (32768 + UInt16.ofNat 0)).1 =
        (wireIndex 32768 0, UInt32.ofNat (((32768 : UInt16).toNat + 0) / 2 ^ 16)) := by
      rw [hempty]
      decide
    have hfirst := SrtpContext.unprotect_sealed_of_guess P (SrtpContext.SameKey.refl fresh)
      (parseRtpHeader_bareRtp _) hguess
    rw [hempty] at hfirst
    have hsecond := SrtpContext.unprotect_sealed P
      (SrtpContext.SameKey.setStream fresh 1 (({} : StreamState).accepted 32768)).symm
      (parseRtpHeader_bareRtp (32768 + UInt16.ofNat 32768)) (wireIndex 32768 32768)
      (UInt32.ofNat (((32768 : UInt16).toNat + 32768) / 2 ^ 16))
    simp only [SrtpContext.openPortion, SrtpContext.stream_setStream_self] at hsecond
    rw [outputs_cons, hfirst]
    exact congrArg (fun result ↦ some result.1) hsecond

end SiphonRtp.Srtp
