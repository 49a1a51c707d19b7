import Mathlib.Tactic.NormNum
import SiphonRtp.Machine.Runs
import SiphonRtp.Media.JitterBuffer
import SiphonRtp.Media.Rtp

/-!
# The fraction lost of a reception report

`MediaLeg::fraction_lost_since_last_report` of `leg.rs`. The packets expected come from the sequence
numbers received (`IngressStats`), and the lost ones from the slots that the jitter buffer has
concealed or dropped. Both are read at each report and their difference to the report before is
taken in 32 bits, which is the number of packets expected and lost in between as long as it fits
(`run_between`).

A slot is lost when it is played, which may be after the report that follows the packets around it.
More can thus be lost in an interval than is expected in it, and the source then reports that
nothing was: its comparison is meant for a negative number of lost packets, which the jitter buffer
never counts. `fraction_lost_iff` says that this is the only case in which the fraction is wrong,
and `losses_of_the_interval_before` is one.
-/

set_option autoImplicit false

namespace SiphonRtp.Media.Reception

open Machine

/-! ### The leg -/

structure IngressStats where
  ssrc : Option UInt32
  maxSequence : UInt16
  cycles : UInt16
  baseSequence : Option UInt16

namespace IngressStats

/-- `IngressStats::new`. -/
def new : IngressStats where
  ssrc := none
  maxSequence := 0
  cycles := 0
  baseSequence := none

variable (stats : IngressStats)

/-- `on_rtp`. -/
def onRtp (ssrc : UInt32) (sequence : UInt16) : IngressStats :=
  if stats.ssrc.isNone then
    { stats with ssrc := some ssrc, maxSequence := sequence, baseSequence := some sequence }
  else if sequence - stats.maxSequence < 0x8000 then
    { stats with
      cycles := if sequence < stats.maxSequence then stats.cycles + 1 else stats.cycles
      maxSequence := sequence }
  else stats

def extendedHighestSequence : UInt32 :=
  stats.cycles.toUInt32 <<< 16 ||| stats.maxSequence.toUInt32

def expected : UInt32 :=
  match stats.baseSequence with
  | some base => stats.extendedHighestSequence - base.toUInt32 + 1
  | none => 0

end IngressStats

structure MediaLeg where
  jitter : JitterBuffer
  ingress : IngressStats
  fractionLostExpectedPrior : UInt32
  fractionLostLostPrior : UInt32

namespace MediaLeg

/-- `MediaLeg::new`. -/
def new (jitter : JitterBuffer) : MediaLeg where
  jitter
  ingress := .new
  fractionLostExpectedPrior := 0
  fractionLostLostPrior := 0

variable (leg : MediaLeg)

/-- `ingest_rtp`. -/
def ingestRtp (packet : Bytes) : Except RtpError PushResult × MediaLeg :=
  match RtpPacket.parse packet with
  | .error error => (.error error, leg)
  | .ok parsed =>
    let pushed := leg.jitter.push parsed.sequence parsed.payload
    (.ok pushed.1,
      { leg with ingress := leg.ingress.onRtp parsed.ssrc parsed.sequence, jitter := pushed.2 })

/-- `next_pcm`, up to the decoder. -/
def nextPcm : JitterOutput × MediaLeg :=
  (leg.jitter.pop.1, { leg with jitter := leg.jitter.pop.2 })

/-- `fraction_lost_since_last_report`. -/
def fractionLostSinceLastReport : UInt8 × MediaLeg :=
  if leg.ingress.ssrc.isNone then (0, leg)
  else
    let expected := leg.ingress.expected
    let lost := UInt32.ofNat leg.jitter.stats.losses
    let expectedInterval := expected - leg.fractionLostExpectedPrior
    let lostInterval := lost - leg.fractionLostLostPrior
    let reported : UInt8 :=
      -- the last comparison is meant for losses below zero, after duplicates
      if expectedInterval = 0 ∨ lostInterval = 0 ∨ expectedInterval < lostInterval then 0
      else (min (lostInterval.toUInt64 <<< 8 / expectedInterval.toUInt64) 255).toUInt8
    (reported, { leg with fractionLostExpectedPrior := expected, fractionLostLostPrior := lost })

end MediaLeg

/-- A call of the leg. -/
inductive LegCall
  | packet (packet : Bytes)
  | tick
  | report
deriving DecidableEq

/-- A call, with the fraction that it reports. -/
def MediaLeg.step (leg : MediaLeg) : LegCall → Option UInt8 × MediaLeg
  | .packet packet => (none, (leg.ingestRtp packet).2)
  | .tick => (none, leg.nextPcm.2)
  | .report => (some leg.fractionLostSinceLastReport.1, leg.fractionLostSinceLastReport.2)

/-! ### The packets expected -/

/-- The packets that a packet shows to have been sent: those since the highest number so far. -/
def IngressStats.advance (stats : IngressStats) (sequence : UInt16) : ℕ :=
  if stats.ssrc.isNone then 1
  else if sequence - stats.maxSequence < 0x8000 then (sequence - stats.maxSequence).toNat
  else 0

/-- The packets that a call shows to have been sent. -/
def MediaLeg.expects (leg : MediaLeg) : LegCall → ℕ
  | .packet packet =>
    match RtpPacket.parse packet with
    | .error _ => 0
    | .ok parsed => leg.ingress.advance parsed.sequence
  | .tick => 0
  | .report => 0

/-- The packets expected in a run. -/
def MediaLeg.expectedIn (leg : MediaLeg) : List LegCall → ℕ
  | [] => 0
  | call :: calls => leg.expects call + (leg.step call).2.expectedIn calls

theorem toNat_extendedHighestSequence (stats : IngressStats) :
    stats.extendedHighestSequence.toNat =
      stats.cycles.toNat * 2 ^ 16 + stats.maxSequence.toNat := by
  have hcycles := stats.cycles.toNat_lt
  have hmax := stats.maxSequence.toNat_lt
  have hhigh : (stats.cycles.toUInt32 <<< 16).toNat = 2 ^ 16 * stats.cycles.toNat := by
    change stats.cycles.toNat <<< 16 % 2 ^ 32 = _
    rw [Nat.shiftLeft_eq, Nat.mod_eq_of_lt (by omega), Nat.mul_comm]
  rw [IngressStats.extendedHighestSequence, UInt32.toNat_or, hhigh, UInt16.toNat_toUInt32,
    ← Nat.two_pow_add_eq_or_of_lt hmax, Nat.mul_comm]

/-- The statistics have a base once they have a source, and nothing before. -/
structure IngressStats.Based (stats : IngressStats) : Prop where
  fresh : stats.ssrc = none → stats = .new
  based : stats.ssrc ≠ none → stats.baseSequence ≠ none

theorem extendedHighestSequence_onRtp {stats : IngressStats} {ssrc : UInt32} {sequence : UInt16}
    (hsource : stats.ssrc ≠ none) :
    (stats.onRtp ssrc sequence).extendedHighestSequence =
      stats.extendedHighestSequence + UInt32.ofNat (stats.advance sequence) := by
  have hsome : ¬ stats.ssrc.isNone := by simpa using hsource
  rw [← UInt32.toNat_inj, UInt32.toNat_add, toNat_extendedHighestSequence,
    toNat_extendedHighestSequence, UInt32.toNat_ofNat', IngressStats.onRtp, IngressStats.advance]
  have hcycles := stats.cycles.toNat_lt
  have hmax := stats.maxSequence.toNat_lt
  have hsequence := sequence.toNat_lt
  split_ifs with hahead hwrapped
  · rw [UInt16.lt_iff_toNat_lt] at hwrapped
    rw [UInt16.toNat_sub]
    change (stats.cycles.toNat + 1) % 2 ^ 16 * 2 ^ 16 + sequence.toNat = _
    omega
  · rw [UInt16.lt_iff_toNat_lt] at hwrapped
    rw [UInt16.toNat_sub]
    dsimp only
    omega
  · omega

theorem expected_onRtp {stats : IngressStats} (hbased : stats.Based) (ssrc : UInt32)
    (sequence : UInt16) :
    (stats.onRtp ssrc sequence).expected =
      stats.expected + UInt32.ofNat (stats.advance sequence) := by
  by_cases hsource : stats.ssrc = none
  · rw [hbased.fresh hsource]
    simp [IngressStats.onRtp, IngressStats.new, IngressStats.expected, IngressStats.advance,
      IngressStats.extendedHighestSequence]
  · obtain ⟨base, hbase⟩ := Option.ne_none_iff_exists'.mp (hbased.based hsource)
    have hsame : (stats.onRtp ssrc sequence).baseSequence = some base := by
      have hsome : ¬ stats.ssrc.isNone := by simpa using hsource
      rw [IngressStats.onRtp, if_neg hsome]
      split <;> exact hbase
    rw [IngressStats.expected, IngressStats.expected]
    rw [extendedHighestSequence_onRtp hsource]
    grind

theorem IngressStats.Based.onRtp {stats : IngressStats} (hbased : stats.Based) (ssrc : UInt32)
    (sequence : UInt16) : (stats.onRtp ssrc sequence).Based := by
  unfold IngressStats.onRtp
  split
  next => exact ⟨(fun hnone ↦ by cases hnone), fun _ ↦ Option.some_ne_none _⟩
  next hsome =>
    have hsource : stats.ssrc ≠ none := by simpa using hsome
    split
    · exact ⟨fun hnone ↦ absurd hnone hsource, hbased.based⟩
    · exact hbased

/-! ### Between two reports -/

/-- What is true of a leg in every run: without a packet it has no losses either, and nothing was
reported. -/
structure MediaLeg.Sound (leg : MediaLeg) : Prop where
  based : leg.ingress.Based
  fresh : leg.ingress.ssrc = none → leg.jitter.nextOut = none ∧ leg.jitter.stats.losses = 0 ∧
    leg.fractionLostExpectedPrior = 0 ∧ leg.fractionLostLostPrior = 0

variable {leg : MediaLeg}

theorem ssrc_onRtp (stats : IngressStats) (ssrc : UInt32) (sequence : UInt16) :
    (stats.onRtp ssrc sequence).ssrc ≠ none := by
  unfold IngressStats.onRtp
  split
  next => exact Option.some_ne_none _
  next hsome =>
    have hsource : stats.ssrc ≠ none := by simpa using hsome
    split <;> exact hsource

theorem MediaLeg.Sound.step (hsound : leg.Sound) (call : LegCall) : (leg.step call).2.Sound := by
  cases call with
  | packet packet =>
    unfold MediaLeg.step MediaLeg.ingestRtp
    dsimp only
    split
    · exact hsound
    · exact ⟨hsound.based.onRtp _ _, fun hnone ↦ absurd hnone (ssrc_onRtp _ _ _)⟩
  | tick =>
    refine ⟨hsound.based, fun hnone ↦ ?_⟩
    obtain ⟨hnext, hrest⟩ := hsound.fresh hnone
    have hpop : leg.jitter.pop.2 = leg.jitter := by
      unfold JitterBuffer.pop
      rw [hnext]
    change leg.jitter.pop.2.nextOut = none ∧ leg.jitter.pop.2.stats.losses = 0 ∧ _
    rw [hpop]
    exact ⟨hnext, hrest⟩
  | report =>
    unfold MediaLeg.step MediaLeg.fractionLostSinceLastReport
    dsimp only
    split
    next => exact hsound
    next hsome => exact ⟨hsound.based, fun hnone ↦ absurd (by simpa using hnone) hsome⟩

/-- The counts as they were at the last report. -/
structure MediaLeg.Reported (leg : MediaLeg) : Prop where
  expected : leg.fractionLostExpectedPrior = leg.ingress.expected
  lost : leg.fractionLostLostPrior = UInt32.ofNat leg.jitter.stats.losses

theorem reported_report (hsound : leg.Sound) : (leg.step .report).2.Reported := by
  unfold MediaLeg.step MediaLeg.fractionLostSinceLastReport
  dsimp only
  split
  next hnone =>
    have hsource : leg.ingress.ssrc = none := by simpa using hnone
    obtain ⟨-, hlosses, hexpected, hlost⟩ := hsound.fresh hsource
    refine ⟨?_, ?_⟩
    · rw [hexpected, hsound.based.fresh hsource]
      rfl
    · rw [hlost, hlosses]
      rfl
  next => exact ⟨rfl, rfl⟩

/-- A call between two reports counts what it shows to have been sent. -/
theorem step_between (hsound : leg.Sound) {call : LegCall} (hcall : call ≠ .report) :
    (leg.step call).2.ingress.expected = leg.ingress.expected + UInt32.ofNat (leg.expects call) ∧
      leg.jitter.stats.losses ≤ (leg.step call).2.jitter.stats.losses ∧
      (leg.step call).2.fractionLostExpectedPrior = leg.fractionLostExpectedPrior ∧
      (leg.step call).2.fractionLostLostPrior = leg.fractionLostLostPrior := by
  have hzero (count : UInt32) : count = count + UInt32.ofNat 0 := (UInt32.add_zero count).symm
  cases call with
  | packet packet =>
    unfold MediaLeg.step MediaLeg.ingestRtp MediaLeg.expects
    dsimp only
    cases RtpPacket.parse packet with
    | error error => exact ⟨hzero _, le_rfl, rfl, rfl⟩
    | ok parsed =>
      exact ⟨expected_onRtp hsound.based _ _, leg.jitter.losses_le_push _ _, rfl, rfl⟩
  | tick => exact ⟨hzero _, leg.jitter.losses_le_pop, rfl, rfl⟩
  | report => exact absurd rfl hcall

theorem run_between (hsound : leg.Sound) {calls : List LegCall} (hcalls : .report ∉ calls) :
    (final MediaLeg.step leg calls).ingress.expected =
        leg.ingress.expected + UInt32.ofNat (leg.expectedIn calls) ∧
      leg.jitter.stats.losses ≤ (final MediaLeg.step leg calls).jitter.stats.losses ∧
      (final MediaLeg.step leg calls).fractionLostExpectedPrior =
        leg.fractionLostExpectedPrior ∧
      (final MediaLeg.step leg calls).fractionLostLostPrior = leg.fractionLostLostPrior := by
  induction calls generalizing leg with
  | nil => exact ⟨(UInt32.add_zero _).symm, le_rfl, rfl, rfl⟩
  | cons call calls ih =>
    obtain ⟨hexpected, hlosses, hprior, hlost⟩ :=
      step_between hsound (List.ne_of_not_mem_cons hcalls).symm
    obtain ⟨hexpected', hlosses', hprior', hlost'⟩ :=
      ih (hsound.step call) (List.not_mem_of_not_mem_cons hcalls)
    rw [final_cons]
    refine ⟨?_, hlosses.trans hlosses', hprior'.trans hprior, hlost'.trans hlost⟩
    rw [hexpected', hexpected, MediaLeg.expectedIn, UInt32.ofNat_add, UInt32.add_assoc]

/-! ### The fraction -/

theorem toNat_min64 (a b : UInt64) : (min a b).toNat = min a.toNat b.toNat := by
  change (if a ≤ b then a else b).toNat = _
  split_ifs with hle
  · exact (Nat.min_eq_left (UInt64.le_iff_toNat_le.mp hle)).symm
  · exact (Nat.min_eq_right (Nat.le_of_not_le fun h ↦ hle (UInt64.le_iff_toNat_le.mpr h))).symm

theorem toNat_fraction (expected lost : UInt32) :
    (min (lost.toUInt64 <<< 8 / expected.toUInt64) 255).toUInt8.toNat =
      min 255 (256 * lost.toNat / expected.toNat) := by
  have hlost := lost.toNat_lt
  have hshift : (lost.toUInt64 <<< 8).toNat = 256 * lost.toNat := by
    change lost.toNat <<< 8 % 2 ^ 64 = _
    rw [Nat.shiftLeft_eq, Nat.mod_eq_of_lt (by omega), Nat.mul_comm]
  rw [UInt64.toNat_toUInt8, toNat_min64, UInt64.toNat_div, hshift, Nat.min_comm]
  exact Nat.mod_eq_of_lt (Nat.lt_of_le_of_lt (Nat.min_le_left _ _) (by decide))

/-- The leg after some calls. -/
def legAfter (jitter : JitterBuffer) (calls : List LegCall) : MediaLeg :=
  final MediaLeg.step (.new jitter) calls

/-- The calls end where an interval begins: with a report, or there are none. -/
def AtReport (calls : List LegCall) : Prop := calls = [] ∨ ∃ before, calls = before ++ [.report]

theorem sound_legAfter {jitter : JitterBuffer} (hnext : jitter.nextOut = none)
    (hlosses : jitter.stats.losses = 0) (calls : List LegCall) : (legAfter jitter calls).Sound :=
  final_invariant MediaLeg.Sound (fun _ call _ hsound ↦ hsound.step call)
    ⟨⟨fun _ ↦ rfl, fun hsome ↦ absurd rfl hsome⟩, fun _ ↦ ⟨hnext, hlosses, rfl, rfl⟩⟩

theorem reported_legAfter {jitter : JitterBuffer} (hnext : jitter.nextOut = none)
    (hlosses : jitter.stats.losses = 0) {calls : List LegCall} (hat : AtReport calls) :
    (legAfter jitter calls).Reported := by
  rcases hat with rfl | ⟨before, rfl⟩
  · exact ⟨rfl, (congrArg UInt32.ofNat hlosses).symm⟩
  · rw [legAfter, final_append]
    exact reported_report (sound_legAfter hnext hlosses before)

/-- What is reported of an interval with some packets expected. -/
theorem fraction_of_interval (hsound : leg.Sound) (hreported : leg.Reported)
    {interval : List LegCall} (hinterval : .report ∉ interval) {expected lost : ℕ}
    (hexpected : expected = leg.expectedIn interval)
    (hlost : lost = (final MediaLeg.step leg interval).jitter.stats.losses -
      leg.jitter.stats.losses)
    (hpos : 0 < expected) (hrange : expected < 2 ^ 32) (hlostRange : lost < 2 ^ 32) :
    (final MediaLeg.step leg interval).fractionLostSinceLastReport.1.toNat =
      if expected < lost then 0 else min 255 (256 * lost / expected) := by
  obtain ⟨hnow, hlosses, hprior, hlostPrior⟩ := run_between hsound hinterval
  have hafter : (final MediaLeg.step leg interval).Sound :=
    final_invariant MediaLeg.Sound (fun _ call _ hsound ↦ hsound.step call) hsound
  generalize final MediaLeg.step leg interval = after at *
  have hcancel (a b : UInt32) : a + b - a = b := by grind
  have hexpectedInterval : (after.ingress.expected - after.fractionLostExpectedPrior).toNat =
      expected := by
    rw [hnow, hprior, hreported.expected, ← hexpected, hcancel,
      UInt32.toNat_ofNat', Nat.mod_eq_of_lt hrange]
  have hlostInterval : (UInt32.ofNat after.jitter.stats.losses -
      after.fractionLostLostPrior).toNat = lost := by
    have hsum : after.jitter.stats.losses = leg.jitter.stats.losses + lost := by omega
    rw [hlostPrior, hreported.lost, hsum, UInt32.ofNat_add, hcancel,
      UInt32.toNat_ofNat', Nat.mod_eq_of_lt hlostRange]
  have hsource : ¬ after.ingress.ssrc.isNone := by
    intro hnone
    have hnew := hafter.based.fresh (by simpa using hnone)
    obtain ⟨-, -, hfresh, -⟩ := hafter.fresh (by simpa using hnone)
    rw [hnew, hfresh] at hexpectedInterval
    exact hpos.ne hexpectedInterval
  rw [MediaLeg.fractionLostSinceLastReport]
  dsimp only
  have hzero (count : UInt32) : count = 0 ↔ count.toNat = 0 := UInt32.toNat_inj.symm
  split_ifs with hnothing hmore <;>
    rw [hzero, hzero, UInt32.lt_iff_toNat_lt] at hnothing
  · rfl
  · obtain rfl : lost = 0 := by omega
    simp
  · omega
  · rw [toNat_fraction, hexpectedInterval, hlostInterval]

/-- When the fraction lost is exact. Assumes: an interval between two reports of any history of a
leg, in which packets were expected, and counts in 32 bits. The losses counted never decrease, and
the fraction reported is that of the packets expected and lost in the interval if and only if no
more were lost than expected. Otherwise it is zero. -/
theorem fraction_lost_iff (targetDepth maxDepth : ℕ) {before interval : List LegCall}
    (hbefore : AtReport before) (hinterval : .report ∉ interval) :
    let start := legAfter (.new targetDepth maxDepth) before
    let finish := legAfter (.new targetDepth maxDepth) (before ++ interval)
    let expected := start.expectedIn interval
    let lost := finish.jitter.stats.losses - start.jitter.stats.losses
    let reported := finish.fractionLostSinceLastReport.1.toNat
    start.jitter.stats.losses ≤ finish.jitter.stats.losses ∧
      (0 < expected → expected < 2 ^ 32 → lost < 2 ^ 32 →
        (reported = min 255 (256 * lost / expected) ↔ lost ≤ expected) ∧
          (reported = 0 ↔ 256 * lost < expected ∨ expected < lost)) := by
  have hsound := @sound_legAfter (.new targetDepth maxDepth) rfl rfl before
  have hreported := @reported_legAfter (.new targetDepth maxDepth) rfl rfl before hbefore
  intro start finish expected lost reported
  have hfinish : finish = final MediaLeg.step start interval := final_append _ _ _ _
  refine ⟨hfinish ▸ (run_between hsound hinterval).2.1, fun hpos hrange hlostRange ↦ ?_⟩
  have hvalue : reported = if expected < lost then 0 else min 255 (256 * lost / expected) := by
    have hfraction := @fraction_of_interval start hsound hreported interval hinterval expected lost
      rfl (by rw [← hfinish]) hpos hrange hlostRange
    rwa [← hfinish] at hfraction
  have hzero : min 255 (256 * lost / expected) = 0 ↔ 256 * lost < expected := by
    rw [Nat.min_eq_zero_iff, Nat.div_eq_zero_iff]
    omega
  rw [hvalue]
  split_ifs with hmore
  · refine ⟨⟨fun hsame ↦ ?_, fun hless ↦ absurd hmore (Nat.not_lt.mpr hless)⟩,
      ⟨fun _ ↦ .inr hmore, fun _ ↦ rfl⟩⟩
    omega
  · exact ⟨⟨fun _ ↦ Nat.not_lt.mp hmore, fun _ ↦ rfl⟩,
      ⟨fun hnothing ↦ .inl (hzero.mp hnothing), fun hfew ↦ hzero.mpr (hfew.resolve_right hmore)⟩⟩

/-- A packet without payload. -/
def barePacket (sequence : UInt8) : Bytes := [0x80, 0, 0, sequence, 0, 0, 0, 0, 0, 0, 0, 7]

theorem one_of_four_lost :
    let interval := [0, 1, 3].map (LegCall.packet ∘ barePacket) ++ List.replicate 4 .tick
    (legAfter (.new 2 8) ([] ++ interval)).fractionLostSinceLastReport.1.toNat = 64 := by
  intro interval
  have hfraction := (@fraction_lost_iff 2 8 [] interval (.inl rfl) (by decide)).2
    (by decide +kernel) (by decide +kernel) (by decide +kernel)
  exact (hfraction.1.mpr (by decide +kernel)).trans (by decide +kernel)

/-- Nine packets between the first two that arrive are missing when the report is made. They are
played as lost ones after it, in an interval with one more packet, and none is reported. -/
theorem losses_of_the_interval_before :
    let before := [0, 10].map (LegCall.packet ∘ barePacket) ++ [.report]
    let interval := List.replicate 10 .tick ++ [.packet (barePacket 11)]
    let finish := legAfter (.new 1 16) (before ++ interval)
    (legAfter (.new 1 16) before).expectedIn interval = 1 ∧
      finish.jitter.stats.losses - (legAfter (.new 1 16) before).jitter.stats.losses = 9 ∧
      finish.fractionLostSinceLastReport.1 = 0 := by
  decide +kernel

end SiphonRtp.Media.Reception
