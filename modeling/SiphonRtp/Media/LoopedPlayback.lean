import Mathlib.Algebra.Group.Int.Defs
import Mathlib.Algebra.Order.Group.Nat
import SiphonRtp.Machine.Runs

/-!
# Looped playback

`PcmPlayer` of `player.rs`, and `Playback::next_frame` of `playback.rs` for a prompt at the rate of
the leg. The player cuts frames out of one pass of the prompt after the other, from the seek point
on, and fills the last frame of every pass with silence; the playback counts one packetization time
for each frame.

`Playback.Plain.frames` is the playback of any prompt: the frames of the passes (`framesOf`), one
pass after the other, and then nothing. `looped_playback` has the consequences for the sound and for
the time played, where the passes fill their frames. The reported duration is in whole milliseconds,
rounded down, so the time played can be a whole frame more (`frame_beyond_duration`).
-/

set_option autoImplicit false

namespace SiphonRtp.Media.Prompt

open Machine

/-! ### The player -/

inductive PcmRepeat
  | times (count : UInt32)
  | forever

def PcmRepeat.totalPlays : PcmRepeat → Option ℕ
  | .times count => some (max count.toNat 1)
  | .forever => none

/-- The sample that a seek point stands for. -/
def seekSample (startPosMs sampleRateHz : UInt32) : ℕ :=
  startPosMs.toNat * sampleRateHz.toNat / 1000

structure PcmPlayer where
  mono : List Int16
  sampleRateHz : UInt32
  position : ℕ
  playsDone : ℕ
  repeats : PcmRepeat
  loopStart : ℕ

namespace PcmPlayer

/-- `PcmPlayer::from_shared`. -/
def fromShared (mono : List Int16) (sampleRateHz : UInt32) (repeats : PcmRepeat)
    (startPosMs : UInt32) : PcmPlayer :=
  let loopStart := min (seekSample startPosMs sampleRateHz) mono.length
  { mono, sampleRateHz, position := loopStart, playsDone := 0, repeats, loopStart }

variable (player : PcmPlayer)

/-- `body_can_advance`. -/
def bodyCanAdvance : Bool := !player.mono.isEmpty && decide (player.loopStart < player.mono.length)

/-- `duration_ms`, in the 64 bits of the source. -/
def durationMs : Option ℕ :=
  if player.mono.isEmpty ∨ player.sampleRateHz = 0 then some 0
  else
    match player.repeats.totalPlays with
    | none => if player.bodyCanAdvance then none else some 0
    | some totalPlays =>
      let played := min player.playsDone totalPlays
      let tailOfPass := player.mono.length - player.position
      let fullPassesLeft := totalPlays - (played + 1)
      let perPass := player.mono.length - player.loopStart
      let samples := (tailOfPass + fullPassesLeft * perPass % 2 ^ 64) % 2 ^ 64
      some (samples * 1000 % 2 ^ 64 / player.sampleRateHz.toNat)

/-- All the passes have been played. -/
def isDone : Bool := player.repeats.totalPlays.any (· ≤ player.playsDone)

/-- A frame of `size` samples out of the pass, with silence behind its end, and the number of
samples that are not silence. -/
def takeFrame (size : ℕ) : (List Int16 × ℕ) × PcmPlayer :=
  let take := min (player.mono.length - player.position) size
  (((player.mono.drop player.position).take take ++ List.replicate (size - take) 0, take),
    { player with position := player.position + take })

/-- `PcmPlayer::next_frame`, which goes through its loop at most twice. -/
def nextFrame (size : ℕ) : Option (List Int16 × ℕ) × PcmPlayer :=
  if size = 0 then (none, player)
  else if player.isDone then (none, player)
  else if player.position < player.mono.length then
    (some (player.takeFrame size).1, (player.takeFrame size).2)
  else
    let next := { player with playsDone := min (player.playsDone + 1) (2 ^ 32 - 1) }
    if next.isDone then (none, next)
    else
      let rewound := { next with position := next.loopStart }
      if rewound.mono.length ≤ rewound.position then (none, rewound)
      else (some (rewound.takeFrame size).1, (rewound.takeFrame size).2)

end PcmPlayer

/-! ### The playback -/

/-- A playout gain as a fixed-point multiplier. -/
structure Gain where
  decibels : ℤ
  multiplier : ℤ

/-- `Gain::unity`. -/
def Gain.unity : Gain := ⟨0, 2 ^ 16⟩

/-- A sum of samples in the range of one. -/
def saturateI16 (value : ℤ) : Int16 := Int16.ofInt (max (-2 ^ 15) (min value (2 ^ 15 - 1)))

/-- `Gain::scale`. -/
def Gain.scale (gain : Gain) (sample : Int16) : ℤ :=
  (sample.toInt * gain.multiplier + 2 ^ 15) / 2 ^ 16

/-- `Gain::apply_in_place`. -/
def Gain.applyTo (gain : Gain) (samples : List Int16) : List Int16 :=
  if gain.decibels = 0 then samples else samples.map fun sample ↦ saturateI16 (gain.scale sample)

structure Playback where
  source : PcmPlayer
  gain : Gain
  playedMs : ℕ
  durationCapMs : Option ℕ
  egressFrameSamples : ℕ
  packetizationTimeMs : UInt32
  finished : Bool

inductive PlaybackError
  | zeroEgressSampleRate
  | zeroPacketizationTime
deriving DecidableEq

/-- The samples of a packetization time. -/
def frameSamples (sampleRateHz packetizationTimeMs : UInt32) : ℕ :=
  sampleRateHz.toNat * packetizationTimeMs.toNat / 1000

namespace Playback

/-- `Playback::new` for a prompt at the rate of the leg, which needs no resampler. -/
def new (source : PcmPlayer) (packetizationTimeMs : UInt32) (gain : Gain)
    (durationCapMs : Option ℕ) : Except PlaybackError Playback :=
  if source.sampleRateHz = 0 then .error .zeroEgressSampleRate
  else if packetizationTimeMs = 0 then .error .zeroPacketizationTime
  else .ok {
    source, gain, playedMs := 0, durationCapMs
    egressFrameSamples := max (frameSamples source.sampleRateHz packetizationTimeMs) 1
    packetizationTimeMs, finished := false }

variable (playback : Playback)

/-- `total_duration_ms`. -/
def totalDurationMs : Option ℕ :=
  match playback.source.durationMs, playback.durationCapMs with
  | some source, some cap => some (min source cap)
  | some source, none => some source
  | none, cap => cap

/-- `Playback::next_frame` into a buffer of so many samples: the frame, and the number of its
samples that are not silence. -/
def nextFrame (capacity : ℕ) : Option (List Int16 × ℕ) × Playback :=
  if playback.finished ∨ capacity < playback.egressFrameSamples then (none, playback)
  else
    match playback.source.nextFrame playback.egressFrameSamples with
    | (none, source) => (none, { playback with source, finished := true })
    | (some (frame, written), source) =>
      let playedMs := min (playback.playedMs + playback.packetizationTimeMs.toNat) (2 ^ 64 - 1)
      (some (playback.gain.applyTo (frame.take written) ++
          List.replicate (playback.egressFrameSamples - written) 0, written),
        { playback with
          source, playedMs
          finished := playback.durationCapMs.any (· ≤ playedMs) })

end Playback

/-! ### The frames of a pass -/

/-- Samples cut into frames, with silence behind the last. -/
def framesOf (size : ℕ) (samples : List Int16) : List (List Int16) :=
  if _hnone : samples = [] ∨ size = 0 then []
  else
    (samples.take size ++ List.replicate (size - samples.length) 0) ::
      framesOf size (samples.drop size)
termination_by samples.length
decreasing_by
  have hlength := List.length_pos_iff.mpr (not_or.mp _hnone).1
  rw [List.length_drop]
  omega

variable {size : ℕ}

theorem framesOf_nil : framesOf size [] = [] := by
  rw [framesOf, dif_pos (.inl rfl)]

theorem framesOf_cons (hsize : 0 < size) {samples : List Int16} (hne : samples ≠ []) :
    framesOf size samples =
      (samples.take size ++ List.replicate (size - samples.length) 0) ::
        framesOf size (samples.drop size) := by
  rw [framesOf, dif_neg (not_or.mpr ⟨hne, Nat.ne_of_gt hsize⟩)]

/-- What silence is missing to a whole number of frames. -/
def fill (size length : ℕ) : ℕ := (size - length % size) % size

theorem flatten_framesOf (hsize : 0 < size) (samples : List Int16) :
    (framesOf size samples).flatten = samples ++ List.replicate (fill size samples.length) 0 ∧
      (framesOf size samples).length = (samples.length + size - 1) / size := by
  induction hlength : samples.length using Nat.strong_induction_on generalizing samples with
  | _ length ih =>
    by_cases hne : samples = []
    · subst hne
      obtain rfl : length = 0 := hlength.symm
      refine ⟨?_, ?_⟩
      · rw [framesOf_nil]
        simp [fill]
      · rw [framesOf_nil, List.length_nil, Nat.div_eq_of_lt (by omega)]
    have hpos := List.length_pos_iff.mpr hne
    rw [framesOf_cons hsize hne, List.flatten_cons, List.length_cons]
    rcases Nat.lt_or_ge size length with hlong | hshort
    · -- a whole frame, and the rest
      obtain ⟨hflatten, hcount⟩ := ih (length - size) (by omega) (samples.drop size)
        (by rw [List.length_drop, hlength])
      have hfill : fill size (length - size) = fill size length := by
        rw [fill, fill, ← Nat.mod_eq_sub_mod (by omega)]
      have hone : length + size - 1 = (length - size + size - 1) + size := by omega
      rw [hflatten, hcount, hlength, Nat.sub_eq_zero_of_le hlong.le, hfill, hone,
        Nat.add_div_right _ hsize]
      refine ⟨?_, rfl⟩
      rw [List.replicate_zero, List.append_nil, ← List.append_assoc, List.take_append_drop]
    · -- the last frame
      have hrest : samples.drop size = [] := List.drop_of_length_le (by omega)
      have hfill : fill size length = size - length := by
        rcases Nat.lt_or_eq_of_le hshort with hless | rfl
        · rw [fill, Nat.mod_eq_of_lt hless, Nat.mod_eq_of_lt (by omega)]
        · rw [fill, Nat.mod_self, Nat.sub_zero, Nat.mod_self, Nat.sub_self]
      have hone : length + size - 1 = length - 1 + size := by omega
      rw [hrest, framesOf_nil, List.take_of_length_le (by omega), hlength, hfill, hone,
        Nat.add_div_right _ hsize, Nat.div_eq_of_lt (by omega)]
      exact ⟨List.append_nil _, rfl⟩

/-! ### The passes -/

/-- The samples of a pass. -/
def PcmPlayer.pass (player : PcmPlayer) : List Int16 := player.mono.drop player.loopStart

/-- The frames that are left of a number of passes. -/
def PcmPlayer.framesLeft (player : PcmPlayer) (size total : ℕ) : List (List Int16) :=
  framesOf size (player.mono.drop player.position) ++
    (List.replicate (total - player.playsDone - 1) (framesOf size player.pass)).flatten

/-- A player under way in one of its passes. -/
structure PcmPlayer.UnderWay (player : PcmPlayer) (total : ℕ) : Prop where
  plays : player.repeats.totalPlays = some total
  range : total < 2 ^ 32
  pass : player.playsDone < total
  inside : player.loopStart < player.mono.length

namespace PcmPlayer.UnderWay

variable {player : PcmPlayer} {total : ℕ}

theorem isDone_iff (htotal : player.repeats.totalPlays = some total) :
    player.isDone = decide (total ≤ player.playsDone) := by
  rw [PcmPlayer.isDone, htotal]
  rfl

/-- A frame out of a pass that is not at its end. -/
theorem takeFrame (hway : player.UnderWay total) (hsize : 0 < size)
    (hleft : player.position < player.mono.length) :
    ∃ frame written next, player.takeFrame size = ((frame, written), next) ∧
      frame.take written ++ List.replicate (size - written) 0 = frame ∧
      player.framesLeft size total = frame :: next.framesLeft size total ∧
      next.UnderWay total := by
  have hlength : (player.mono.drop player.position).length =
      player.mono.length - player.position := List.length_drop
  have hne : player.mono.drop player.position ≠ [] := by
    rw [← List.length_pos_iff]
    omega
  refine ⟨_, _, _, rfl, ?_, ?_, hway.plays, hway.range, hway.pass, hway.inside⟩
  · rw [List.take_left' (by rw [List.length_take]; omega)]
  · have htake : (player.mono.drop player.position).take size =
        (player.mono.drop player.position).take
          (min (player.mono.length - player.position) size) := by
      rw [List.take_eq_take_iff]
      omega
    have hsilence : size - (player.mono.length - player.position) =
        size - min (player.mono.length - player.position) size := by omega
    have hdrop : (player.mono.drop player.position).drop size =
        player.mono.drop (player.position + min (player.mono.length - player.position) size) := by
      rw [List.drop_drop, List.drop_eq_drop_iff]
      omega
    rw [PcmPlayer.framesLeft, framesOf_cons hsize hne, hlength, htake, hsilence, hdrop]
    rfl

/-- A call gives the first frame that is left, and nothing when none is. -/
theorem nextFrame (hway : player.UnderWay total) (hsize : 0 < size) :
    (∃ frame written next, player.nextFrame size = (some (frame, written), next) ∧
        frame.take written ++ List.replicate (size - written) 0 = frame ∧
        player.framesLeft size total = frame :: next.framesLeft size total ∧
        next.UnderWay total) ∨
      (player.nextFrame size).1 = none ∧ player.framesLeft size total = [] := by
  have hplays := hway.pass
  have hrange := hway.range
  have hnot : ¬ player.isDone := by
    rw [isDone_iff hway.plays, decide_eq_true_iff]
    omega
  rw [PcmPlayer.nextFrame, if_neg (Nat.ne_of_gt hsize), if_neg hnot]
  by_cases hleft : player.position < player.mono.length
  · obtain ⟨frame, written, next, htake, hframe, hrest, hnext⟩ := hway.takeFrame hsize hleft
    rw [if_pos hleft, htake]
    exact .inl ⟨frame, written, next, rfl, hframe, hrest, hnext⟩
  -- the end of a pass
  have hend : player.mono.drop player.position = [] := List.drop_of_length_le (by omega)
  have hmin : min (player.playsDone + 1) (2 ^ 32 - 1) = player.playsDone + 1 := by omega
  have hlastIff : ({ player with playsDone := player.playsDone + 1 } : PcmPlayer).isDone =
      decide (total ≤ player.playsDone + 1) := isDone_iff hway.plays
  rw [if_neg hleft, hmin]
  dsimp only
  rw [hlastIff]
  by_cases hlast : total ≤ player.playsDone + 1
  · rw [if_pos (decide_eq_true hlast)]
    refine .inr ⟨rfl, ?_⟩
    rw [PcmPlayer.framesLeft, hend, framesOf_nil, show total - player.playsDone - 1 = 0 by omega]
    rfl
  · rw [if_neg (by simpa using hlast), if_neg (Nat.not_le.mpr hway.inside)]
    obtain ⟨again, hagain⟩ : ∃ again : PcmPlayer, again =
        { player with playsDone := player.playsDone + 1, position := player.loopStart } :=
      ⟨_, rfl⟩
    have hunder : again.UnderWay total := by
      rw [hagain]
      exact ⟨hway.plays, hway.range, Nat.not_le.mp hlast, hway.inside⟩
    have hinside : again.position < again.mono.length := by
      rw [hagain]
      exact hway.inside
    have hsame : player.framesLeft size total = again.framesLeft size total := by
      rw [PcmPlayer.framesLeft, hend, framesOf_nil, hagain,
        show total - player.playsDone - 1 = total - (player.playsDone + 1) - 1 + 1 by omega]
      rfl
    obtain ⟨frame, written, next, htake, hframe, hrest, hnext⟩ := hunder.takeFrame hsize hinside
    rw [← hagain, htake]
    exact .inl ⟨frame, written, next, rfl, hframe, hsame.trans hrest, hnext⟩

end PcmPlayer.UnderWay

/-! ### The playback -/

/-- A playback without a cap and at unity gain, in one of its passes. -/
structure Playback.Plain (playback : Playback) (total : ℕ) : Prop where
  source : playback.source.UnderWay total
  gain : playback.gain = .unity
  cap : playback.durationCapMs = none
  running : playback.finished = false
  size : 0 < playback.egressFrameSamples
  time : playback.playedMs ≤ 2 ^ 64 - 1

/-- The frames that are left of a playback. -/
def Playback.framesLeft (playback : Playback) (total : ℕ) : List (List Int16) :=
  playback.source.framesLeft playback.egressFrameSamples total

variable {playback : Playback} {total capacity : ℕ}

/-- A call gives the first frame that is left and counts its time, and nothing when none is left. -/
theorem Playback.Plain.nextFrame (hplain : playback.Plain total)
    (hcapacity : playback.egressFrameSamples ≤ capacity) :
    (∃ frame written next, playback.nextFrame capacity = (some (frame, written), next) ∧
        playback.framesLeft total = frame :: next.framesLeft total ∧ next.Plain total ∧
        next.egressFrameSamples = playback.egressFrameSamples ∧
        next.packetizationTimeMs = playback.packetizationTimeMs ∧
        next.playedMs =
          min (playback.playedMs + playback.packetizationTimeMs.toNat) (2 ^ 64 - 1)) ∨
      (playback.nextFrame capacity).1 = none ∧ playback.framesLeft total = [] := by
  have hready : ¬ (playback.finished = true ∨ capacity < playback.egressFrameSamples) := by
    rw [hplain.running]
    rintro (hdone | hsmall)
    · cases hdone
    · omega
  rw [Playback.nextFrame, if_neg hready]
  rcases hplain.source.nextFrame hplain.size with
    ⟨frame, written, next, hnext, hframe, hrest, hway⟩ | ⟨hnone, hempty⟩
  · rw [hnext]
    dsimp only
    rw [hplain.gain, hplain.cap, show Gain.unity.applyTo (frame.take written) = frame.take written
      from rfl, hframe]
    exact .inl ⟨frame, written, _, rfl, hrest,
      ⟨hway, rfl, rfl, rfl, hplain.size, Nat.min_le_right _ _⟩, rfl, rfl, rfl⟩
  · rcases hsource : playback.source.nextFrame playback.egressFrameSamples with ⟨_ | frame, next⟩
    · exact .inr ⟨rfl, hempty⟩
    · rw [hsource] at hnone
      cases hnone

/-- A call of `next_frame` with a buffer. -/
def Playback.pull (capacity : ℕ) (playback : Playback) (_ : Unit) :
    Option (List Int16 × ℕ) × Playback :=
  playback.nextFrame capacity

/-- The calls up to the last frame that is left give the frames, and the one after them nothing. -/
theorem Playback.Plain.frames (hplain : playback.Plain total)
    (hcapacity : playback.egressFrameSamples ≤ capacity) {frames : List (List Int16)}
    (hframes : playback.framesLeft total = frames) :
    (outputs (Playback.pull capacity) playback (List.replicate frames.length ())).map
        (Option.map (·.1)) = frames.map some ∧
      ((final (Playback.pull capacity) playback
        (List.replicate frames.length ())).nextFrame capacity).1 = none ∧
      (final (Playback.pull capacity) playback (List.replicate frames.length ())).playedMs =
        min (playback.playedMs + frames.length * playback.packetizationTimeMs.toNat)
          (2 ^ 64 - 1) := by
  induction frames generalizing playback with
  | nil =>
    rcases hplain.nextFrame hcapacity with ⟨frame, written, next, -, hrest, -⟩ | ⟨hnone, -⟩
    · cases hrest.symm.trans hframes
    · have htime := hplain.time
      refine ⟨rfl, hnone, ?_⟩
      rw [List.length_nil, List.replicate_zero, final_nil, Nat.zero_mul, Nat.add_zero,
        Nat.min_eq_left htime]
  | cons frame frames ih =>
    rcases hplain.nextFrame hcapacity with
      ⟨other, written, next, hnext, hrest, hagain, hsize, hptime, htime⟩ | ⟨-, hempty⟩
    · obtain ⟨rfl, hleft⟩ := List.cons.inj (hrest.symm.trans hframes)
      obtain ⟨hframes, hend, hplayed⟩ := ih hagain (hsize ▸ hcapacity) hleft
      rw [List.length_cons, List.replicate_succ, outputs_cons, final_cons]
      change (Playback.pull capacity playback ()).1.map (·.1) :: _ = _ ∧ _
      rw [show Playback.pull capacity playback () = _ from hnext]
      refine ⟨by rw [hframes]; rfl, hend, ?_⟩
      rw [hplayed, hptime, Nat.succ_mul]
      omega
    · cases hempty.symm.trans hframes

/-! ### From the start -/

/-- The duration before the first frame, while it fits 64 bits. -/
theorem durationMs_fresh {player : PcmPlayer} (hway : player.UnderWay total)
    (hrate : player.sampleRateHz ≠ 0) (hstart : player.position = player.loopStart)
    (hfirst : player.playsDone = 0) (hrange : total * player.pass.length * 1000 < 2 ^ 64) :
    player.durationMs = some (total * player.pass.length * 1000 / player.sampleRateHz.toNat) := by
  have hbody : ¬ (player.mono.isEmpty = true ∨ player.sampleRateHz = 0) := by
    rintro (hempty | hzero)
    · have hinside := hway.inside
      rw [List.isEmpty_iff.mp hempty] at hinside
      exact Nat.not_lt_zero _ hinside
    · exact hrate hzero
  rw [PcmPlayer.durationMs, if_neg hbody, hway.plays]
  dsimp only
  rw [PcmPlayer.pass, List.length_drop] at hrange ⊢
  rw [hstart, hfirst]
  generalize player.mono.length - player.loopStart = length at hrange ⊢
  obtain ⟨more, rfl⟩ : ∃ more, total = more + 1 := by
    have hpass := hway.pass
    exact ⟨total - 1, by omega⟩
  rw [Nat.succ_mul] at hrange ⊢
  have hmore : more * length < 2 ^ 64 := by omega
  have hall : length + more * length < 2 ^ 64 := by omega
  rw [Nat.zero_min, Nat.add_sub_cancel, Nat.mod_eq_of_lt hmore, Nat.mod_eq_of_lt hall,
    Nat.add_comm length, Nat.mod_eq_of_lt hrange]

/-- What `Playback::new` returns. -/
theorem new_eq_ok {source : PcmPlayer} {packetizationTimeMs : UInt32} {gain : Gain}
    {durationCapMs : Option ℕ}
    (hnew : Playback.new source packetizationTimeMs gain durationCapMs = .ok playback) :
    source.sampleRateHz ≠ 0 ∧ playback = {
      source, gain, playedMs := 0, durationCapMs
      egressFrameSamples := max (frameSamples source.sampleRateHz packetizationTimeMs) 1
      packetizationTimeMs, finished := false } := by
  unfold Playback.new at hnew
  split_ifs at hnew with hrate
  exact ⟨hrate, (Except.ok.inj hnew).symm⟩

section Start

variable {mono : List Int16} {sampleRateHz startPosMs packetizationTimeMs times : UInt32}
  (hseek : seekSample startPosMs sampleRateHz < mono.length)
  (hnew : Playback.new (.fromShared mono sampleRateHz (.times times) startPosMs)
    packetizationTimeMs .unity none = .ok playback)

include hseek

theorem pass_fromShared (repeats : PcmRepeat) :
    (PcmPlayer.fromShared mono sampleRateHz repeats startPosMs).pass =
      mono.drop (seekSample startPosMs sampleRateHz) :=
  congrArg (mono.drop ·) (Nat.min_eq_left hseek.le)

include hnew

theorem plain_new : playback.Plain (max times.toNat 1) := by
  have hpass := times.toNat_lt
  obtain ⟨-, rfl⟩ := new_eq_ok hnew
  exact ⟨⟨rfl, by omega, by change 0 < max times.toNat 1; omega, (min_le_left _ _).trans_lt hseek⟩,
    rfl, rfl, rfl, Nat.le_max_right _ _, Nat.zero_le _⟩

theorem framesLeft_new : playback.framesLeft (max times.toNat 1) =
    (List.replicate (max times.toNat 1) (framesOf playback.egressFrameSamples
      (mono.drop (seekSample startPosMs sampleRateHz)))).flatten := by
  have hone : max times.toNat 1 = max times.toNat 1 - 0 - 1 + 1 := by omega
  obtain ⟨-, rfl⟩ := new_eq_ok hnew
  conv_rhs => rw [hone, List.replicate_succ, List.flatten_cons]
  rw [← pass_fromShared hseek (.times times)]
  rfl

/-- The reported duration, while it fits 64 bits. -/
theorem totalDurationMs_new
    (hrange : max times.toNat 1 *
      (mono.drop (seekSample startPosMs sampleRateHz)).length * 1000 < 2 ^ 64) :
    playback.totalDurationMs = some (max times.toNat 1 *
      (mono.drop (seekSample startPosMs sampleRateHz)).length * 1000 /
        sampleRateHz.toNat) := by
  have hway := (plain_new hseek hnew).source
  obtain ⟨hrate, rfl⟩ := new_eq_ok hnew
  rw [← pass_fromShared hseek (.times times)] at hrange ⊢
  rw [Playback.totalDurationMs, durationMs_fresh hway hrate rfl rfl hrange]
  rfl

end Start

/-- The time of whole frames against the duration of a pass in them. -/
theorem time_of_frames {rate ptime size plays length : ℕ} (hrate : 0 < rate) (hsize : 0 < size)
    (hexact : rate * ptime = 1000 * size) (hwhole : size ∣ length ∨ plays = 1) :
    plays * length * 1000 / rate ≤ plays * ((length + size - 1) / size) * ptime ∧
      plays * ((length + size - 1) / size) * ptime ≤ plays * length * 1000 / rate + ptime := by
  -- the duration of a whole number of frames
  have hframes (count : ℕ) : count * size * 1000 / rate = count * ptime := by
    rw [Nat.mul_assoc, Nat.mul_comm size, ← hexact, Nat.mul_comm rate, ← Nat.mul_assoc,
      Nat.mul_div_cancel _ hrate]
  rcases hwhole with ⟨count, rfl⟩ | rfl
  · have hcount : (size * count + size - 1) / size = count := by
      rw [Nat.add_sub_assoc hsize, Nat.mul_add_div hsize, Nat.div_eq_of_lt (by omega), Nat.add_zero]
    rw [hcount, Nat.mul_comm size, ← Nat.mul_assoc, hframes]
    exact ⟨le_rfl, Nat.le_add_right _ _⟩
  · rw [Nat.one_mul, Nat.one_mul]
    have hcount := Nat.div_add_mod (length + size - 1) size
    have hmod := Nat.mod_lt (length + size - 1) hsize
    generalize (length + size - 1) / size = count at hcount ⊢
    have hhigh : length ≤ count * size := by
      rw [Nat.mul_comm]
      omega
    have hlow : (count - 1) * size ≤ length := by
      rw [Nat.sub_one_mul, Nat.mul_comm]
      omega
    refine ⟨?_, ?_⟩
    · rw [← hframes]
      exact Nat.div_le_div_right (Nat.mul_le_mul_right _ hhigh)
    · have hmost : (count - 1) * ptime ≤ length * 1000 / rate := by
        rw [← hframes]
        exact Nat.div_le_div_right (Nat.mul_le_mul_right _ hlow)
      rw [Nat.sub_one_mul] at hmost
      omega

/-- Looped playback is seamless where a pass is a whole number of frames, or there is only one.
Assumes: a prompt at the rate of the leg, a seek point inside it, unity gain and no cap. The frames
put together are then the prompt from the seek point on, over and over, with the silence that fills
the last frame. Where moreover a packetization time is a whole number of samples, and the counts fit
64 bits, the time played exceeds the reported duration by at most one frame. -/
theorem looped_playback {mono : List Int16}
    {sampleRateHz startPosMs packetizationTimeMs times : UInt32} {playback : Playback}
    {capacity : ℕ} (hseek : seekSample startPosMs sampleRateHz < mono.length)
    (hnew : Playback.new (.fromShared mono sampleRateHz (.times times) startPosMs)
      packetizationTimeMs .unity none = .ok playback)
    (hcapacity : playback.egressFrameSamples ≤ capacity) :
    let pass := mono.drop (seekSample startPosMs sampleRateHz)
    let plays := max times.toNat 1
    let size := playback.egressFrameSamples
    let count := plays * ((pass.length + size - 1) / size)
    let finish := final (Playback.pull capacity) playback (List.replicate count ())
    size ∣ pass.length ∨ plays = 1 →
      ∃ frames : List (List Int16),
        (outputs (Playback.pull capacity) playback (List.replicate count ())).map
            (Option.map (·.1)) = frames.map some ∧
          (finish.nextFrame capacity).1 = none ∧
          frames.flatten = (List.replicate plays pass).flatten ++
            List.replicate (fill size pass.length) 0 ∧
          fill size pass.length < size ∧
          (sampleRateHz.toNat * packetizationTimeMs.toNat = 1000 * size →
            plays * pass.length * 1000 < 2 ^ 64 → count * packetizationTimeMs.toNat < 2 ^ 64 →
              ∃ duration, playback.totalDurationMs = some duration ∧
                duration ≤ finish.playedMs ∧
                finish.playedMs ≤ duration + packetizationTimeMs.toNat) := by
  have hplain := plain_new hseek hnew
  intro pass plays size count finish hwhole
  have hsize : 0 < size := hplain.size
  obtain ⟨hflatten, hlength⟩ := flatten_framesOf hsize pass
  obtain ⟨frames, hframes⟩ : ∃ frames, frames = playback.framesLeft plays := ⟨_, rfl⟩
  have hleft : frames = (List.replicate plays (framesOf size pass)).flatten :=
    hframes.trans (framesLeft_new hseek hnew)
  have hcount : frames.length = count := by
    rw [hleft]
    simp [hlength, count]
  obtain ⟨houtputs, hend, hplayed⟩ := hplain.frames hcapacity hframes.symm
  rw [hcount] at houtputs hend hplayed
  refine ⟨frames, houtputs, hend, ?_, Nat.mod_lt _ hsize, ?_⟩
  · rw [hleft, List.flatten_flatten, List.map_replicate, hflatten]
    rcases hwhole with hdivides | hone
    · have hnone : fill size pass.length = 0 := by
        rw [fill, Nat.mod_eq_zero_of_dvd hdivides, Nat.sub_zero, Nat.mod_self]
      rw [hnone, List.replicate_zero, List.append_nil, List.append_nil]
    · rw [hone]
      simp
  · intro hexact hrange htime
    have hrate : 0 < sampleRateHz.toNat := by
      rcases Nat.eq_zero_or_pos sampleRateHz.toNat with hzero | hpos
      · rw [hzero] at hexact
        omega
      · exact hpos
    have hfinish : finish.playedMs = count * packetizationTimeMs.toNat := by
      rw [hplayed, (new_eq_ok hnew).2]
      dsimp only
      omega
    rw [hfinish]
    exact ⟨_, totalDurationMs_new hseek hnew hrange, time_of_frames hrate hsize hexact hwhole⟩

theorem four_samples_twice :
    ∃ playback, Playback.new (.fromShared [1, 2, 3, 4] 1000 (.times 2) 0) 2 .unity none =
        .ok playback ∧
      ∃ frames : List (List Int16),
        (outputs (Playback.pull 2) playback (List.replicate 4 ())).map (Option.map (·.1)) =
          frames.map some ∧ frames.flatten = [1, 2, 3, 4, 1, 2, 3, 4] := by
  obtain ⟨frames, hframes, -, hheard, -⟩ := @looped_playback [1, 2, 3, 4] 1000 0 2 2 _ 2
    (by decide) rfl (by decide) (.inl (by decide))
  exact ⟨_, rfl, frames, hframes, hheard.trans (by decide)⟩

/-- Five samples once, at four samples a millisecond: the second frame ends a whole frame after the
duration. And six samples once, where a packetization time is one sample and a half: six frames of
one sample are played, two more than the duration has. -/
theorem frame_beyond_duration :
    (∃ playback, Playback.new (.fromShared [1, 2, 3, 4, 5] 4000 (.times 1) 0) 1 .unity none =
        .ok playback ∧
      playback.totalDurationMs = some 1 ∧
      (final (Playback.pull 4) playback (List.replicate 2 ())).playedMs = 2 ∧
      ((final (Playback.pull 4) playback (List.replicate 2 ())).nextFrame 4).1 = none) ∧
    ∃ playback, Playback.new (.fromShared [1, 2, 3, 4, 5, 6] 1500 (.times 1) 0) 1 .unity none =
        .ok playback ∧
      playback.totalDurationMs = some 4 ∧
      (final (Playback.pull 1) playback (List.replicate 6 ())).playedMs = 6 ∧
      ((final (Playback.pull 1) playback (List.replicate 6 ())).nextFrame 1).1 = none :=
  ⟨⟨_, rfl, by decide, by decide, by decide⟩, ⟨_, rfl, by decide, by decide, by decide⟩⟩

end SiphonRtp.Media.Prompt
