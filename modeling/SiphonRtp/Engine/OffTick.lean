import Mathlib.Algebra.Order.Group.Nat
import SiphonRtp.Machine.Runs

/-!
# Seats off the room tick

A conference mixes 20 ms at a time. A seat whose packets are of another length keeps what the room
has not spent of its decoded audio in a carry (`Conference::next_tick_pcm`), and what it has not
been sent of the mix in an accumulator (the egress pass of `Conference::tick`). Both are buffers of
fixed size, a frame and a tick together, that cut off what does not fit.

Nothing ever is cut off, whatever the two lengths are and however the seat starves. What a seat
contributes is what was decoded, in order, with less than a frame and a tick held back, and the
frames for its encoder are the mixes, in order, in consecutive blocks (`off_tick_audio`).
-/

set_option autoImplicit false

namespace SiphonRtp.Engine.OffTick

open Machine

abbrev Samples := List Int16

/-! ### The seat -/

/-- The audio of a seat. The buffers are lists of their valid samples. -/
structure Seat where
  nativeFrame : ℕ
  tickSamples : ℕ
  ingressCarry : Samples
  /-- How many samples of the carry a tick has spent. -/
  carryPos : ℕ
  egressAccum : Samples
  /-- What the decoder answers from now on, call by call: a frame, or that it is starved. -/
  leg : List (Option Samples)

namespace Seat

/-- The seat that `add_participant` sets up. -/
def new (nativeFrame tickSamples : ℕ) (leg : List (Option Samples)) : Seat where
  nativeFrame
  tickSamples
  ingressCarry := []
  carryPos := 0
  egressAccum := []
  leg

variable (seat : Seat)

/-- `off_tick_capacity`. -/
def capacity : ℕ :=
  if seat.nativeFrame = seat.tickSamples then 0 else seat.nativeFrame + seat.tickSamples

end Seat

/-- The loop of `next_tick_pcm`: it decodes into a carry of `capacity` samples until a tick is
there, the decoder is starved, or nothing fits. -/
def fillCarry (tickSamples capacity : ℕ) (carry : Samples) :
    List (Option Samples) → Samples × List (Option Samples)
  | [] => (carry, [])
  | answer :: leg =>
    if tickSamples ≤ carry.length then (carry, answer :: leg)
    else
      match answer with
      | none => (carry, leg)
      | some decoded =>
        -- what does not fit would be cut off here
        let filled := (carry ++ decoded).take capacity
        if filled.length = carry.length then (carry, leg)
        else fillCarry tickSamples capacity filled leg

/-- The loop of the egress pass: the frames that the encoder is offered, up to one that fails, and
what is left in the accumulator. -/
def drainAccum (encodes : Samples → Bool) (nativeFrame : ℕ) (accum : Samples) :
    List Samples × Samples :=
  if _hframe : nativeFrame = 0 ∨ accum.length < nativeFrame then ([], accum)
  else
    let frame := accum.take nativeFrame
    if encodes frame then
      let later := drainAccum encodes nativeFrame (accum.drop nativeFrame)
      (frame :: later.1, later.2)
    else ([frame], accum.drop nativeFrame)
termination_by accum.length
decreasing_by
  rw [List.length_drop]
  omega

namespace Seat

variable (seat : Seat)

/-- `next_tick_pcm`. -/
def nextTickPcm : Option Samples × Seat :=
  if seat.nativeFrame = seat.tickSamples then
    match seat.leg with
    | [] => (none, seat)
    | answer :: leg => (answer, { seat with leg })
  else
    let filled := fillCarry seat.tickSamples seat.capacity
      (seat.ingressCarry.drop seat.carryPos) seat.leg
    if filled.1.length < seat.tickSamples then
      (none, { seat with ingressCarry := filled.1, carryPos := 0, leg := filled.2 })
    else
      (some (filled.1.take seat.tickSamples),
        { seat with ingressCarry := filled.1, carryPos := seat.tickSamples, leg := filled.2 })

/-- The egress pass for a seat with its mix: the frames that its encoder is offered. -/
def sendMix (encodes : Samples → Bool) (mix : Samples) : List Samples × Seat :=
  if seat.nativeFrame = seat.tickSamples then ([mix], seat)
  else
    let drained := drainAccum encodes seat.nativeFrame
      ((seat.egressAccum ++ mix).take seat.capacity)
    (drained.1, { seat with egressAccum := drained.2 })

/-- The decoded samples that no tick has spent. -/
def held : Samples := seat.ingressCarry.drop seat.carryPos

end Seat

/-- A tick: what the seat contributes, and the frames for its encoder. A seat without a usable
destination has no egress pass. -/
def Seat.tick (encodes : Samples → Bool) (seat : Seat) (mix : Option Samples) :
    (Option Samples × List Samples) × Seat :=
  let pulled := seat.nextTickPcm
  match mix with
  | none => ((pulled.1, []), pulled.2)
  | some mix => ((pulled.1, (pulled.2.sendMix encodes mix).1), (pulled.2.sendMix encodes mix).2)

/-! ### The carry -/

/-- The samples among the answers of the decoder. -/
def decodedSamples (answers : List (Option Samples)) : Samples := (answers.filterMap id).flatten

section Carry

variable {frame tick : ℕ}

/-- The loop keeps everything that it decodes. -/
theorem fillCarry_spec (hframe : 0 < frame) {leg : List (Option Samples)}
    (hleg : ∀ decoded, some decoded ∈ leg → decoded.length = frame) {carry : Samples}
    (hcarry : carry.length < frame + tick) :
    ∃ used, leg = used ++ (fillCarry tick (frame + tick) carry leg).2 ∧
      (fillCarry tick (frame + tick) carry leg).1 = carry ++ decodedSamples used ∧
      (fillCarry tick (frame + tick) carry leg).1.length < frame + tick := by
  induction leg generalizing carry with
  | nil => exact ⟨[], rfl, (List.append_nil _).symm, hcarry⟩
  | cons answer leg ih =>
    have hrest : ∀ decoded, some decoded ∈ leg → decoded.length = frame := fun decoded hmem ↦
      hleg decoded (List.mem_cons_of_mem _ hmem)
    unfold fillCarry
    split
    next => exact ⟨[], rfl, (List.append_nil _).symm, hcarry⟩
    next hshort =>
      cases answer with
      | none => exact ⟨[none], rfl, (List.append_nil _).symm, hcarry⟩
      | some decoded =>
        have hdecoded := hleg decoded List.mem_cons_self
        have hfits : (carry ++ decoded).length ≤ frame + tick := by
          rw [List.length_append]
          omega
        have hwhole : (carry ++ decoded).take (frame + tick) = carry ++ decoded :=
          List.take_of_length_le hfits
        have hmore : (carry ++ decoded).length ≠ carry.length := by
          rw [List.length_append]
          omega
        dsimp only
        rw [hwhole, if_neg hmore]
        obtain ⟨used, hused, hkept, hbound⟩ := @ih hrest (carry ++ decoded) (by
          rw [List.length_append]
          omega)
        refine ⟨some decoded :: used, by rw [List.cons_append, ← hused], ?_, hbound⟩
        rw [hkept, List.append_assoc]
        rfl

end Carry

/-! ### The accumulator -/

/-- The loop offers whole frames, as many as there are. -/
theorem drainAccum_spec {encodes : Samples → Bool} (hencodes : ∀ frame, encodes frame = true)
    {frame : ℕ} (hframe : 0 < frame) (accum : Samples) :
    (∀ offered ∈ (drainAccum encodes frame accum).1, offered.length = frame) ∧
      (drainAccum encodes frame accum).1.flatten ++ (drainAccum encodes frame accum).2 = accum ∧
      (drainAccum encodes frame accum).2.length < frame := by
  induction hlength : accum.length using Nat.strong_induction_on generalizing accum with
  | _ length ih =>
    unfold drainAccum
    split
    next hshort =>
      have hless : accum.length < frame := hshort.resolve_left (Nat.ne_of_gt hframe)
      exact ⟨fun _ hmem ↦ absurd hmem List.not_mem_nil, rfl, hless⟩
    next hwhole =>
      rw [if_pos (hencodes _)]
      obtain ⟨hlengths, hall, hless⟩ := ih (length - frame) (by omega) (accum.drop frame)
        (by rw [List.length_drop, hlength])
      refine ⟨fun offered hmem ↦ ?_, ?_, hless⟩
      · rcases List.mem_cons.mp hmem with rfl | hmem
        · rw [List.length_take]
          omega
        · exact hlengths offered hmem
      · rw [List.flatten_cons, List.append_assoc, hall, List.take_append_drop]

/-! ### A tick -/

/-- A seat off the tick, with a decoder of whole frames. -/
structure Seat.Runs (seat : Seat) (frame tick : ℕ) : Prop where
  nativeFrame : seat.nativeFrame = frame
  tickSamples : seat.tickSamples = tick
  decodes : ∀ decoded, some decoded ∈ seat.leg → decoded.length = frame
  held : seat.held.length < frame + tick
  accum : seat.egressAccum.length < frame

section Tick

variable {frame tick : ℕ} (hframe : 0 < frame) (hne : frame ≠ tick) {seat : Seat}
  (hseat : seat.Runs frame tick)

include hne hseat

theorem Seat.Runs.off : seat.nativeFrame ≠ seat.tickSamples := by
  rw [hseat.nativeFrame, hseat.tickSamples]
  exact hne

theorem Seat.Runs.capacity : seat.capacity = frame + tick := by
  rw [Seat.capacity, if_neg (hseat.off hne), hseat.nativeFrame, hseat.tickSamples]

include hframe

/-- What a tick decodes is contributed or held. -/
theorem Seat.Runs.nextTickPcm :
    seat.nextTickPcm.2.Runs frame tick ∧
      (∀ pcm, seat.nextTickPcm.1 = some pcm → pcm.length = tick) ∧
      seat.nextTickPcm.2.egressAccum = seat.egressAccum ∧
      ∃ used, seat.leg = used ++ seat.nextTickPcm.2.leg ∧
        seat.held ++ decodedSamples used =
          seat.nextTickPcm.1.getD [] ++ seat.nextTickPcm.2.held := by
  obtain ⟨used, hused, hkept, hbound⟩ := fillCarry_spec hframe hseat.decodes hseat.held
  have hleg : ∀ decoded, some decoded ∈ (fillCarry tick (frame + tick) seat.held seat.leg).2 →
      decoded.length = frame := fun decoded hmem ↦
    hseat.decodes decoded (by
      rw [hused]
      exact List.mem_append_right _ hmem)
  have hpulled : seat.nextTickPcm =
      if (fillCarry tick (frame + tick) seat.held seat.leg).1.length < tick then
        (none, { seat with
          ingressCarry := (fillCarry tick (frame + tick) seat.held seat.leg).1
          carryPos := 0
          leg := (fillCarry tick (frame + tick) seat.held seat.leg).2 })
      else
        (some ((fillCarry tick (frame + tick) seat.held seat.leg).1.take tick), { seat with
          ingressCarry := (fillCarry tick (frame + tick) seat.held seat.leg).1
          carryPos := tick
          leg := (fillCarry tick (frame + tick) seat.held seat.leg).2 }) := by
    rw [Seat.nextTickPcm, if_neg (hseat.off hne), hseat.capacity hne, hseat.tickSamples]
    rfl
  generalize fillCarry tick (frame + tick) seat.held seat.leg = filled at *
  rw [hpulled]
  split
  next hshort =>
    refine ⟨⟨hseat.nativeFrame, hseat.tickSamples, hleg, hbound, hseat.accum⟩,
      (fun pcm hpcm ↦ by cases hpcm), rfl, used, hused, hkept.symm⟩
  next hfull =>
    refine ⟨⟨hseat.nativeFrame, hseat.tickSamples, hleg, ?_, hseat.accum⟩, ?_, rfl, used, hused, ?_⟩
    · change (filled.1.drop tick).length < frame + tick
      rw [List.length_drop]
      omega
    · rintro pcm hpcm
      cases hpcm
      rw [List.length_take]
      omega
    · rw [← hkept]
      exact (List.take_append_drop tick filled.1).symm

/-- What the mix adds to the accumulator is offered or kept. -/
theorem Seat.Runs.sendMix {encodes : Samples → Bool} (hencodes : ∀ frame, encodes frame = true)
    {mix : Samples} (hmix : mix.length = tick) :
    (seat.sendMix encodes mix).2.Runs frame tick ∧
      (∀ offered ∈ (seat.sendMix encodes mix).1, offered.length = frame) ∧
      (seat.sendMix encodes mix).1.flatten ++ (seat.sendMix encodes mix).2.egressAccum =
        seat.egressAccum ++ mix ∧
      (seat.sendMix encodes mix).2.leg = seat.leg ∧
      (seat.sendMix encodes mix).2.held = seat.held := by
  have haccum := hseat.accum
  have hwhole : (seat.egressAccum ++ mix).take (frame + tick) = seat.egressAccum ++ mix := by
    refine List.take_of_length_le ?_
    rw [List.length_append]
    omega
  obtain ⟨hlengths, hall, hless⟩ := drainAccum_spec hencodes hframe (seat.egressAccum ++ mix)
  rw [Seat.sendMix, if_neg (hseat.off hne), hseat.capacity hne, hwhole, hseat.nativeFrame]
  exact ⟨⟨rfl, hseat.tickSamples, hseat.decodes, hseat.held, hless⟩, hlengths, hall, rfl, rfl⟩

end Tick

/-! ### Whole runs -/

/-- What the ticks contribute. -/
def contributed (ticks : List (Option Samples × List Samples)) : Samples :=
  (ticks.filterMap (·.1)).flatten

/-- The frames that the ticks offer to the encoder. -/
def offered (ticks : List (Option Samples × List Samples)) : List Samples := ticks.flatMap (·.2)

theorem contributed_cons (tick : Option Samples × List Samples)
    (ticks : List (Option Samples × List Samples)) :
    contributed (tick :: ticks) = tick.1.getD [] ++ contributed ticks := by
  rcases tick with ⟨_ | pcm, frames⟩ <;> rfl

section Run

variable {frame tick : ℕ} (hframe : 0 < frame) (hne : frame ≠ tick) {encodes : Samples → Bool}
  (hencodes : ∀ frame, encodes frame = true)

include hframe hne hencodes

theorem Seat.Runs.atTick {seat : Seat} (hseat : seat.Runs frame tick) {mix : Option Samples}
    (hmix : ∀ samples, mix = some samples → samples.length = tick) :
    (seat.tick encodes mix).2.Runs frame tick ∧
      (∀ pcm, (seat.tick encodes mix).1.1 = some pcm → pcm.length = tick) ∧
      (∀ offered ∈ (seat.tick encodes mix).1.2, offered.length = frame) ∧
      (seat.tick encodes mix).1.2.flatten ++ (seat.tick encodes mix).2.egressAccum =
        seat.egressAccum ++ mix.getD [] ∧
      ∃ used, seat.leg = used ++ (seat.tick encodes mix).2.leg ∧
        seat.held ++ decodedSamples used =
          (seat.tick encodes mix).1.1.getD [] ++ (seat.tick encodes mix).2.held := by
  obtain ⟨hpulled, hpcm, haccum, used, hused, hheld⟩ := hseat.nextTickPcm hframe hne
  cases mix with
  | none =>
    refine ⟨hpulled, hpcm, fun _ hmem ↦ absurd hmem List.not_mem_nil, ?_, used, hused, hheld⟩
    rw [Option.getD_none, List.append_nil]
    exact haccum
  | some mix =>
    obtain ⟨hsent, hlengths, hall, hleg, hsame⟩ :=
      hpulled.sendMix hframe hne hencodes (hmix mix rfl)
    refine ⟨hsent, hpcm, hlengths, haccum ▸ hall, used, ?_, ?_⟩
    · exact hused.trans (congrArg _ hleg.symm)
    · exact hheld.trans (congrArg _ hsame.symm)

/-- What the ticks of a run decode is contributed or held, and what they mix is offered or kept. -/
theorem Seat.Runs.ticks {seat : Seat} (hseat : seat.Runs frame tick)
    {mixes : List (Option Samples)} (hmixes : ∀ mix, some mix ∈ mixes → mix.length = tick) :
    (final (Seat.tick encodes) seat mixes).Runs frame tick ∧
      (∀ output ∈ outputs (Seat.tick encodes) seat mixes, ∀ pcm, output.1 = some pcm →
        pcm.length = tick) ∧
      (∀ sent ∈ offered (outputs (Seat.tick encodes) seat mixes), sent.length = frame) ∧
      (offered (outputs (Seat.tick encodes) seat mixes)).flatten ++
          (final (Seat.tick encodes) seat mixes).egressAccum =
        seat.egressAccum ++ (mixes.filterMap id).flatten ∧
      ∃ used, seat.leg = used ++ (final (Seat.tick encodes) seat mixes).leg ∧
        seat.held ++ decodedSamples used =
          contributed (outputs (Seat.tick encodes) seat mixes) ++
            (final (Seat.tick encodes) seat mixes).held := by
  induction mixes generalizing seat with
  | nil =>
    exact ⟨hseat, fun _ hmem ↦ absurd hmem List.not_mem_nil,
      fun _ hmem ↦ absurd hmem List.not_mem_nil, (List.append_nil _).symm, [], rfl,
      List.append_nil _⟩
  | cons mix mixes ih =>
    obtain ⟨hafter, hpcm, hlengths, hall, used, hused, hheld⟩ :=
      hseat.atTick hframe hne hencodes fun samples hsome ↦
        hmixes samples (hsome ▸ List.mem_cons_self)
    obtain ⟨hfinal, hpcms, hlater, hrest, more, hmore, hheldMore⟩ :=
      ih hafter fun samples hmem ↦ hmixes samples (List.mem_cons_of_mem _ hmem)
    rw [outputs_cons, final_cons]
    refine ⟨hfinal, ?_, ?_, ?_, used ++ more, ?_, ?_⟩
    · intro output hmem
      rcases List.mem_cons.mp hmem with rfl | hmem
      · exact hpcm
      · exact hpcms output hmem
    · intro sent hmem
      rcases List.mem_append.mp hmem with hmem | hmem
      · exact hlengths sent hmem
      · exact hlater sent hmem
    · rw [offered, List.flatMap_cons, List.flatten_append, List.append_assoc]
      change _ ++ ((offered _).flatten ++ _) = _
      rw [hrest, ← List.append_assoc, hall, List.append_assoc]
      cases mix <;> rfl
    · rw [List.append_assoc, ← hmore, ← hused]
    · rw [contributed_cons, List.append_assoc, ← hheldMore, ← List.append_assoc, ← hheld,
        List.append_assoc, decodedSamples, List.filterMap_append, List.flatten_append]
      rfl

end Run

theorem length_flatten_of_forall {length : ℕ} {lists : List Samples}
    (hlists : ∀ samples ∈ lists, samples.length = length) :
    lists.flatten.length = lists.length * length := by
  induction lists with
  | nil => exact (Nat.zero_mul _).symm
  | cons samples lists ih =>
    rw [List.flatten_cons, List.length_append, List.length_cons, Nat.succ_mul,
      ih fun other hmem ↦ hlists other (List.mem_cons_of_mem _ hmem),
      hlists samples List.mem_cons_self, Nat.add_comm]

/-- A seat off the tick loses nothing, in either direction. Assumes: frames of one length other than
the tick's, mixes of a tick each, and an encoder that takes every frame. Each tick that it does not
starve in takes a tick of samples. What it contributes is a beginning of what was decoded, with less
than a frame and a tick held back. The frames for its encoder are consecutive blocks of the mixes,
as many as fit. -/
theorem off_tick_audio {frame tick : ℕ} (hframe : 0 < frame) (hne : frame ≠ tick)
    {leg : List (Option Samples)}
    (hleg : ∀ decoded, some decoded ∈ leg → decoded.length = frame)
    {encodes : Samples → Bool} (hencodes : ∀ samples, encodes samples = true)
    {mixes : List (Option Samples)} (hmixes : ∀ mix, some mix ∈ mixes → mix.length = tick) :
    let ticks := outputs (Seat.tick encodes) (.new frame tick leg) mixes
    let finish := final (Seat.tick encodes) (.new frame tick leg) mixes
    (∀ output ∈ ticks, ∀ pcm, output.1 = some pcm → pcm.length = tick) ∧
      (∃ used, leg = used ++ finish.leg ∧
        decodedSamples used = contributed ticks ++ finish.held ∧
        finish.held.length < frame + tick) ∧
      (∀ sent ∈ offered ticks, sent.length = frame) ∧
      (mixes.filterMap id).flatten = (offered ticks).flatten ++ finish.egressAccum ∧
      (offered ticks).length = (mixes.filterMap id).length * tick / frame := by
  have hstart : (Seat.new frame tick leg).Runs frame tick :=
    ⟨rfl, rfl, hleg, Nat.add_pos_left hframe tick, hframe⟩
  intro ticks finish
  obtain ⟨hfinish, hpcm, hlengths, hall, used, hused, hheld⟩ :=
    hstart.ticks hframe hne hencodes hmixes
  refine ⟨hpcm, ⟨used, hused, hheld, hfinish.held⟩, hlengths, hall.symm, ?_⟩
  have hmixed : (mixes.filterMap id).flatten.length = (mixes.filterMap id).length * tick :=
    length_flatten_of_forall fun mix hmem ↦ hmixes mix (by simpa using hmem)
  have hlength := congrArg List.length hall
  rw [List.length_append, length_flatten_of_forall hlengths, List.length_append, hmixed] at hlength
  have haccum := hfinish.accum
  change _ = 0 + _ at hlength
  rw [Nat.zero_add, Nat.mul_comm] at hlength
  rw [← hlength, Nat.mul_add_div hframe, Nat.div_eq_of_lt haccum, Nat.add_zero]

/-- Frames of three samples in a room with ticks of two. -/
theorem three_samples_in_ticks_of_two :
    let ticks := outputs (Seat.tick fun _ ↦ true)
      (.new 3 2 [some [1, 2, 3], none, some [4, 5, 6]]) [some [7, 8], some [9, 10], some [11, 12]]
    contributed ticks = [1, 2, 3, 4] ∧ offered ticks = [[7, 8, 9], [10, 11, 12]] ∧
      (offered ticks).length = 3 * 2 / 3 := by
  refine ⟨by decide, by decide +kernel, ?_⟩
  exact (@off_tick_audio 3 2 (by decide) (by decide)
    [some [1, 2, 3], none, some [4, 5, 6]] (by simp) (fun _ ↦ true) (fun _ ↦ rfl)
    [some [7, 8], some [9, 10], some [11, 12]] (by simp)).2.2.2.2

end SiphonRtp.Engine.OffTick
