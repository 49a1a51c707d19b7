import SiphonRtp.Machine.Runs
import Mathlib.Algebra.Group.Nat.Defs

/-!
# The timestamps of a cross-codec room

The clock of `Transcoder` in `siphon-rtp-engine/src/forward/transcode.rs`, with the concealed frames
of `Fill` in `forward/room.rs`. A timestamp is mapped by rescaling its signed distance from the
start of the run. Past 2^31 ticks that distance turns negative. This is harmless where the ratio of
the clocks is whole, because the mistake is then a multiple of 2^32; otherwise the line breaks.
-/

set_option autoImplicit false

namespace SiphonRtp.Engine

open Machine

/-- The stream of the source being fanned out. -/
structure Run where
  ssrc : BitVec 32
  nextSequence : BitVec 16
  lastTimestamp : BitVec 32
  lastWasAudio : Bool
  firstIn : BitVec 32
  firstDomain : BitVec 32

structure StreamPoint where
  ssrc : BitVec 32
  sequence : BitVec 16
  timestamp : BitVec 32
  marker : Bool

/-- The part of a transcoder that stamps packets. -/
structure Transcoder where
  roomClockHz : ℕ
  ptimeMs : ℕ
  run : Option Run

/-- The longest gap that is concealed. -/
def maxConcealMs : ℕ := 120

/-- `delta` ticks of one clock as ticks of another, both as 32-bit two's complement. -/
def rescale (delta : BitVec 32) (fromHz toHz : ℕ) : BitVec 32 :=
  if fromHz = 0 ∨ fromHz = toHz then delta
  else BitVec.ofInt 32 ((delta.toInt * toHz).tdiv fromHz)

namespace Transcoder

def beginRun (transcoder : Transcoder) (ssrc timestamp : BitVec 32) (fromCrossCodec : Bool) :
    Bool × Transcoder :=
  if transcoder.run.any fun run ↦ run.ssrc == ssrc then (false, transcoder)
  else
    (true, { transcoder with
      run := some ⟨ssrc, 0, timestamp, false, timestamp, if fromCrossCodec then 0 else timestamp⟩ })

/-- The ticks of one frame. -/
def frameTicks (transcoder : Transcoder) (clockHz : ℕ) : ℕ :=
  clockHz * transcoder.ptimeMs / 1000

/-- How many packets were lost right before one and are worth concealing. -/
def missing (transcoder : Transcoder) (run : Run) (point : StreamPoint) (clockHz : ℕ)
    (audio newRun : Bool) : ℕ :=
  let forward := (point.sequence - run.nextSequence).toInt
  let lost := forward.natAbs
  if newRun = false ∧ audio = true ∧ run.lastWasAudio = true ∧ point.marker = false ∧
      0 < forward ∧ 0 < transcoder.ptimeMs ∧ lost * transcoder.ptimeMs ≤ maxConcealMs ∧
      0 < transcoder.frameTicks clockHz ∧
      (point.timestamp - run.lastTimestamp).toNat = (lost + 1) * transcoder.frameTicks clockHz then
    lost
  else 0

def notePacket (transcoder : Transcoder) (point : StreamPoint) (clockHz : ℕ)
    (audio newRun : Bool) : ℕ × Transcoder :=
  match transcoder.run with
  | none => (0, transcoder)
  | some run =>
    let noted :=
      if newRun = true ∨ 0 ≤ (point.sequence - run.nextSequence).toInt then
        { run with
          nextSequence := point.sequence + 1
          lastTimestamp := point.timestamp
          lastWasAudio := audio }
      else run
    (transcoder.missing run point clockHz audio newRun, { transcoder with run := some noted })

/-- The room-domain timestamp of a cross-codec source's timestamp. -/
def domainTimestamp (transcoder : Transcoder) (timestamp : BitVec 32) (sourceClockHz : ℕ) :
    BitVec 32 :=
  match transcoder.run with
  | none => timestamp
  | some run =>
    run.firstDomain + rescale (timestamp - run.firstIn) sourceClockHz transcoder.roomClockHz

/-- A room-domain timestamp as a receiver counts it. -/
def receiverTimestamp (transcoder : Transcoder) (domain : BitVec 32) (toClockHz : ℕ) : BitVec 32 :=
  let first := transcoder.run.elim domain Run.firstDomain
  rescale (domain - first) transcoder.roomClockHz toClockHz

/-- The room-domain timestamp of the first of the lost frames before a packet, and the ticks from
one to the next. -/
def fillStart (transcoder : Transcoder) (point : StreamPoint) (missing sourceClockHz : ℕ)
    (fromCrossCodec : Bool) : BitVec 32 × BitVec 32 :=
  let sourceStep := BitVec.ofNat 32 (transcoder.frameTicks sourceClockHz)
  let first := point.timestamp - sourceStep * BitVec.ofNat 32 missing
  if fromCrossCodec then
    (transcoder.domainTimestamp first sourceClockHz,
      rescale sourceStep sourceClockHz transcoder.roomClockHz)
  else (first, sourceStep)

/-- A timestamp in the room and at a receiver. -/
structure Stamp where
  domain : BitVec 32
  receiver : BitVec 32

/-- The timestamps that go out with a packet: those of the concealed frames, and its own. -/
structure Stamped where
  fills : List Stamp
  packet : Stamp

/-- A packet of the source, audio or not, and what a receiver is sent of it. -/
def ingest (fromCrossCodec : Bool) (sourceClockHz receiverClockHz : ℕ) (transcoder : Transcoder)
    (input : StreamPoint × Bool) : Stamped × Transcoder :=
  let begun := transcoder.beginRun input.1.ssrc input.1.timestamp fromCrossCodec
  let noted := begun.2.notePacket input.1 sourceClockHz input.2 begun.1
  let start := noted.2.fillStart input.1 noted.1 sourceClockHz fromCrossCodec
  let stamp (domain : BitVec 32) : Stamp :=
    ⟨domain, noted.2.receiverTimestamp domain receiverClockHz⟩
  ({ fills := (List.range noted.1).map fun done ↦ stamp (start.1 + start.2 * BitVec.ofNat 32 done)
     packet := stamp (if fromCrossCodec then
        noted.2.domainTimestamp input.1.timestamp sourceClockHz else input.1.timestamp) },
    noted.2)

end Transcoder

/-! ### Rescaling -/

/-- A number of ticks that scales exactly from one clock to another. -/
def ScalesTo (step fromHz toHz scaled : ℕ) : Prop :=
  if fromHz = 0 ∨ fromHz = toHz then scaled = step else step * toHz = scaled * fromHz

/-- The distances that are rescaled right: those that are positive as 32-bit numbers, or all of them
if one clock is a multiple of the other. -/
def Keeps (fromHz toHz ticks : ℕ) : Prop :=
  fromHz ∣ toHz ∨ ticks < 2 ^ 31

theorem Keeps.mono {fromHz toHz ticks less : ℕ} (hkeeps : Keeps fromHz toHz ticks)
    (hle : less ≤ ticks) : Keeps fromHz toHz less :=
  hkeeps.imp id (Nat.lt_of_le_of_lt hle)

theorem rescale_line {step fromHz toHz scaled number : ℕ}
    (hscales : ScalesTo step fromHz toHz scaled) (hkeeps : Keeps fromHz toHz (number * step)) :
    rescale (BitVec.ofNat 32 (number * step)) fromHz toHz = BitVec.ofNat 32 (number * scaled) := by
  unfold rescale
  unfold ScalesTo at hscales
  split
  next hsame => rw [if_pos hsame] at hscales; rw [hscales]
  next hdiffer =>
    rw [if_neg hdiffer] at hscales
    obtain ⟨hfrom, -⟩ := not_or.mp hdiffer
    have hfrom' : (fromHz : ℤ) ≠ 0 := by exact_mod_cast hfrom
    rcases hkeeps with ⟨ratio, rfl⟩ | hsmall
    · -- the wrapped distance times the ratio is the true one, modulo 2^32
      have hscaled : scaled = step * ratio := by
        refine Nat.eq_of_mul_eq_mul_right (Nat.pos_of_ne_zero hfrom) ?_
        rw [← hscales, Nat.mul_assoc, Nat.mul_comm ratio]
      have hexact (ticks : ℤ) :
          (ticks * ((fromHz * ratio : ℕ) : ℤ)).tdiv fromHz = ticks * ratio := by
        rw [Int.natCast_mul, Int.mul_comm fromHz, ← Int.mul_assoc, Int.mul_tdiv_cancel _ hfrom']
      rw [hexact, BitVec.ofInt_mul, BitVec.ofInt_toInt, hscaled, ← Nat.mul_assoc,
        BitVec.ofInt_natCast, ← BitVec.ofNat_mul]
    · have hticks : (BitVec.ofNat 32 (number * step)).toInt = ((number * step : ℕ) : ℤ) := by
        have hmod : number * step % 2 ^ 32 = number * step := Nat.mod_eq_of_lt (by omega)
        rw [BitVec.toInt_eq_toNat_of_lt] <;> rw [BitVec.toNat_ofNat, hmod]
        omega
      have hproduct : ((number * step : ℕ) : ℤ) * toHz = ((number * scaled : ℕ) : ℤ) * fromHz := by
        have h : number * step * toHz = number * scaled * fromHz := by
          rw [Nat.mul_assoc, hscales, Nat.mul_assoc]
        exact_mod_cast h
      rw [hticks, hproduct, Int.mul_tdiv_cancel _ hfrom', BitVec.ofInt_natCast]

/-! ### Lines -/

/-- The clocks a source's timestamps go through, and the ticks from one frame to the next on each.
-/
structure Clocks where
  fromCrossCodec : Bool
  sourceHz : ℕ
  roomHz : ℕ
  receiverHz : ℕ
  step : ℕ
  domainStep : ℕ
  receiverStep : ℕ
  domain_scales : if fromCrossCodec then ScalesTo step sourceHz roomHz domainStep
    else domainStep = step
  receiver_scales : ScalesTo domainStep roomHz receiverHz receiverStep

namespace Clocks

variable (clocks : Clocks) (start : BitVec 32)

/-- The room-domain timestamp of the first packet. -/
def origin : BitVec 32 :=
  if clocks.fromCrossCodec then 0 else start

/-- The frame with a number is on the line of the run. -/
structure OnLine (number : ℕ) (stamp : Transcoder.Stamp) : Prop where
  domain : stamp.domain = clocks.origin start + BitVec.ofNat 32 (number * clocks.domainStep)
  receiver : stamp.receiver = BitVec.ofNat 32 (number * clocks.receiverStep)

/-- The distance of a frame from the start of the run is rescaled right, both times. -/
structure KeepsPace (number : ℕ) : Prop where
  domain : clocks.fromCrossCodec = true →
    Keeps clocks.sourceHz clocks.roomHz (number * clocks.step)
  receiver : Keeps clocks.roomHz clocks.receiverHz (number * clocks.domainStep)

variable {clocks start}

theorem KeepsPace.mono {number less : ℕ} (hkeeps : clocks.KeepsPace number) (hle : less ≤ number) :
    clocks.KeepsPace less :=
  ⟨fun hcross ↦ (hkeeps.domain hcross).mono (Nat.mul_le_mul_right _ hle),
    hkeeps.receiver.mono (Nat.mul_le_mul_right _ hle)⟩

/-- A transcoder in the run. -/
structure InRun (clocks : Clocks) (start : BitVec 32) (transcoder : Transcoder) (run : Run) :
    Prop where
  roomHz : transcoder.roomClockHz = clocks.roomHz
  run_eq : transcoder.run = some run
  firstIn : run.firstIn = start
  firstDomain : run.firstDomain = clocks.origin start

variable {transcoder : Transcoder} {run : Run}

/-- The room-domain timestamp of a frame, or the frame's own if the source is in the room codec. -/
theorem InRun.domain_eq (hrun : InRun clocks start transcoder run) {number : ℕ}
    (hkeeps : clocks.KeepsPace number) :
    (if clocks.fromCrossCodec then transcoder.domainTimestamp
        (start + BitVec.ofNat 32 (number * clocks.step)) clocks.sourceHz
      else start + BitVec.ofNat 32 (number * clocks.step)) =
      clocks.origin start + BitVec.ofNat 32 (number * clocks.domainStep) := by
  have hscales := clocks.domain_scales
  by_cases hcross : clocks.fromCrossCodec = true
  · rw [if_pos hcross] at hscales ⊢
    unfold Transcoder.domainTimestamp
    rw [hrun.run_eq]
    dsimp only
    rw [hrun.firstIn, hrun.firstDomain, hrun.roomHz, BitVec.add_comm start, BitVec.add_sub_cancel,
      rescale_line hscales (hkeeps.domain hcross)]
  · rw [if_neg hcross] at hscales ⊢
    rw [origin, if_neg hcross, hscales]

theorem InRun.onLine (hrun : InRun clocks start transcoder run) {number : ℕ}
    (hkeeps : clocks.KeepsPace number) {domain : BitVec 32}
    (hdomain : domain = clocks.origin start + BitVec.ofNat 32 (number * clocks.domainStep)) :
    clocks.OnLine start number ⟨domain, transcoder.receiverTimestamp domain clocks.receiverHz⟩ := by
  refine ⟨hdomain, ?_⟩
  change rescale (domain - transcoder.run.elim domain Run.firstDomain) transcoder.roomClockHz
    clocks.receiverHz = _
  rw [hrun.run_eq, hrun.roomHz, Option.elim_some, hrun.firstDomain, hdomain,
    BitVec.add_comm (clocks.origin start), BitVec.add_sub_cancel,
    rescale_line clocks.receiver_scales hkeeps.receiver]

/-- A concealed frame, when frames are as long as the source's step. -/
theorem InRun.fill_eq (hrun : InRun clocks start transcoder run) {point : StreamPoint}
    {missing rest done : ℕ} (hkeeps : clocks.KeepsPace (rest + missing))
    (hticks : transcoder.frameTicks clocks.sourceHz = clocks.step) (hrest : 0 < rest)
    (hpoint : point.timestamp = start + BitVec.ofNat 32 ((rest + missing) * clocks.step)) :
    let fill := transcoder.fillStart point missing clocks.sourceHz clocks.fromCrossCodec
    fill.1 + fill.2 * BitVec.ofNat 32 done =
      clocks.origin start + BitVec.ofNat 32 ((rest + done) * clocks.domainStep) := by
  have hfirst : point.timestamp - BitVec.ofNat 32 clocks.step * BitVec.ofNat 32 missing =
      start + BitVec.ofNat 32 (rest * clocks.step) := by
    rw [hpoint, ← BitVec.ofNat_mul, Nat.mul_comm clocks.step, Nat.add_mul, BitVec.ofNat_add,
      ← BitVec.add_assoc, BitVec.add_sub_cancel]
  have hline : clocks.origin start + BitVec.ofNat 32 (rest * clocks.domainStep) +
      BitVec.ofNat 32 clocks.domainStep * BitVec.ofNat 32 done =
        clocks.origin start + BitVec.ofNat 32 ((rest + done) * clocks.domainStep) := by
    rw [BitVec.add_assoc, ← BitVec.ofNat_mul, ← BitVec.ofNat_add, Nat.mul_comm clocks.domainStep,
      ← Nat.add_mul]
  have hdomain := hrun.domain_eq (hkeeps.mono (Nat.le_add_right rest missing))
  have hscales := clocks.domain_scales
  unfold Transcoder.fillStart
  dsimp only
  rw [hticks, hfirst]
  by_cases hcross : clocks.fromCrossCodec = true
  · have hone := rescale_line (if_pos hcross ▸ hscales)
      ((hkeeps.mono (show 1 ≤ rest + missing by omega)).domain hcross)
    rw [Nat.one_mul, Nat.one_mul] at hone
    rw [if_pos hcross] at hdomain ⊢
    rw [hdomain, hrun.roomHz, hone]
    exact hline
  · rw [if_neg hcross] at hdomain hscales ⊢
    rw [hdomain, ← hscales]
    exact hline

end Clocks

/-! ### Runs -/

/-- A frame of the source, by its number in the run. -/
structure SourceFrame where
  number : ℕ
  marker : Bool
  audio : Bool

/-- A later frame, before the sequence numbers or the timestamps come round. -/
structure SourceFrame.Follows (step : ℕ) (frame next : SourceFrame) : Prop where
  later : frame.number < next.number
  sequence : next.number - frame.number < 2 ^ 15
  timestamp : (next.number - frame.number) * step < 2 ^ 32

section Run

variable (clocks : Clocks) (ssrc start : BitVec 32) (sequence : BitVec 16)

/-- The packet of a frame. -/
def packetOf (frame : SourceFrame) : StreamPoint × Bool :=
  (⟨ssrc, sequence + BitVec.ofNat 16 frame.number,
    start + BitVec.ofNat 32 (frame.number * clocks.step), frame.marker⟩, frame.audio)

/-- What the run remembers after a frame. -/
def runAfter (frame : SourceFrame) : Run where
  ssrc := ssrc
  nextSequence := sequence + BitVec.ofNat 16 frame.number + 1
  lastTimestamp := start + BitVec.ofNat 32 (frame.number * clocks.step)
  lastWasAudio := frame.audio
  firstIn := start
  firstDomain := clocks.origin start

/-- What goes out with a frame is on the line: the frame, and the lost frames right before it. -/
structure OnPace (frame : SourceFrame) (stamped : Transcoder.Stamped) : Prop where
  packet : clocks.OnLine start frame.number stamped.packet
  fills : ∀ done stamp, stamped.fills[done]? = some stamp →
    ∃ number, number + stamped.fills.length = frame.number + done ∧
      clocks.OnLine start number stamp

variable {clocks ssrc start sequence} {transcoder : Transcoder} {frame next : SourceFrame}

/-- The stamps of a packet in a run, from what `notePacket` has found. -/
theorem onPace_of_noted {noted : Transcoder} {run : Run} (hrun : clocks.InRun start noted run)
    (hkeeps : clocks.KeepsPace frame.number) {missing : ℕ}
    (hmissing : 0 < missing → noted.frameTicks clocks.sourceHz = clocks.step ∧
      missing < frame.number) :
    let packet := packetOf clocks ssrc start sequence frame
    let fill := noted.fillStart packet.1 missing clocks.sourceHz clocks.fromCrossCodec
    let stamp (domain : BitVec 32) : Transcoder.Stamp :=
      ⟨domain, noted.receiverTimestamp domain clocks.receiverHz⟩
    OnPace clocks start frame
      { fills := (List.range missing).map fun done ↦
          stamp (fill.1 + fill.2 * BitVec.ofNat 32 done)
        packet := stamp (if clocks.fromCrossCodec then
          noted.domainTimestamp packet.1.timestamp clocks.sourceHz else packet.1.timestamp) } := by
  refine ⟨hrun.onLine hkeeps (hrun.domain_eq hkeeps), fun done stamp hstamp ↦ ?_⟩
  rw [List.length_map, List.length_range]
  have hdone : done < missing := by
    have hlt := (List.getElem?_eq_some_iff.mp hstamp).1
    rwa [List.length_map, List.length_range] at hlt
  rw [List.getElem?_map, List.getElem?_range hdone] at hstamp
  obtain ⟨hticks, hlt⟩ := hmissing (by omega)
  have hnumber : frame.number - missing + missing = frame.number :=
    Nat.sub_add_cancel (Nat.le_of_lt hlt)
  refine ⟨frame.number - missing + done, by omega, ?_⟩
  rw [← Option.some.inj hstamp]
  refine hrun.onLine (hkeeps.mono (by omega)) ?_
  exact hrun.fill_eq (by rwa [hnumber]) hticks (by omega) (by rw [hnumber]; rfl)

theorem notePacket_eq {run : Run} (hrun : transcoder.run = some run) {point : StreamPoint}
    {clockHz : ℕ} {audio newRun : Bool}
    (hforward : newRun = true ∨ 0 ≤ (point.sequence - run.nextSequence).toInt) :
    transcoder.notePacket point clockHz audio newRun =
      (transcoder.missing run point clockHz audio newRun,
        { transcoder with run := some { run with
            nextSequence := point.sequence + 1
            lastTimestamp := point.timestamp
            lastWasAudio := audio } }) := by
  unfold Transcoder.notePacket
  rw [hrun]
  dsimp only
  rw [if_pos hforward]

variable (clocks ssrc start sequence) in
/-- The transcoder takes a frame into the run. Before it, it conceals nothing or all that was lost.
-/
def Notes (transcoder : Transcoder) (frame : SourceFrame) : Prop :=
  ∃ newRun begun missing,
    transcoder.beginRun ssrc (start + BitVec.ofNat 32 (frame.number * clocks.step))
      clocks.fromCrossCodec = (newRun, begun) ∧
    begun.notePacket (packetOf clocks ssrc start sequence frame).1 clocks.sourceHz frame.audio
      newRun = (missing,
        { transcoder with run := some (runAfter clocks ssrc start sequence frame) }) ∧
    (0 < missing → transcoder.frameTicks clocks.sourceHz = clocks.step ∧ missing < frame.number)

theorem Notes.ingest_snd (hnotes : Notes clocks ssrc start sequence transcoder frame) :
    (transcoder.ingest clocks.fromCrossCodec clocks.sourceHz clocks.receiverHz
      (packetOf clocks ssrc start sequence frame)).2 =
        { transcoder with run := some (runAfter clocks ssrc start sequence frame) } := by
  obtain ⟨newRun, begun, missing, hbegun, hnoted, -⟩ := hnotes
  unfold Transcoder.ingest
  dsimp only [packetOf] at hnoted ⊢
  rw [hbegun]
  rw [hnoted]

theorem Notes.onPace (hnotes : Notes clocks ssrc start sequence transcoder frame)
    (hroom : transcoder.roomClockHz = clocks.roomHz) (hkeeps : clocks.KeepsPace frame.number) :
    OnPace clocks start frame (transcoder.ingest clocks.fromCrossCodec clocks.sourceHz
      clocks.receiverHz (packetOf clocks ssrc start sequence frame)).1 := by
  obtain ⟨newRun, begun, missing, hbegun, hnoted, hmissing⟩ := hnotes
  have hrun : clocks.InRun start
      { transcoder with run := some (runAfter clocks ssrc start sequence frame) }
      (runAfter clocks ssrc start sequence frame) := ⟨hroom, rfl, rfl, rfl⟩
  have hpaced := @onPace_of_noted _ ssrc _ sequence _ _ _ hrun hkeeps _ hmissing
  unfold Transcoder.ingest
  dsimp only [packetOf] at hnoted hpaced ⊢
  rw [hbegun]
  rw [hnoted]
  exact hpaced

/-- The first packet of a run. -/
theorem notes_first (hnew : ∀ run, transcoder.run = some run → run.ssrc ≠ ssrc)
    (hzero : frame.number = 0) : Notes clocks ssrc start sequence transcoder frame := by
  have hbegun : transcoder.beginRun ssrc (start + BitVec.ofNat 32 (frame.number * clocks.step))
      clocks.fromCrossCodec = (true, { transcoder with run := some ⟨ssrc, 0, start, false, start,
        clocks.origin start⟩ }) := by
    unfold Transcoder.beginRun
    rw [if_neg, hzero, Nat.zero_mul, BitVec.add_zero]
    · rfl
    · rw [Option.any_eq_true]
      rintro ⟨run, hsome, hsame⟩
      exact hnew run hsome (eq_of_beq hsame)
  have hnoted := @notePacket_eq { transcoder with run := some ⟨ssrc, 0, start, false, start,
    clocks.origin start⟩ } _ rfl (packetOf clocks ssrc start sequence frame).1 clocks.sourceHz
      frame.audio true (Or.inl rfl)
  refine ⟨_, _, _, hbegun, hnoted, fun h ↦ ?_⟩
  exact absurd h (Nat.lt_irrefl 0)

/-- The sequence numbers of two frames of a run, as the transcoder compares them. -/
theorem forward_eq (hfollows : frame.Follows clocks.step next) :
    (sequence + BitVec.ofNat 16 next.number - (sequence + BitVec.ofNat 16 frame.number + 1)).toInt =
      ((next.number - frame.number - 1 : ℕ) : ℤ) := by
  obtain ⟨hlater, hnear, -⟩ := hfollows
  generalize hgap : next.number - frame.number - 1 = gap
  have hdifference : sequence + BitVec.ofNat 16 next.number -
      (sequence + BitVec.ofNat 16 frame.number + 1) = BitVec.ofNat 16 gap := by
    have hnumber : next.number = frame.number + 1 + gap := by omega
    rw [hnumber, BitVec.ofNat_add, BitVec.ofNat_add, ← BitVec.add_assoc, ← BitVec.add_assoc,
      BitVec.add_comm _ (BitVec.ofNat 16 gap)]
    exact BitVec.add_sub_cancel _ _
  rw [hdifference]
  have hmod : gap % 2 ^ 16 = gap := Nat.mod_eq_of_lt (by omega)
  rw [BitVec.toInt_eq_toNat_of_lt] <;> rw [BitVec.toNat_ofNat, hmod]
  omega

/-- A later packet of a run. -/
theorem notes_next (hrun : transcoder.run = some (runAfter clocks ssrc start sequence frame))
    (hfollows : frame.Follows clocks.step next) :
    Notes clocks ssrc start sequence transcoder next := by
  have hbegun : transcoder.beginRun ssrc (start + BitVec.ofNat 32 (next.number * clocks.step))
      clocks.fromCrossCodec = (false, transcoder) := by
    unfold Transcoder.beginRun
    rw [hrun, if_pos]
    exact beq_self_eq_true ssrc
  have hforward := @forward_eq clocks sequence frame next hfollows
  refine ⟨_, _, _, hbegun, notePacket_eq hrun (Or.inr ?_), fun h ↦ ?_⟩
  · exact hforward.symm ▸ Int.natCast_nonneg _
  · unfold Transcoder.missing at h ⊢
    dsimp only at h ⊢
    split at h
    next hall =>
      rw [if_pos hall]
      obtain ⟨-, -, -, -, -, -, -, -, hadvanced⟩ := hall
      have hlost : ((packetOf clocks ssrc start sequence next).1.sequence -
          (runAfter clocks ssrc start sequence frame).nextSequence).toInt.natAbs =
            next.number - frame.number - 1 := by
        change (sequence + _ - (sequence + _ + 1)).toInt.natAbs = _
        rw [hforward, Int.natAbs_natCast]
      rw [hlost] at hadvanced ⊢
      have helapsed : (packetOf clocks ssrc start sequence next).1.timestamp -
          (runAfter clocks ssrc start sequence frame).lastTimestamp =
            BitVec.ofNat 32 ((next.number - frame.number) * clocks.step) := by
        change start + BitVec.ofNat 32 (next.number * clocks.step) -
          (start + BitVec.ofNat 32 (frame.number * clocks.step)) = _
        have hnumber : next.number = frame.number + (next.number - frame.number) := by omega
        generalize next.number - frame.number = gap at hnumber
        rw [hnumber, Nat.add_mul, BitVec.ofNat_add, ← BitVec.add_assoc,
          BitVec.add_comm _ (BitVec.ofNat 32 (gap * _)), BitVec.add_sub_cancel]
      have hgap : next.number - frame.number - 1 + 1 = next.number - frame.number := by omega
      rw [helapsed, BitVec.toNat_ofNat, Nat.mod_eq_of_lt hfollows.timestamp, hgap] at hadvanced
      exact ⟨(Nat.eq_of_mul_eq_mul_left (by omega) hadvanced).symm, by omega⟩
    next => exact absurd h (Nat.lt_irrefl 0)

/-- The frames of a run, those that were lost left out. -/
structure SourceRun (clocks : Clocks) (frames : List SourceFrame) : Prop where
  first : ∀ frame, frames[0]? = some frame → frame.number = 0
  follows : ∀ k frame next, frames[k]? = some frame → frames[k + 1]? = some next →
    frame.Follows clocks.step next

variable (clocks ssrc start sequence) in
/-- What goes out during a run. -/
def stampsOf (transcoder : Transcoder) (frames : List SourceFrame) : List Transcoder.Stamped :=
  outputs (Transcoder.ingest clocks.fromCrossCodec clocks.sourceHz clocks.receiverHz) transcoder
    (frames.map (packetOf clocks ssrc start sequence))

variable {frames : List SourceFrame}

theorem packet_at {k : ℕ} (hframe : frames[k]? = some frame) :
    (frames.map (packetOf clocks ssrc start sequence))[k]? =
      some (packetOf clocks ssrc start sequence frame) := by
  rw [List.getElem?_map, hframe, Option.map_some]

variable (hnew : ∀ run, transcoder.run = some run → run.ssrc ≠ ssrc)
  (hsource : SourceRun clocks frames)

include hnew hsource

/-- The run goes on with every packet, on the line or not. -/
theorem final_take_frames {k : ℕ} (hframe : frames[k]? = some frame) :
    final (Transcoder.ingest clocks.fromCrossCodec clocks.sourceHz clocks.receiverHz) transcoder
        ((frames.map (packetOf clocks ssrc start sequence)).take (k + 1)) =
      { transcoder with run := some (runAfter clocks ssrc start sequence frame) } := by
  induction k generalizing frame with
  | zero =>
    rw [final_take_succ _ (packet_at hframe)]
    exact (notes_first hnew (hsource.first frame hframe)).ingest_snd
  | succ k ih =>
    have hlt := (List.getElem?_eq_some_iff.mp hframe).1
    have hbefore : frames[k]? = some frames[k] := List.getElem?_eq_getElem (by omega)
    rw [final_take_succ _ (packet_at hframe), ih hbefore]
    exact (notes_next rfl (hsource.follows k _ frame hbefore hframe)).ingest_snd

theorem onPace_at (hroom : transcoder.roomClockHz = clocks.roomHz)
    (hkeeps : ∀ frame ∈ frames, clocks.KeepsPace frame.number) {k : ℕ}
    (hframe : frames[k]? = some frame) :
    ∃ stamped, (stampsOf clocks ssrc start sequence transcoder frames)[k]? = some stamped ∧
      OnPace clocks start frame stamped := by
  have hkept := hkeeps frame (List.mem_of_getElem? hframe)
  refine ⟨_, getElem?_outputs_of_eq _ (packet_at hframe) _, ?_⟩
  cases k with
  | zero => exact (notes_first hnew (hsource.first frame hframe)).onPace hroom hkept
  | succ k =>
    have hlt := (List.getElem?_eq_some_iff.mp hframe).1
    have hbefore : frames[k]? = some frames[k] := List.getElem?_eq_getElem (by omega)
    rw [final_take_frames hnew hsource hbefore]
    exact (notes_next rfl (hsource.follows k _ frame hbefore hframe)).onPace hroom hkept

/-- Timestamps keep pace. Assumes: the room clock is that of the clocks, and every frame lies where
the 32-bit scaling of the clocks does not lose its place. Packets and concealed frames stay on one
line from the start of the stream, and the timestamps of consecutive packets differ by the scaled
steps between them, in the clock of the room and in the receiver's. -/
theorem timestamps_keep_pace (hroom : transcoder.roomClockHz = clocks.roomHz)
    (hkeeps : ∀ frame ∈ frames, clocks.KeepsPace frame.number) {k : ℕ}
    {stamped : Transcoder.Stamped} (hframe : frames[k]? = some frame)
    (hstamped : (stampsOf clocks ssrc start sequence transcoder frames)[k]? = some stamped) :
    OnPace clocks start frame stamped ∧
      ∀ (later : SourceFrame) (after : Transcoder.Stamped), frames[k + 1]? = some later →
        (stampsOf clocks ssrc start sequence transcoder frames)[k + 1]? = some after →
          after.packet.domain - stamped.packet.domain =
              BitVec.ofNat 32 ((later.number - frame.number) * clocks.domainStep) ∧
            after.packet.receiver - stamped.packet.receiver =
              BitVec.ofNat 32 ((later.number - frame.number) * clocks.receiverStep) := by
  have hpaced {j : ℕ} {other : SourceFrame} {shown : Transcoder.Stamped}
      (hother : frames[j]? = some other)
      (hshown : (stampsOf clocks ssrc start sequence transcoder frames)[j]? = some shown) :
      OnPace clocks start other shown := by
    obtain ⟨found, hfound, hpaced⟩ := onPace_at hnew hsource hroom hkeeps hother
    obtain rfl := Option.some.inj (hfound.symm.trans hshown)
    exact hpaced
  refine ⟨hpaced hframe hstamped, fun later after hlater hafter ↦ ?_⟩
  obtain ⟨hdomain, hreceiver⟩ := (hpaced hframe hstamped).packet
  obtain ⟨hdomain', hreceiver'⟩ := (hpaced hlater hafter).packet
  have hnumber : later.number = later.number - frame.number + frame.number :=
    (Nat.sub_add_cancel (Nat.le_of_lt (hsource.follows k frame later hframe hlater).later)).symm
  generalize later.number - frame.number = gap at hnumber ⊢
  rw [hdomain, hdomain', hreceiver, hreceiver', hnumber, Nat.add_mul, Nat.add_mul, BitVec.ofNat_add,
    BitVec.ofNat_add, BitVec.add_sub_cancel, BitVec.add_comm (clocks.origin start),
    BitVec.add_assoc, BitVec.add_comm (clocks.origin start), BitVec.add_sub_cancel]
  exact ⟨rfl, rfl⟩

end Run

/-- An Opus source in a G.711 room, and a wideband receiver. -/
def opusRoom : Clocks where
  fromCrossCodec := true
  sourceHz := 48000
  roomHz := 8000
  receiverHz := 16000
  step := 960
  domainStep := 160
  receiverStep := 320
  domain_scales := by simp [ScalesTo]
  receiver_scales := by simp [ScalesTo]

/-- Two frames are lost and concealed. -/
theorem timestamps_keep_pace_lossy :
    let frames : List SourceFrame := [⟨0, true, true⟩, ⟨1, false, true⟩, ⟨4, false, true⟩]
    ∃ stamped, (stampsOf opusRoom 7 100 65535 ⟨8000, 20, none⟩ frames)[2]? = some stamped ∧
      stamped.fills.length = 2 ∧ OnPace opusRoom 100 ⟨4, false, true⟩ stamped := by
  have hsource : SourceRun opusRoom [⟨0, true, true⟩, ⟨1, false, true⟩, ⟨4, false, true⟩] := by
    refine ⟨fun frame hframe ↦ ?_, fun k frame next hframe hnext ↦ ?_⟩
    · cases hframe
      rfl
    · rcases k with _ | _ | k
      · cases hframe
        cases hnext
        exact ⟨by decide, by decide, by decide⟩
      · cases hframe
        cases hnext
        exact ⟨by decide, by decide, by decide⟩
      · cases hnext
  have hnew : ∀ run, (⟨8000, 20, none⟩ : Transcoder).run = some run → run.ssrc ≠ 7 :=
    fun _ h ↦ by cases h
  have hkeeps : ∀ frame ∈ [⟨0, true, true⟩, ⟨1, false, true⟩, (⟨4, false, true⟩ : SourceFrame)],
      opusRoom.KeepsPace frame.number := by
    intro frame hframe
    have hsmall : frame.number ≤ 4 := by
      revert frame
      simp
    exact ⟨fun _ ↦ .inr (by dsimp only [opusRoom]; omega), .inr (by dsimp only [opusRoom]; omega)⟩
  have hpaced := @timestamps_keep_pace opusRoom 7 100 65535 ⟨8000, 20, none⟩ _ _ hnew hsource rfl
    hkeeps 2 _ rfl rfl
  exact ⟨_, rfl, by decide +kernel, hpaced.1⟩

/-- Twelve and a half hours of 20 ms frames. -/
def longRun : List SourceFrame :=
  (List.range 2236964).map fun number ↦ ⟨number, false, true⟩

theorem longRun_at {k : ℕ} (hk : k < 2236964) : longRun[k]? = some ⟨k, false, true⟩ := by
  rw [longRun, List.getElem?_map, List.getElem?_range hk, Option.map_some]

theorem sourceRun_longRun : SourceRun opusRoom longRun := by
  have hlt {k : ℕ} {frame : SourceFrame} (hframe : longRun[k]? = some frame) : k < 2236964 := by
    have h := (List.getElem?_eq_some_iff.mp hframe).1
    rwa [longRun, List.length_map, List.length_range] at h
  refine ⟨fun frame hframe ↦ ?_, fun k frame next hframe hnext ↦ ?_⟩
  · rw [longRun_at (hlt hframe)] at hframe
    cases hframe
    rfl
  · rw [longRun_at (hlt hframe)] at hframe
    rw [longRun_at (hlt hnext)] at hnext
    cases hframe
    cases hnext
    dsimp only [opusRoom]
    constructor <;> dsimp only <;> omega

/-- The last step of that run takes the room's clock back by a day. -/
theorem clock_breaks :
    ∃ before after,
      (stampsOf opusRoom 7 0 0 ⟨8000, 20, none⟩ longRun)[2236962]? = some before ∧
      (stampsOf opusRoom 7 0 0 ⟨8000, 20, none⟩ longRun)[2236963]? = some after ∧
      after.packet.domain - before.packet.domain = BitVec.ofInt 32 (-715827722) ∧
      after.packet.domain - before.packet.domain ≠ BitVec.ofNat 32 opusRoom.domainStep := by
  have hstamps {k : ℕ} (hk : k + 1 < 2236964) :=
    getElem?_outputs_of_eq (Transcoder.ingest opusRoom.fromCrossCodec opusRoom.sourceHz
      opusRoom.receiverHz) (@packet_at opusRoom 7 0 0 _ longRun _ (longRun_at hk)) ⟨8000, 20, none⟩
  have hstate {k : ℕ} (hk : k < 2236964) :=
    @final_take_frames opusRoom 7 0 0 ⟨8000, 20, none⟩ _ longRun (by rintro _ ⟨⟩) sourceRun_longRun
      k (longRun_at hk)
  refine ⟨_, _, hstamps (by decide), hstamps (by decide), ?_⟩
  rw [hstate (by decide), hstate (by decide)]
  decide +kernel

end SiphonRtp.Engine
