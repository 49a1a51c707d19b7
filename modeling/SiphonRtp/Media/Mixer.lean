import Mathlib.Tactic.NormNum.Basic

/-!
# The conference mix bus

One tick of a conference: the decoded frames of the participants go in, and each participant gets
the sum of the active speakers without its own voice. A whisper is heard by its target alone, and a
monitor hears its target alone.

The buffers of the mixer have fixed sizes, so a frame is written over the front of one (`overwrite`)
and read back from there. A tick that breaks the caller's part of the contract panics (`none`). The
sums of the source are `i32`, and integers here: they fit (`sums_within_i32`).
-/

set_option autoImplicit false

namespace SiphonRtp.Media

/-- The largest room the mixer supports. -/
def maxParticipants : ℕ := 64

/-- The largest number of active speakers that a cap can ask for. -/
def maxActiveSpeakers : ℕ := 8

/-- A participant's role in the room. -/
inductive Role
  | talker
  | listener
  | muted
deriving DecidableEq

/-- The inputs to one tick, as parallel lists. -/
structure MixInputs where
  pcm : List (List Int16)
  roles : List Role
  energy : List ℤ
  speaking : List Bool
  external : Option (List Int16)
  frameLen : ℕ

/-- `source`'s audio is audible only to `target`. -/
structure Whisper where
  source : ℕ
  target : ℕ
deriving DecidableEq

/-- `listener` hears `target` directly. -/
structure Monitor where
  listener : ℕ
  target : ℕ
deriving DecidableEq

/-- The mix bus, with room for a number of participants and of samples in a frame. -/
structure Mixer (participants samples : ℕ) where
  participants_le : participants ≤ maxParticipants
  accum : Vector ℤ samples
  listenerBuf : Vector Int16 samples
  participantBuf : Vector Int16 samples
  own : Vector (Vector Int16 samples) participants
  hasOwn : Vector Bool participants
  frameLen : ℕ
  participantCount : ℕ

/-- A sum as a sample. -/
def saturate (value : ℤ) : Int16 :=
  Int16.ofInt (max (-32768) (min 32767 value))

/-- A frame written over the front of a buffer. -/
def overwrite {α : Type} {n : ℕ} (buffer : Vector α n) (frame : List α) : Vector α n :=
  buffer.mapIdx fun index old ↦ frame.getD index old

/-- Samples added to a total, as far as both go. -/
def addSamples : List ℤ → List Int16 → List ℤ
  | total :: totals, sample :: samples => (total + sample.toInt) :: addSamples totals samples
  | totals, _ => totals

namespace MixInputs

def participantCount (inputs : MixInputs) : ℕ :=
  inputs.pcm.length

/-- `pcm[index][..frame_len]`. -/
def row (inputs : MixInputs) (index : ℕ) : Option (List Int16) :=
  match inputs.pcm[index]? with
  | some row => if inputs.frameLen ≤ row.length then some (row.take inputs.frameLen) else none
  | none => none

end MixInputs

/-! ### Active speakers -/

/-- Whether a participant is in a set of participants. -/
def inMask (mask : BitVec 64) (index : ℕ) : Bool :=
  mask &&& (1#64 <<< index) != 0#64

/-- The participants who whisper. -/
def privateSources (whispers : List Whisper) (participantCount : ℕ) : BitVec 64 :=
  whispers.foldl (fun mask whisper ↦
    if whisper.source < participantCount then mask ||| (1#64 <<< whisper.source) else mask) 0#64

/-- A talker who speaks, and does not whisper. -/
def isCandidate (inputs : MixInputs) (sources : BitVec 64) (index : ℕ) : Bool :=
  inputs.roles[index]? = some .talker && inputs.speaking.getD index false &&
    !inMask sources index

/-- The first slot with the least energy. -/
def weakest (best : List (ℤ × ℕ)) : ℕ :=
  best.findIdx fun slot ↦ best.all fun other ↦ slot.1 ≤ other.1

/-- One candidate of the selection: it takes a free slot, or that of the weakest kept speaker if it
is louder. -/
def keepLoudest (capacity : ℕ) (best : List (ℤ × ℕ)) (energy : ℤ) (index : ℕ) : List (ℤ × ℕ) :=
  if best.length < capacity then best ++ [(energy, index)]
  else
    match best[weakest best]? with
    | some slot => if slot.1 < energy then best.set (weakest best) (energy, index) else best
    | none => best

/-- The set of some participants. -/
def maskOf (indices : List ℕ) : BitVec 64 :=
  indices.foldl (fun mask index ↦ mask ||| (1#64 <<< index)) 0#64

/-- The `topM` loudest candidates, or all of them if there is no cap. -/
def selectActiveSpeakers (inputs : MixInputs) (sources : BitVec 64) (topM : ℕ) : BitVec 64 :=
  let indices := List.range inputs.roles.length
  if topM = 0 then maskOf (indices.filter (isCandidate inputs sources))
  else
    maskOf ((indices.foldl (fun best index ↦
      if isCandidate inputs sources index then
        keepLoudest (min topM maxActiveSpeakers) best (inputs.energy.getD index 0) index
      else best) []).map (·.2))

/-! ### A tick -/

namespace Mixer

variable {participants samples : ℕ}

/-- A mixer for some participants, `maxParticipants` at most, and frames of some samples. -/
def new (participantCapacity frameCapacity : ℕ) :
    Mixer (min participantCapacity maxParticipants) frameCapacity where
  participants_le := Nat.min_le_right _ _
  accum := Vector.replicate _ 0
  listenerBuf := Vector.replicate _ 0
  participantBuf := Vector.replicate _ 0
  own := Vector.replicate _ (Vector.replicate _ 0)
  hasOwn := Vector.replicate _ false
  frameLen := 0
  participantCount := 0

/-- A frame of its own for a participant. -/
def giveOwn (mixer : Mixer participants samples) (index : ℕ) (frame : List Int16) :
    Mixer participants samples :=
  { mixer with
    own := mixer.own.mapIdx fun i buffer ↦ if i = index then overwrite buffer frame else buffer
    hasOwn := mixer.hasOwn.mapIdx fun i own ↦ if i = index then true else own }

/-- An active speaker is added to the room. -/
def addRow (inputs : MixInputs) (active : BitVec 64) (total : List ℤ) (index : ℕ) :
    Option (List ℤ) :=
  if inMask active index then
    match inputs.row index with
    | some row => some (addSamples total row)
    | none => none
  else some total

/-- An active speaker hears the room without itself. -/
def hearRoom (inputs : MixInputs) (active : BitVec 64) (total : List ℤ)
    (mixer : Mixer participants samples) (index : ℕ) : Option (Mixer participants samples) :=
  if inMask active index then
    match inputs.row index with
    | some row =>
      some (mixer.giveOwn index (List.zipWith (fun sum own ↦ saturate (sum - own.toInt)) total row))
    | none => none
  else some mixer

/-- A monitor hears its target. -/
def hearTarget (inputs : MixInputs) (mixer : Mixer participants samples) (monitor : Monitor) :
    Option (Mixer participants samples) :=
  if monitor.listener < inputs.participantCount ∧ monitor.target < inputs.participantCount then
    match inputs.row monitor.target with
    | some row => some (mixer.giveOwn monitor.listener row)
    | none => none
  else some mixer

/-- What the target of a whisper hears: the room, without itself if it speaks, and the whisper. -/
def whispered (toActive : Bool) (total : List ℤ) (fromRow toRow : List Int16) : List Int16 :=
  List.zipWith (fun base whisper ↦ saturate (base + whisper.toInt))
    (List.zipWith (fun sum own ↦ if toActive then sum - own.toInt else sum) total toRow) fromRow

/-- The target of a whisper hears it. -/
def hearWhisper (inputs : MixInputs) (active : BitVec 64) (total : List ℤ)
    (mixer : Mixer participants samples) (whisper : Whisper) :
    Option (Mixer participants samples) :=
  if whisper.source < inputs.participantCount ∧ whisper.target < inputs.participantCount then
    match inputs.row whisper.source, inputs.row whisper.target with
    | some fromRow, some toRow =>
      some (mixer.giveOwn whisper.target
        (whispered (inMask active whisper.target) total fromRow toRow))
    | _, _ => none
  else some mixer

/-- The mixer with the shared frames of a tick written, and no frame of anyone's own yet. -/
def share (mixer : Mixer participants samples) (inputs : MixInputs) (room total : List ℤ) :
    Mixer participants samples :=
  { mixer with
    accum := overwrite mixer.accum total
    listenerBuf := overwrite mixer.listenerBuf (total.map saturate)
    participantBuf := overwrite mixer.participantBuf (room.map saturate)
    hasOwn := mixer.hasOwn.mapIdx fun i own ↦ if i < inputs.participantCount then false else own
    frameLen := inputs.frameLen
    participantCount := inputs.participantCount }

/-- Mix one tick. Gives the set of active speakers. -/
def mix (mixer : Mixer participants samples) (inputs : MixInputs) (whispers : List Whisper)
    (monitors : List Monitor) (topM : ℕ) : Option (BitVec 64 × Mixer participants samples) :=
  if inputs.participantCount ≤ participants ∧ inputs.roles.length = inputs.participantCount ∧
      inputs.energy.length = inputs.participantCount ∧
      inputs.speaking.length = inputs.participantCount ∧ inputs.frameLen ≤ samples then do
    let indices := List.range inputs.participantCount
    let active := selectActiveSpeakers inputs (privateSources whispers inputs.participantCount) topM
    let room ← indices.foldlM (addRow inputs active) (List.replicate inputs.frameLen 0)
    -- a bridged room is heard by everyone
    let total := match inputs.external with
      | some external => addSamples room external
      | none => room
    let talkers ← indices.foldlM (hearRoom inputs active total) (mixer.share inputs room total)
    let monitored ← monitors.foldlM (hearTarget inputs) talkers
    let mixed ← whispers.foldlM (hearWhisper inputs active total) monitored
    return (active, mixed)
  else none

/-- The shared frame every listener hears. -/
def listenerMix (mixer : Mixer participants samples) : List Int16 :=
  mixer.listenerBuf.toList.take mixer.frameLen

/-- The mix of the local participants, without a bridged room. -/
def participantMix (mixer : Mixer participants samples) : List Int16 :=
  mixer.participantBuf.toList.take mixer.frameLen

/-- The frame a participant hears: its own, or the shared one. -/
def outputFor (mixer : Mixer participants samples) (participant : ℕ) : List Int16 :=
  match mixer.own[participant]?, mixer.hasOwn[participant]? with
  | some own, some true =>
    if participant < mixer.participantCount then own.toList.take mixer.frameLen
    else mixer.listenerMix
  | _, _ => mixer.listenerMix

/-! ### The sums stay within 32 bits -/

/-- A value within a bound on either side. -/
def Within (bound value : ℤ) : Prop := -bound ≤ value ∧ value ≤ bound

theorem within_toInt (sample : Int16) : Within (2 ^ 15) sample.toInt := by
  have hlow := sample.le_toInt
  have hhigh := sample.toInt_lt
  exact ⟨by omega, by omega⟩

theorem within_addSamples {bound : ℤ} {totals : List ℤ} (samples : List Int16)
    (hbound : ∀ total ∈ totals, Within bound total) :
    ∀ sum ∈ addSamples totals samples, Within (bound + 2 ^ 15) sum := by
  unfold Within at *
  induction totals generalizing samples with
  | nil => simp [addSamples]
  | cons total totals ih =>
    obtain ⟨hfirst, hrest⟩ := List.forall_mem_cons.mp hbound
    cases samples with
    | nil =>
      intro sum hsum
      have hkept := hbound sum hsum
      omega
    | cons sample samples =>
      refine List.forall_mem_cons.mpr ⟨?_, ih samples hrest⟩
      have hsample := within_toInt sample
      unfold Within at hsample
      omega

/-- Each speaker that is added moves a sum by a sample at most. -/
theorem within_addRow {inputs : MixInputs} {active : BitVec 64} {indices : List ℕ} {bound : ℤ}
    {start room : List ℤ} (hstart : ∀ sum ∈ start, Within bound sum)
    (hroom : indices.foldlM (addRow inputs active) start = some room) :
    ∀ sum ∈ room, Within (bound + indices.length * 2 ^ 15) sum := by
  induction indices generalizing start bound with
  | nil =>
    obtain rfl := Option.some.inj hroom
    simpa using hstart
  | cons index indices ih =>
    rw [List.foldlM_cons] at hroom
    obtain ⟨next, hnext, hrest⟩ := Option.bind_eq_some_iff.mp hroom
    have hmoved : ∀ sum ∈ next, Within (bound + 2 ^ 15) sum := by
      unfold addRow at hnext
      split at hnext
      · split at hnext
        next row _ =>
          obtain rfl := Option.some.inj hnext
          exact within_addSamples row hstart
        · cases hnext
      · obtain rfl := Option.some.inj hnext
        intro sum hsum
        have hkept := hstart sum hsum
        unfold Within at hkept ⊢
        omega
    intro sum hsum
    have hlater := ih hmoved hrest sum hsum
    unfold Within at hlater ⊢
    rw [List.length_cons]
    omega

/-- The sums of a tick fit `i32`: the room with a bridged one, and what is heard of it without a
talker's own voice and with a whisper. -/
theorem sums_within_i32 (mixer : Mixer participants samples) {inputs : MixInputs}
    {active : BitVec 64} {room : List ℤ} (hcount : inputs.participantCount ≤ participants)
    (hroom : (List.range inputs.participantCount).foldlM (addRow inputs active)
      (List.replicate inputs.frameLen 0) = some room) (external : List Int16)
    (own whisper : Int16) :
    ∀ sum ∈ addSamples room external,
      Within (2 ^ 31 - 1) sum ∧ Within (2 ^ 31 - 1) (sum - own.toInt) ∧
        Within (2 ^ 31 - 1) (sum + whisper.toInt) ∧
        Within (2 ^ 31 - 1) (sum - own.toInt + whisper.toInt) := by
  intro sum hsum
  have hzero : ∀ sum ∈ List.replicate inputs.frameLen (0 : ℤ), Within 0 sum := by
    intro sum hsum
    rw [List.eq_of_mem_replicate hsum]
    exact ⟨Int.le_refl 0, Int.le_refl 0⟩
  have hbound := within_addSamples external (within_addRow hzero hroom) sum hsum
  have hown := within_toInt own
  have hwhisper := within_toInt whisper
  have hparticipants : inputs.participantCount ≤ 64 :=
    Nat.le_trans hcount mixer.participants_le
  rw [List.length_range] at hbound
  unfold Within at *
  omega

end Mixer

end SiphonRtp.Media
