import SiphonRtp.Engine.KeyPresses

/-!
# One encode for many listeners

The egress pass of `Conference::tick` with `shared_encode` and `ensure_listener_native`, from
`siphon-rtp-engine/src/conference.rs`. The encoder of a seat is what it makes of a frame in this
tick, and a resampler is a function of a frame for each rate it leads to, where one can be built.
A seat that does not share encodes on its own and touches none of what is shared.

The payloads are kept by payload type. A seat is served what the first seat of its payload type to
encode made of the listener mix (`served_eq`), whatever codec and rate that seat has.
-/

set_option autoImplicit false

namespace SiphonRtp.Engine.SharedEncode

open Machine Datapath KeyPresses

/-! ### Rates and frames -/

/-- PCM samples, by their sixteen bits. -/
abbrev Frame := List (BitVec 16)

def roomRateTiers : List ℕ := [8000, 16000, 48000]

def roomTickMs : ℕ := 20

def roomFrameFor (rate : ℕ) : ℕ := rate / 1000 * roomTickMs

/-- A frame of a length, cut or filled up with silence. -/
def fillPadded (length : ℕ) (source : Frame) : Frame :=
  source.take length ++ List.replicate (length - source.length) 0

/-- The tier of a rate below the room's. -/
def sharedDownsampleTier (rate roomRate : ℕ) : Option ℕ :=
  if roomRate ≤ rate then none
  else (roomRateTiers.findIdx? (· = rate)).filter fun index ↦ index + 1 < roomRateTiers.length

/-- What the pass reads of a seat. -/
structure Participant where
  egressDst : SocketAddr
  egressPayloadType : UInt8
  nativeRate : ℕ
  nativeFrame : ℕ
  stateless : Bool
  silenced : Bool
  shapesEgress : Bool
  encode : Frame → Option Bytes

def Participant.tickSamples (seat : Participant) : ℕ := seat.nativeRate / 1000 * roomTickMs

/-- A room in a tick: its rate, the resamplers from it and what the mixer made. -/
structure Conference where
  roomRate : ℕ
  resampler : ℕ → Option (Frame → Frame)
  listenerMix : Frame
  hasDistinctOutput : ℕ → Bool
  participants : List Participant
  /-- The mixer's frames are a tick long. -/
  length_mix : listenerMix.length = roomFrameFor roomRate

namespace Conference

variable (room : Conference)

/-- `build_listener_downsamplers`. -/
def listenerDownsample (tier : ℕ) : Option (Frame → Frame) :=
  if tier + 1 < roomRateTiers.length ∧ roomRateTiers.getD tier 0 < room.roomRate then
    room.resampler (roomRateTiers.getD tier 0)
  else none

/-- Whether a seat is served from the shared encode. -/
def shareable (index : ℕ) (seat : Participant) : Bool :=
  destinationUsable seat.egressDst && !seat.silenced && !seat.shapesEgress &&
    !room.hasDistinctOutput index && seat.stateless &&
    decide (seat.nativeFrame = seat.tickSamples) &&
    (decide (seat.nativeRate = room.roomRate) ||
      (sharedDownsampleTier seat.nativeRate room.roomRate).isSome)

end Conference

/-- What a tick has shared so far: the payloads by payload type and the mix at the lower tiers. -/
structure Shared where
  classes : List (UInt8 × Bytes)
  listenerNative : ℕ → Option Frame

namespace Conference

variable (room : Conference)

def ensureListenerNative (tier : ℕ) (shared : Shared) : Shared :=
  if (shared.listenerNative tier).isSome then shared
  else
    { shared with
      listenerNative := fun other ↦
        if other = tier then
          (room.listenerDownsample tier).map fun resample ↦
            fillPadded (roomFrameFor (roomRateTiers.getD tier 0)) (resample room.listenerMix)
        else shared.listenerNative other }

/-- The frame a seat that finds no payload encodes. -/
def stage (seat : Participant) (shared : Shared) : Option Frame × Shared :=
  if seat.nativeRate = room.roomRate then (some room.listenerMix, shared)
  else
    match sharedDownsampleTier seat.nativeRate room.roomRate with
    | none => (none, shared)
    | some tier =>
      let shared := room.ensureListenerNative tier shared
      ((shared.listenerNative tier).map (List.take seat.tickSamples), shared)

def sharedEncode (seat : Participant) (shared : Shared) : Option Bytes × Shared :=
  match shared.classes.find? (·.1 = seat.egressPayloadType) with
  | some found => (some found.2, shared)
  | none =>
    let (staged, shared) := room.stage seat shared
    match staged.bind seat.encode with
    | none => (none, shared)
    | some payload =>
      (some payload,
        { shared with classes := shared.classes ++ [(seat.egressPayloadType, payload)] })

/-- The payload each seat is served from the shared encode, from a seat on. -/
def egressPass : ℕ → List Participant → Shared → List (Option Bytes)
  | _, [], _ => []
  | index, seat :: rest, shared =>
    if room.shareable index seat then
      let (payload, shared) := room.sharedEncode seat shared
      payload :: egressPass (index + 1) rest shared
    else none :: egressPass (index + 1) rest shared

/-- The payload each seat is served from the shared encode in the tick. -/
def served : List (Option Bytes) := room.egressPass 0 room.participants ⟨[], fun _ ↦ none⟩

/-! ### What a seat would encode itself -/

/-- The listener mix at the rate of a seat, as a seat that does not share has it. -/
def nativeMix (seat : Participant) : Option Frame :=
  if seat.nativeRate = room.roomRate then some (fillPadded seat.tickSamples room.listenerMix)
  else (room.resampler seat.nativeRate).map fun resample ↦
    fillPadded seat.tickSamples (resample room.listenerMix)

def own (seat : Participant) : Option Bytes := (room.nativeMix seat).bind seat.encode

/-- What a seat adds to a payload type. -/
def offer (payloadType : UInt8) (index : ℕ) (seat : Participant) : Option Bytes :=
  if room.shareable index seat ∧ seat.egressPayloadType = payloadType then room.own seat else none

/-- What the first of the first seats to encode for a payload type makes. -/
def leading (payloadType : UInt8) : ℕ → Option Bytes
  | 0 => none
  | count + 1 =>
    (leading payloadType count).or
      ((room.participants[count]?).bind (room.offer payloadType count))

/-- The state of what is shared after so many seats. -/
structure Tracks (count : ℕ) (shared : Shared) : Prop where
  classes : ∀ payloadType,
    (shared.classes.find? (·.1 = payloadType)).map Prod.snd = room.leading payloadType count
  native : ∀ tier frame, shared.listenerNative tier = some frame →
    (room.listenerDownsample tier).map (fun resample ↦
      fillPadded (roomFrameFor (roomRateTiers.getD tier 0)) (resample room.listenerMix)) =
        some frame

end Conference

theorem fillPadded_self {length : ℕ} {frame : Frame} (hlength : frame.length = length) :
    fillPadded length frame = frame := by
  simp [fillPadded, ← hlength]

theorem length_fillPadded (length : ℕ) (frame : Frame) :
    (fillPadded length frame).length = length := by
  simp [fillPadded]
  omega

/-- A tier that is shared is that of the rate, and has a downsampler where the rate has one. -/
theorem sharedDownsampleTier_eq_some {rate roomRate tier : ℕ}
    (htier : sharedDownsampleTier rate roomRate = some tier) :
    roomRateTiers.getD tier 0 = rate ∧ rate < roomRate ∧ tier + 1 < roomRateTiers.length := by
  unfold sharedDownsampleTier at htier
  split at htier
  · cases htier
  · obtain ⟨hfound, hbelow⟩ := Option.filter_eq_some_iff.mp htier
    obtain ⟨hbound, hrate, -⟩ := List.findIdx?_eq_some_iff_getElem.mp hfound
    refine ⟨?_, by omega, of_decide_eq_true hbelow⟩
    rw [List.getD_eq_getElem?_getD, List.getElem?_eq_getElem hbound]
    exact of_decide_eq_true hrate

namespace Conference

variable {room : Conference} {seat : Participant} {shared : Shared} {count : ℕ}

theorem Tracks.ensure (htracks : room.Tracks count shared) (tier : ℕ) :
    room.Tracks count (room.ensureListenerNative tier shared) ∧
      (room.ensureListenerNative tier shared).listenerNative tier =
        (room.listenerDownsample tier).map fun resample ↦
          fillPadded (roomFrameFor (roomRateTiers.getD tier 0)) (resample room.listenerMix) := by
  unfold ensureListenerNative
  split
  · rename_i hready
    obtain ⟨frame, hframe⟩ := Option.isSome_iff_exists.mp hready
    exact ⟨htracks, hframe.trans (htracks.native tier frame hframe).symm⟩
  · refine ⟨⟨htracks.classes, ?_⟩, by simp⟩
    intro other frame hframe
    dsimp only at hframe
    split at hframe
    · rename_i hother
      rw [hother]
      exact hframe
    · exact htracks.native other frame hframe

/-- What is staged for a seat is the listener mix at its rate. -/
theorem Tracks.stage (htracks : room.Tracks count shared) {index : ℕ}
    (hshareable : room.shareable index seat = true) :
    (room.stage seat shared).1 = room.nativeMix seat ∧
      room.Tracks count (room.stage seat shared).2 := by
  unfold Conference.stage nativeMix
  split
  · rename_i hrate
    refine ⟨?_, htracks⟩
    rw [fillPadded_self]
    rw [room.length_mix, Participant.tickSamples, hrate]
    rfl
  · rename_i hrate
    have hsome : (sharedDownsampleTier seat.nativeRate room.roomRate).isSome = true := by
      simp only [shareable, hrate, decide_false, Bool.and_eq_true] at hshareable
      exact hshareable.2
    obtain ⟨tier, htier⟩ := Option.isSome_iff_exists.mp hsome
    obtain ⟨hnative, hbelow, hinside⟩ := sharedDownsampleTier_eq_some htier
    obtain ⟨hkept, hready⟩ := htracks.ensure tier
    have hdown : room.listenerDownsample tier = room.resampler seat.nativeRate := by
      rw [listenerDownsample, hnative, if_pos ⟨hinside, hbelow⟩]
    rw [hnative] at hready
    simp only [htier, hready, Option.map_map]
    refine ⟨?_, hkept⟩
    congr 1
    funext resample
    exact List.take_of_length_le (length_fillPadded _ _).le

theorem Tracks.skip (htracks : room.Tracks count shared)
    (hseat : room.participants[count]? = some seat)
    (hshareable : room.shareable count seat = false) : room.Tracks (count + 1) shared := by
  refine ⟨fun payloadType ↦ ?_, htracks.native⟩
  simp [htracks.classes, leading, hseat, offer, hshareable]

/-- A seat that shares is served what leads its payload type, itself included. -/
theorem Tracks.share (htracks : room.Tracks count shared)
    (hseat : room.participants[count]? = some seat)
    (hshareable : room.shareable count seat = true) :
    (room.sharedEncode seat shared).1 = room.leading seat.egressPayloadType (count + 1) ∧
      room.Tracks (count + 1) (room.sharedEncode seat shared).2 := by
  have hoffer (payloadType : UInt8) : room.offer payloadType count seat =
      if seat.egressPayloadType = payloadType then room.own seat else none := by
    simp [offer, hshareable]
  have hleading (payloadType : UInt8) : room.leading payloadType (count + 1) =
      (room.leading payloadType count).or
        (if seat.egressPayloadType = payloadType then room.own seat else none) := by
    simp [leading, hseat, hoffer]
  have hclass := htracks.classes seat.egressPayloadType
  rcases hfind : shared.classes.find? (·.1 = seat.egressPayloadType) with _ | found
  · rw [hfind] at hclass
    obtain ⟨hstaged, hkept⟩ := htracks.stage hshareable
    rcases hown : room.own seat with _ | payload
    · have hencode : (room.stage seat shared).1.bind seat.encode = none := by
        rw [hstaged]
        exact hown
      simp only [sharedEncode, hfind, hencode]
      refine ⟨by simp [hleading, ← hclass, hown], fun payloadType ↦ ?_, hkept.native⟩
      simp [hkept.classes, hleading, hown]
    · have hencode : (room.stage seat shared).1.bind seat.encode = some payload := by
        rw [hstaged]
        exact hown
      simp only [sharedEncode, hfind, hencode]
      refine ⟨by simp [hleading, ← hclass, hown], fun payloadType ↦ ?_, hkept.native⟩
      have hbefore := hkept.classes payloadType
      rw [hleading, ← hbefore, List.find?_append]
      by_cases hsame : seat.egressPayloadType = payloadType
      · cases hfound : (room.stage seat shared).2.classes.find? (·.1 = payloadType) <;>
          simp [hown]
      · cases hfound : (room.stage seat shared).2.classes.find? (·.1 = payloadType) <;>
          simp [hsame]
  · rw [hfind] at hclass
    simp only [sharedEncode, hfind]
    refine ⟨by simp [hleading, ← hclass], fun payloadType ↦ ?_, htracks.native⟩
    rw [hleading, htracks.classes]
    by_cases hsame : seat.egressPayloadType = payloadType
    · simp [← hsame, ← hclass]
    · simp [hsame]

/-- The pass serves each seat that shares what leads its payload type up to it. -/
theorem egressPass_eq {index : ℕ} (htracks : room.Tracks count shared)
    (hindex : room.participants[count + index]? = some seat) :
    (room.egressPass count (room.participants.drop count) shared)[index]? =
      some (if room.shareable (count + index) seat then
        room.leading seat.egressPayloadType (count + index + 1) else none) := by
  have hbound : count < room.participants.length := by
    have := (List.getElem?_eq_some_iff.mp hindex).1
    omega
  have hfirst : room.participants[count]? = some room.participants[count] :=
    List.getElem?_eq_getElem hbound
  rw [List.drop_eq_getElem_cons hbound, egressPass]
  induction index generalizing count shared with
  | zero =>
    obtain rfl : room.participants[count] = seat := Option.some.inj (hfirst.symm.trans hindex)
    rcases hshareable : room.shareable count room.participants[count] with _ | _
    · simp
    · simp [(htracks.share hfirst hshareable).1]
  | succ index ih =>
    have hnext : room.participants[count + 1 + index]? = some seat := by
      rw [← hindex]
      congr 1
      omega
    have hbound' : count + 1 < room.participants.length := by
      have := (List.getElem?_eq_some_iff.mp hnext).1
      omega
    have hrest (later : Shared) (hlater : room.Tracks (count + 1) later) :
        (room.egressPass (count + 1) (room.participants.drop (count + 1)) later)[index]? =
          some (if room.shareable (count + 1 + index) seat then
            room.leading seat.egressPayloadType (count + 1 + index + 1) else none) := by
      rw [List.drop_eq_getElem_cons hbound', egressPass]
      exact ih hlater hnext hbound' (List.getElem?_eq_getElem hbound')
    rw [show count + (index + 1) = count + 1 + index by omega]
    rcases hshareable : room.shareable count room.participants[count] with _ | _
    · simpa [hshareable] using hrest shared (htracks.skip hfirst hshareable)
    · simpa [hshareable] using hrest _ (htracks.share hfirst hshareable).2

theorem served_eq {index : ℕ} (hseat : room.participants[index]? = some seat) :
    room.served[index]? = some (if room.shareable index seat then
      room.leading seat.egressPayloadType (index + 1) else none) := by
  have hstart : room.Tracks 0 ⟨[], fun _ ↦ none⟩ := by
    exact ⟨fun _ ↦ rfl, by simp⟩
  have hindex : room.participants[0 + index]? = some seat := by simpa using hseat
  simpa [served] using egressPass_eq hstart hindex

/-- What leads a payload type is what one of its seats encodes. -/
theorem exists_of_leading {payloadType : UInt8} {payload : Bytes}
    (hleading : room.leading payloadType count = some payload) :
    ∃ index seat, index < count ∧ room.participants[index]? = some seat ∧
      room.shareable index seat = true ∧ seat.egressPayloadType = payloadType ∧
      room.own seat = some payload := by
  induction count with
  | zero => cases hleading
  | succ count ih =>
    rcases hbefore : room.leading payloadType count with _ | before
    · simp only [leading, hbefore] at hleading
      obtain ⟨seat, hseat, hoffer⟩ := Option.bind_eq_some_iff.mp hleading
      unfold offer at hoffer
      split at hoffer
      · rename_i hshares
        exact ⟨count, seat, Nat.lt_succ_self count, hseat, hshares.1, hshares.2, hoffer⟩
      · cases hoffer
    · simp only [leading, hbefore] at hleading
      obtain ⟨index, seat, hlt, hrest⟩ := ih (hbefore.trans hleading)
      exact ⟨index, seat, Nat.lt_succ_of_lt hlt, hrest⟩

/-- A seat that encodes leaves a leader, which later seats do not change. -/
theorem leading_of_own {index : ℕ} (hseat : room.participants[index]? = some seat)
    (hshareable : room.shareable index seat = true) (hown : room.own seat ≠ none)
    (hlt : index < count) :
    ∃ payload, room.leading seat.egressPayloadType (index + 1) = some payload ∧
      room.leading seat.egressPayloadType count = some payload := by
  induction count with
  | zero => omega
  | succ count ih =>
    rcases Nat.lt_succ_iff_lt_or_eq.mp hlt with hbefore | rfl
    · obtain ⟨payload, hfirst, hcount⟩ := ih hbefore
      exact ⟨payload, hfirst, by simp [leading, hcount]⟩
    · obtain ⟨payload, hpayload⟩ := Option.ne_none_iff_exists'.mp hown
      have hsome : (room.leading seat.egressPayloadType (index + 1)).isSome := by
        simp [leading, hseat, offer, hshareable, hpayload]
      obtain ⟨leader, hleader⟩ := Option.isSome_iff_exists.mp hsome
      exact ⟨leader, hleader, hleader⟩

/-- When sharing an encode is invisible. In every room each seat that is served gets the payload it
would have encoded for itself, if and only if no two seats that share and have one payload type
would encode the listener mix differently. -/
theorem sharing_invisible_iff (room : Conference) :
    (∀ (index : ℕ) seat payload, room.participants[index]? = some seat →
        room.served[index]? = some (some payload) → room.own seat = some payload) ↔
      ∀ (i j : ℕ) first second, i < j → room.participants[i]? = some first →
        room.participants[j]? = some second → room.shareable i first = true →
        room.shareable j second = true → first.egressPayloadType = second.egressPayloadType →
        room.own first ≠ none → room.own second = room.own first := by
  constructor
  · intro hexact i j first second hij hfirst hsecond hshares hshares' htype hown
    obtain ⟨payload, hled, hlater⟩ := leading_of_own hfirst hshares hown (Nat.lt_succ_of_lt hij)
    have hi := hexact i first payload hfirst (by rw [served_eq hfirst, if_pos hshares, hled])
    have hj := hexact j second payload hsecond
      (by rw [served_eq hsecond, if_pos hshares', ← htype, hlater])
    rw [hi, hj]
  · intro halike index seat payload hseat hserved
    rw [served_eq hseat] at hserved
    split at hserved
    · rename_i hshares
      obtain ⟨first, leader, hlt, hleader, hleads, htype, hown⟩ :=
        exists_of_leading (Option.some.inj hserved)
      rcases Nat.lt_succ_iff_lt_or_eq.mp hlt with hbefore | rfl
      · rw [halike first index leader seat hbefore hleader hseat hleads hshares htype
          (by simp [hown]), hown]
      · obtain rfl : leader = seat := Option.some.inj (hleader.symm.trans hseat)
        exact hown
    · cases Option.some.inj hserved

end Conference

/-! ### One payload type for two rates -/

/-- `L16::encode`: the samples in network order, into the room's buffer. -/
def encodeL16 (frame : Frame) : Option Bytes :=
  if maxRtp < frame.length * 2 then none
  else some (frame.flatMap fun sample ↦
    [UInt8.ofNat (sample.toNat / 256), UInt8.ofNat sample.toNat])

/-- A listener on L16 at a rate, with payload type 96. -/
def l16Seat (rate : ℕ) : Participant where
  egressDst := .v4 0x0A000001 4000
  egressPayloadType := 96
  nativeRate := rate
  nativeFrame := roomFrameFor rate
  stateless := true
  silenced := false
  shapesEgress := false
  encode := encodeL16

/-- A silent wideband room of two listeners, one of them narrowband. -/
def l16Room : Conference where
  roomRate := 16000
  resampler := fun rate ↦ some fun _ ↦ List.replicate (roomFrameFor rate) 0
  listenerMix := List.replicate 320 0
  hasDistinctOutput := fun _ ↦ false
  participants := [l16Seat 16000, l16Seat 8000]
  length_mix := List.length_replicate

/-- The narrowband listener is served the twice as long payload of the wideband one. -/
theorem narrowband_served_wideband :
    ∃ payload, l16Room.served[1]? = some (some payload) ∧
      l16Room.own (l16Seat 8000) ≠ some payload :=
  ⟨List.replicate 640 0, by decide +kernel, by decide +kernel⟩

end SiphonRtp.Engine.SharedEncode
