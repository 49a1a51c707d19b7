import SiphonRtp.Machine.BitPacking
import SiphonRtp.Machine.Runs

/-!
# The ADPCM codec of ITU-T G.726

`siphon-rtp-codec/src/g726.rs`. A sample becomes a codeword of two to five bits: the difference from
a prediction, quantised in steps of an adaptive size. Both sides reconstruct the sample from the
codeword alone and adapt predictor and step size with it, so they hold the same state as long as the
decoder reads the codewords the encoder wrote (`decodeSample_encodeSample`), which least significant
bit first packing gives it for payloads of whole octets.

The 16-bit stores truncate (`toI16`); the 32-bit intermediates are integers, a right shift is a
division that rounds down and a mask of low bits is a remainder. The bounds of the state
(`InRange`) hold for every codeword stream, because `update` limits each coefficient where it is
stored.
-/

set_option autoImplicit false

namespace SiphonRtp.Codec.G726

open SiphonRtp.Machine SiphonRtp.Machine.BitPacking

/-! ### Rates and their tables -/

inductive Rate
  | r16
  | r24
  | r32
  | r40
deriving DecidableEq, Repr

namespace Rate

def codewordBits : Rate → ℕ
  | r16 => 2
  | r24 => 3
  | r32 => 4
  | r40 => 5

def quantizerStates : Rate → ℕ
  | r16 => 4
  | r24 => 7
  | r32 => 15
  | r40 => 31

def signBit (rate : Rate) : ℕ := 1 <<< (rate.codewordBits - 1)

def reconstructMask : Rate → ℤ
  | r40 => 0x7FFF
  | _ => 0x3FFF

def qtab : Rate → List ℤ
  | r16 => [261]
  | r24 => [8, 218, 331]
  | r32 => [-124, 80, 178, 246, 300, 349, 400]
  | r40 => [-122, -16, 68, 139, 198, 250, 298, 339, 378, 413, 445, 475, 502, 528, 553]

def dqlntab : Rate → List ℤ
  | r16 => [116, 365, 365, 116]
  | r24 => [-2048, 135, 273, 373, 373, 273, 135, -2048]
  | r32 => [-2048, 4, 135, 213, 273, 323, 373, 425, 425, 373, 323, 273, 213, 135, 4, -2048]
  | r40 => [-2048, -66, 28, 104, 169, 224, 274, 318, 358, 395, 429, 459, 488, 514, 539, 566, 566,
      539, 514, 488, 459, 429, 395, 358, 318, 274, 224, 169, 104, 28, -66, -2048]

def witab : Rate → List ℤ
  | r16 => [-704, 14048, 14048, -704]
  | r24 => [-128, 960, 4384, 18624, 18624, 4384, 960, -128]
  | r32 => [-384, 576, 1312, 2048, 3584, 6336, 11360, 35904, 35904, 11360, 6336, 3584, 2048, 1312,
      576, -384]
  | r40 => [448, 448, 768, 1248, 1280, 1312, 1856, 3200, 4512, 5728, 7008, 8960, 11456, 14080,
      16928, 22272, 22272, 16928, 14080, 11456, 8960, 7008, 5728, 4512, 3200, 1856, 1312, 1280,
      1248, 768, 448, 448]

def fitab : Rate → List ℤ
  | r16 => [0x000, 0xE00, 0xE00, 0x000]
  | r24 => [0x000, 0x200, 0x400, 0xE00, 0xE00, 0x400, 0x200, 0x000]
  | r32 => [0x000, 0x000, 0x000, 0x200, 0x200, 0x200, 0x600, 0xE00, 0xE00, 0x600, 0x200, 0x200,
      0x200, 0x000, 0x000, 0x000]
  | r40 => [0x000, 0x000, 0x000, 0x000, 0x000, 0x200, 0x200, 0x200, 0x200, 0x200, 0x400, 0x600,
      0x800, 0xA00, 0xC00, 0xC00, 0xC00, 0xC00, 0xA00, 0x800, 0x600, 0x400, 0x200, 0x200, 0x200,
      0x200, 0x200, 0x000, 0x000, 0x000, 0x000, 0x000]

end Rate

/-! ### Arithmetic -/

/-- `as i16`. -/
def toI16 (value : ℤ) : ℤ := Int.bmod value (2 ^ 16)

/-- The index of the highest bit set in `bits as u32`, `-1` for zero. -/
def topBit (bits : ℤ) : ℤ :=
  if bits % 2 ^ 32 = 0 then -1 else Nat.log2 (bits % 2 ^ 32).toNat

/-- A product with a number in floating format: four bits of exponent, six of mantissa. -/
def fmult (an srn : ℤ) : ℤ :=
  let anmag := if 0 < an then an else -an % 0x2000
  let anexp := topBit anmag - 5
  let anmant :=
    if anmag = 0 then 32
    else if 0 ≤ anexp then anmag / 2 ^ anexp.toNat
    else anmag * 2 ^ (-anexp).toNat
  let wanexp := anexp + srn / 2 ^ 6 % 16 - 13
  let wanmant := (anmant * (srn % 64) + 0x30) / 2 ^ 4
  let retval :=
    if 0 ≤ wanexp then wanmant * 2 ^ wanexp.toNat % 0x8000 else wanmant / 2 ^ (-wanexp).toNat
  toI16 (if (an < 0) ≠ (srn < 0) then -retval else retval)

/-- How many thresholds the loop of `quantize` passes. -/
def passed (dln : ℤ) : List ℤ → ℕ
  | [] => 0
  | threshold :: rest => if dln < threshold then 0 else passed dln rest + 1

/-- The codeword of a difference at step size `y`. -/
def quantize (d y : ℤ) (table : List ℤ) (quantizerStates : ℕ) : ℕ :=
  let dqm := toI16 |d|
  let exp := topBit (dqm / 2) + 1
  let mant := dqm * 2 ^ 7 / 2 ^ exp.toNat % 128
  let dl := exp * 2 ^ 7 + mant
  let dln := dl - y / 2 ^ 2
  let size := (quantizerStates - 1) / 2
  let i := passed dln (table.take size)
  if d < 0 then size * 2 + 1 - i
  else if i = 0 ∧ quantizerStates % 2 ≠ 0 then quantizerStates
  else i

/-- Sign extension from bit 14. -/
def signalEstimate15bit (value : ℤ) : ℤ := Int.bmod value (2 ^ 15)

/-- The quantised difference a codeword stands for. -/
def reconstruct (sign : ℕ) (dqln y : ℤ) : ℤ :=
  let dql := dqln + y / 2 ^ 2
  if dql < 0 then if sign ≠ 0 then -0x8000 else 0
  else
    let dex := dql / 2 ^ 7 % 16
    let dqt := 128 + dql % 128
    let dq := dqt * 2 ^ 7 / 2 ^ (14 - dex).toNat
    toI16 (if sign ≠ 0 then dq - 0x8000 else dq)

/-- The floating format of a magnitude. -/
def floatFormat (mag : ℤ) : ℤ :=
  let exp := topBit mag + 1
  exp * 2 ^ 6 + mag * 2 ^ 6 / 2 ^ exp.toNat

/-! ### The adaptive state -/

structure State where
  yl : ℤ
  yu : ℤ
  dms : ℤ
  dml : ℤ
  ap : ℤ
  a : ℤ × ℤ
  b : List ℤ
  pk : ℤ × ℤ
  dq : List ℤ
  sr : ℤ × ℤ
  td : Bool
deriving DecidableEq, Repr

namespace State

def new : State :=
  { yl := 34816, yu := 544, dms := 0, dml := 0, ap := 0, a := (0, 0), b := [0, 0, 0, 0, 0, 0],
    pk := (0, 0), dq := [32, 32, 32, 32, 32, 32], sr := (32, 32), td := false }

def predictorZero (state : State) : ℤ :=
  toI16 ((state.b.zip state.dq).foldl (fun sezi tap ↦ sezi + fmult (tap.1 / 2 ^ 2) tap.2) 0)

def predictorPole (state : State) : ℤ :=
  toI16 (fmult (state.a.2 / 2 ^ 2) state.sr.2 + fmult (state.a.1 / 2 ^ 2) state.sr.1)

def stepSize (state : State) : ℤ :=
  if 256 ≤ state.ap then state.yu
  else
    let y := state.yl / 2 ^ 6
    let dif := state.yu - y
    let al := state.ap / 2 ^ 2
    if 0 < dif then y + dif * al / 2 ^ 6
    else if dif < 0 then y + (dif * al + 0x3F) / 2 ^ 6
    else y

/-- The transition detector, `TRANS`. -/
def trans (state : State) (mag : ℤ) : Bool :=
  let ylint := state.yl / 2 ^ 15
  let ylfrac := state.yl / 2 ^ 10 % 32
  let thr := if 9 < ylint then 31 * 2 ^ 10 else (32 + ylfrac) * 2 ^ ylint.toNat
  let dqthr := (thr + thr / 2) / 2
  state.td && decide (dqthr < mag)

/-- The limiter of the second pole coefficient, `LIMC`. -/
def limc (signsDiffer : Prop) [Decidable signsDiffer] (a2p : ℤ) : ℤ :=
  if signsDiffer then
    if a2p ≤ -12160 then -12288 else if 12416 ≤ a2p then 12288 else a2p - 0x80
  else if a2p ≤ -12416 then -12288
  else if 12160 ≤ a2p then 12288
  else a2p + 0x80

/-- The second pole coefficient, `UPA2`. -/
def upa2 (state : State) (pk0 dqsez : ℤ) : ℤ :=
  let a2p := state.a.2 - state.a.2 / 2 ^ 7
  if dqsez ≠ 0 then
    let fa1 := if pk0 ≠ state.pk.1 then state.a.1 else -state.a.1
    let a2p :=
      if fa1 < -8191 then a2p - 0x100
      else if 8191 < fa1 then a2p + 0xFF
      else a2p + fa1 / 2 ^ 5
    limc (pk0 ≠ state.pk.2) a2p
  else a2p

/-- The first pole coefficient, `UPA1`, within the bounds `LIMD` that the second one sets. -/
def upa1 (state : State) (pk0 dqsez a2p : ℤ) : ℤ :=
  let a1 := state.a.1 - state.a.1 / 2 ^ 8
  let a1 :=
    if dqsez ≠ 0 then if pk0 = state.pk.1 then a1 + 192 else a1 - 192 else a1
  let a1ul := 15360 - a2p
  max (-a1ul) (min a1 a1ul)

/-- The zero coefficients, `UPB`. -/
def upb (state : State) (dq mag : ℤ) (bitsPerSample : ℕ) : List ℤ :=
  let leakShift := if bitsPerSample = 5 then 9 else 8
  List.zipWith (fun coeff diff =>
    let bi := coeff - coeff / 2 ^ leakShift
    toI16 (if mag ≠ 0 then if (dq < 0) = (diff < 0) then bi + 128 else bi - 128 else bi))
    state.b state.dq

def update (state : State) (y wi fi dq sr dqsez : ℤ) (bitsPerSample : ℕ) : State :=
  let pk0 : ℤ := if dqsez < 0 then 1 else 0
  let mag := dq % 0x8000
  let tr := state.trans mag
  let yu := max 544 (min (y + (wi - y) / 2 ^ 5) 5120)
  let a2p := if tr then 0 else state.upa2 pk0 dqsez
  let td := !tr && decide (a2p < -11776)
  let dms := toI16 (state.dms + (fi - state.dms) / 2 ^ 5)
  let dml := toI16 (state.dml + (fi * 2 ^ 2 - state.dml) / 2 ^ 7)
  { yl := state.yl + (yu + -state.yl / 2 ^ 6)
    yu := toI16 yu
    dms := dms
    dml := dml
    ap :=
      if tr then 256
      else if y < 1536 ∨ td = true ∨ dml / 2 ^ 3 ≤ |dms * 2 ^ 2 - dml| then
        toI16 (state.ap + (0x200 - state.ap) / 2 ^ 4)
      else toI16 (state.ap + -state.ap / 2 ^ 4)
    a := if tr then (0, 0) else (toI16 (state.upa1 pk0 dqsez a2p), toI16 a2p)
    b := if tr then [0, 0, 0, 0, 0, 0] else state.upb dq mag bitsPerSample
    pk := (toI16 pk0, state.pk.1)
    dq :=
      (if mag = 0 then if 0 ≤ dq then 0x20 else toI16 0xFC20
        else toI16 (if 0 ≤ dq then floatFormat mag else floatFormat mag - 0x400)) ::
      state.dq.take 5
    sr :=
      (if sr = 0 then 0x20
        else if 0 < sr then toI16 (floatFormat sr)
        else if -32768 < sr then toI16 (floatFormat (-sr) - 0x400)
        else toI16 0xFC20, state.sr.1)
    td := td }

end State

/-! ### One sample -/

/-- A 16-bit linear sample becomes its codeword. -/
def encodeSample (rate : Rate) (state : State) (sample : Int16) : ℕ × State :=
  let amp := sample.toInt / 2 ^ 2
  let sezi := state.predictorZero
  let se := signalEstimate15bit ((sezi + state.predictorPole) / 2)
  let d := amp - se
  let y := state.stepSize
  let code := quantize d y rate.qtab rate.quantizerStates
  let dq := reconstruct (code &&& rate.signBit) (rate.dqlntab.getD code 0) y
  let sr := toI16 (if dq < 0 then se - dq % (rate.reconstructMask + 1) else se + dq)
  let dqsez := toI16 (sr + sezi / 2 - se)
  (code, state.update y (rate.witab.getD code 0) (rate.fitab.getD code 0) dq sr dqsez
    rate.codewordBits)

/-- The reconstructed sample with the estimate and the step size it was formed with. -/
def decodeCore (rate : Rate) (state : State) (code : ℕ) : (ℤ × ℤ × ℤ) × State :=
  let sezi := state.predictorZero
  let sei := sezi + state.predictorPole
  let y := state.stepSize
  let dq := reconstruct (code &&& rate.signBit) (rate.dqlntab.getD code 0) y
  let se := signalEstimate15bit (sei / 2)
  let sr := toI16 (if dq < 0 then se - dq % (rate.reconstructMask + 1) else se + dq)
  let dqsez := toI16 (sr + sezi / 2 - se)
  ((sr, se, y), state.update y (rate.witab.getD code 0) (rate.fitab.getD code 0) dq sr dqsez
    rate.codewordBits)

/-- A codeword becomes a 16-bit linear sample. -/
def decodeSample (rate : Rate) (state : State) (code : ℕ) : Int16 × State :=
  let core := decodeCore rate state code
  (Int16.ofInt (core.1.1 * 2 ^ 2), core.2)

/-! ### Payloads -/

inductive Failure
  | outputTooSmall (needed have' : ℕ)
  /-- An index past the end of the payload. -/
  | indexOutOfRange
deriving DecidableEq, Repr

/-- The payload of the samples, in a buffer of `room` octets. -/
def encode (rate : Rate) (state : State) (pcm : List Int16) (room : ℕ) :
    Except Failure (List UInt8 × State) :=
  let bytes := (pcm.length * rate.codewordBits + 7) / 8
  if room < bytes then .error (.outputTooSmall bytes room)
  else .ok (pack rate.codewordBits (outputs (encodeSample rate) state pcm),
    final (encodeSample rate) state pcm)

/-- The samples of a payload, in a buffer of `room` samples. -/
def decode (rate : Rate) (state : State) (payload : List UInt8) (room : ℕ) :
    Except Failure (List Int16 × State) :=
  let samples := payload.length * 8 / rate.codewordBits
  if room < samples then .error (.outputTooSmall samples room)
  else
    match unpack rate.codewordBits payload with
    | some codes =>
      .ok (outputs (decodeSample rate) state codes, final (decodeSample rate) state codes)
    | none => .error .indexOutOfRange

/-- An encoder and a decoder, the decoder fed the payload of each packet of samples. -/
def exchange (rate : Rate) (room : ℕ) :
    State → State → List (List Int16) → Except Failure (List (List Int16) × State × State)
  | encoder, decoder, [] => .ok ([], encoder, decoder)
  | encoder, decoder, pcm :: rest => do
    let sent ← encode rate encoder pcm room
    let received ← decode rate decoder sent.1 room
    let later ← exchange rate room sent.2 received.2 rest
    pure (received.1 :: later.1, later.2)

/-! ### Codewords index their tables -/

/-- The tables have an entry for every codeword. -/
theorem lt_length_tables {rate : Rate} {code : ℕ} (hcode : code < 2 ^ rate.codewordBits) :
    code < rate.dqlntab.length ∧ code < rate.witab.length ∧ code < rate.fitab.length := by
  have hlengths : rate.dqlntab.length = 2 ^ rate.codewordBits ∧
      rate.witab.length = 2 ^ rate.codewordBits ∧ rate.fitab.length = 2 ^ rate.codewordBits := by
    cases rate <;> decide
  rw [hlengths.1, hlengths.2.1, hlengths.2.2]
  exact ⟨hcode, hcode, hcode⟩

theorem passed_le_length (dln : ℤ) (table : List ℤ) : passed dln table ≤ table.length := by
  induction table with
  | nil => exact le_rfl
  | cons threshold rest ih =>
    rw [passed]
    split_ifs
    · exact Nat.zero_le _
    · exact Nat.succ_le_succ ih

theorem quantize_lt (rate : Rate) (d y : ℤ) :
    quantize d y rate.qtab rate.quantizerStates < 2 ^ rate.codewordBits := by
  have hstates : (rate.quantizerStates - 1) / 2 * 2 + 1 < 2 ^ rate.codewordBits ∧
      (rate.quantizerStates % 2 ≠ 0 → rate.quantizerStates < 2 ^ rate.codewordBits) := by
    cases rate <;> decide
  have hpassed (dln : ℤ) : passed dln (rate.qtab.take ((rate.quantizerStates - 1) / 2)) ≤
      (rate.quantizerStates - 1) / 2 :=
    (passed_le_length _ _).trans (List.length_take_le _ _)
  unfold quantize
  dsimp only
  split_ifs with hneg hzero
  · omega
  · exact hstates.2 hzero.2
  · exact (hpassed _).trans_lt (by omega)

theorem encodeSample_lt (rate : Rate) (state : State) (sample : Int16) :
    (encodeSample rate state sample).1 < 2 ^ rate.codewordBits :=
  quantize_lt rate _ _

theorem outputs_encodeSample_lt (rate : Rate) (state : State) (pcm : List Int16) :
    ∀ code ∈ outputs (encodeSample rate) state pcm, code < 2 ^ rate.codewordBits := by
  induction pcm generalizing state with
  | nil => simp
  | cons sample rest ih =>
    intro code hcode
    rcases List.mem_cons.mp hcode with rfl | hcode
    · exact encodeSample_lt rate state sample
    · exact ih _ code hcode

/-! ### Lockstep -/

/-- From one state the codeword leads the decoder where it led the encoder. -/
theorem decodeSample_encodeSample (rate : Rate) (state : State) (sample : Int16) :
    (decodeSample rate state (encodeSample rate state sample).1).2 =
      (encodeSample rate state sample).2 := by
  rfl

theorem final_decodeSample_outputs (rate : Rate) (state : State) (pcm : List Int16) :
    final (decodeSample rate) state (outputs (encodeSample rate) state pcm) =
      final (encodeSample rate) state pcm := by
  induction pcm generalizing state with
  | nil => rfl
  | cons sample rest ih =>
    rw [outputs_cons, final_cons, final_cons, decodeSample_encodeSample, ih]

theorem codewordBits_pos (rate : Rate) : 0 < rate.codewordBits := by cases rate <;> decide

theorem codewordBits_le_eight (rate : Rate) : rate.codewordBits ≤ 8 := by cases rate <;> decide

section Packet

variable (rate : Rate) (state : State) {room : ℕ} {pcm : List Int16}

theorem unpack_pack_outputs (hwhole : pcm.length * rate.codewordBits % 8 = 0) :
    unpack rate.codewordBits (pack rate.codewordBits (outputs (encodeSample rate) state pcm)) =
      some (outputs (encodeSample rate) state pcm) :=
  unpack_pack (codewordBits_pos rate) (outputs_encodeSample_lt rate state pcm)
    (by rwa [length_outputs])

theorem encode_of_whole (hwhole : pcm.length * rate.codewordBits % 8 = 0)
    (hroom : pcm.length ≤ room) :
    encode rate state pcm room =
      .ok (pack rate.codewordBits (outputs (encodeSample rate) state pcm),
        final (encodeSample rate) state pcm) := by
  have hoctets : pcm.length * rate.codewordBits ≤ pcm.length * 8 :=
    Nat.mul_le_mul_left _ (codewordBits_le_eight rate)
  rw [encode, if_neg (by omega)]

/-- A decoder in the encoder's state reads the packet's codewords and ends in the encoder's
state. -/
theorem decode_pack (hwhole : pcm.length * rate.codewordBits % 8 = 0) (hroom : pcm.length ≤ room) :
    decode rate state (pack rate.codewordBits (outputs (encodeSample rate) state pcm)) room =
      .ok (outputs (decodeSample rate) state (outputs (encodeSample rate) state pcm),
        final (encodeSample rate) state pcm) := by
  have hoctets :
      (pack rate.codewordBits (outputs (encodeSample rate) state pcm)).length * 8 =
        pcm.length * rate.codewordBits := by
    rw [length_pack (outputs_encodeSample_lt rate state pcm), length_outputs, mul_comm _ pcm.length]
    omega
  have hsamples : ¬ room < pcm.length * rate.codewordBits / rate.codewordBits := by
    rw [Nat.mul_div_cancel _ (codewordBits_pos rate)]
    omega
  rw [decode, hoctets, if_neg hsamples, unpack_pack_outputs rate state hwhole]
  simp only [final_decodeSample_outputs]

end Packet

theorem exchange_lockstep (rate : Rate) {room : ℕ} {packets : List (List Int16)}
    (hwhole : ∀ pcm ∈ packets, pcm.length * rate.codewordBits % 8 = 0)
    (hroom : ∀ pcm ∈ packets, pcm.length ≤ room) (state : State) :
    ∃ received, exchange rate room state state packets =
        .ok (received, final (encodeSample rate) state packets.flatten,
          final (encodeSample rate) state packets.flatten) ∧
      received.map List.length = packets.map List.length := by
  induction packets generalizing state with
  | nil => exact ⟨[], rfl, rfl⟩
  | cons pcm rest ih =>
    have hpcm := hwhole pcm (by simp)
    have hfits := hroom pcm (by simp)
    obtain ⟨received, hexchange, hlengths⟩ := ih (fun p hp ↦ hwhole p (by simp [hp]))
      (fun p hp ↦ hroom p (by simp [hp])) (final (encodeSample rate) state pcm)
    refine ⟨outputs (decodeSample rate) state (outputs (encodeSample rate) state pcm) :: received,
      ?_, by simp [hlengths, length_outputs]⟩
    rw [exchange, encode_of_whole rate state hpcm hfits]
    simp only [bind, Except.bind, decode_pack rate state hpcm hfits, hexchange, pure, Except.pure,
      List.flatten_cons, final_append]

/-! ### The bounds of the state -/

structure InRange (state : State) : Prop where
  yu : 544 ≤ state.yu ∧ state.yu ≤ 5120
  yl : 34816 ≤ state.yl ∧ state.yl ≤ 327680
  a2 : |state.a.2| ≤ 12288
  a1 : |state.a.1| ≤ 15360 - state.a.2

theorem inRange_new : InRange State.new where
  yu := by decide
  yl := by decide
  a2 := by decide
  a1 := by decide

theorem toI16_of_abs_lt {value : ℤ} (hvalue : |value| < 2 ^ 15) : toI16 value = value := by
  rw [abs_lt] at hvalue
  exact Int.bmod_eq_of_le (by omega) (by omega)

theorem abs_limc_le (signsDiffer : Prop) [Decidable signsDiffer] (a2p : ℤ) :
    |State.limc signsDiffer a2p| ≤ 12288 := by
  rw [abs_le]
  unfold State.limc
  split_ifs <;> omega

theorem abs_upa2_le {state : State} (h : InRange state) (pk0 dqsez : ℤ) :
    |state.upa2 pk0 dqsez| ≤ 12288 := by
  unfold State.upa2
  dsimp only
  split_ifs
  all_goals first
    | exact abs_limc_le _ _
    | (have ha2 := abs_le.mp h.a2
       rw [abs_le]
       omega)

theorem abs_upa1_le (state : State) (pk0 dqsez : ℤ) {a2p : ℤ} (ha2p : |a2p| ≤ 12288) :
    |state.upa1 pk0 dqsez a2p| ≤ 15360 - a2p := by
  have hbounds := abs_le.mp ha2p
  rw [abs_le]
  exact ⟨le_max_left _ _, max_le (by omega) (min_le_right _ _)⟩

theorem update_inRange {state : State} (h : InRange state) (y wi fi dq sr dqsez : ℤ)
    (bitsPerSample : ℕ) : InRange (state.update y wi fi dq sr dqsez bitsPerSample) := by
  have hyl := h.yl
  obtain ⟨yu, hyu⟩ : ∃ yu, yu = max 544 (min (y + (wi - y) / 2 ^ 5) 5120) := ⟨_, rfl⟩
  have hbounds : 544 ≤ yu ∧ yu ≤ 5120 := by
    rw [hyu]
    exact ⟨le_max_left _ _, max_le (by norm_num) (min_le_right _ _)⟩
  have hstored : toI16 yu = yu := toI16_of_abs_lt (by rw [abs_lt]; omega)
  refine ⟨?_, ?_, ?_, ?_⟩
  · simpa only [State.update, ← hyu, hstored] using hbounds
  · simp only [State.update]
    omega
  all_goals
    simp only [State.update]
    cases state.trans (dq % 0x8000)
    case true => simp
    case false =>
      have ha2 := abs_upa2_le h (if dqsez < 0 then 1 else 0) dqsez
      have ha1 := abs_upa1_le state (if dqsez < 0 then 1 else 0) dqsez ha2
      have hbounds2 := abs_le.mp ha2
      simp only [Bool.false_eq_true, if_false]
      rw [toI16_of_abs_lt (lt_of_le_of_lt ha2 (by norm_num))]
      first
        | exact ha2
        | rwa [toI16_of_abs_lt (lt_of_le_of_lt ha1 (by omega))]

/-! ### Main result -/

/-- A decoder fed the encoder's payloads of whole octets takes every packet, returns a sample for
each sample, and after every sample of every packet holds the encoder's state. For every stream of
codewords and for every stream of samples the state stays in range, and codewords and thresholds
index their tables. -/
theorem codec_stays_in_lockstep (rate : Rate) :
    (∀ (room : ℕ) (packets : List (List Int16)),
      (∀ pcm ∈ packets, pcm.length * rate.codewordBits % 8 = 0) →
      (∀ pcm ∈ packets, pcm.length ≤ room) →
      (∃ received state, exchange rate room .new .new packets = .ok (received, state, state) ∧
        received.map List.length = packets.map List.length) ∧
      ∀ before pcm after, packets = before ++ pcm :: after →
        ∃ received state, exchange rate room .new .new before = .ok (received, state, state) ∧
        ∃ payload later codes, encode rate state pcm room = .ok (payload, later) ∧
          unpack rate.codewordBits payload = some codes ∧ codes.length = pcm.length ∧
          ∀ j, final (decodeSample rate) state (codes.take j) =
            final (encodeSample rate) state (pcm.take j)) ∧
    (∀ codes, InRange (final (decodeSample rate) .new codes)) ∧
    (∀ pcm, InRange (final (encodeSample rate) .new pcm)) ∧
    (∀ payload, ∃ codes, unpack rate.codewordBits payload = some codes ∧
      ∀ code ∈ codes, code < rate.dqlntab.length ∧ code < rate.witab.length ∧
        code < rate.fitab.length) ∧
    (∀ state sample, (encodeSample rate state sample).1 < rate.dqlntab.length ∧
      (encodeSample rate state sample).1 < rate.witab.length ∧
      (encodeSample rate state sample).1 < rate.fitab.length) ∧
    (rate.quantizerStates - 1) / 2 ≤ rate.qtab.length := by
  refine ⟨?_, ?_, ?_, ?_, ?_, by cases rate <;> decide⟩
  · intro room packets hwhole hroom
    obtain ⟨received, hexchange, hlengths⟩ := exchange_lockstep rate hwhole hroom .new
    refine ⟨⟨received, _, hexchange, hlengths⟩, ?_⟩
    rintro before pcm after rfl
    have hpcm := hwhole pcm (by simp)
    have hfits := hroom pcm (by simp)
    have hwhole' : ∀ p ∈ before, p.length * rate.codewordBits % 8 = 0 :=
      fun p hp ↦ hwhole p (by simp [hp])
    obtain ⟨earlier, hbefore, -⟩ := exchange_lockstep rate hwhole'
      (fun p hp ↦ hroom p (by simp [hp])) .new
    refine ⟨earlier, _, hbefore, _, _, _, encode_of_whole rate _ hpcm hfits,
      unpack_pack_outputs rate _ hpcm, length_outputs _ _ _, ?_⟩
    intro j
    rw [← outputs_take, final_decodeSample_outputs]
  · intro codes
    exact final_invariant InRange (fun s _ _ hs ↦ update_inRange hs _ _ _ _ _ _ _) inRange_new
  · intro pcm
    exact final_invariant InRange (fun s _ _ hs ↦ update_inRange hs _ _ _ _ _ _ _) inRange_new
  · intro payload
    obtain ⟨codes, hcodes, -, hsmall⟩ := unpack_isSome rate.codewordBits payload
    exact ⟨codes, hcodes, fun code hcode ↦ lt_length_tables (hsmall code hcode)⟩
  · exact fun state sample ↦ lt_length_tables (encodeSample_lt rate state sample)

/-- Two packets at 40 kbit/s, where a packet of whole octets has a multiple of eight samples. -/
theorem codec_stays_in_lockstep_two_packets :
    ∃ received state, exchange .r40 8 .new .new
        [[100, -7, 3000, 12, 0, -32768, 32767, 5], [1, 2, 3, 4, 5, 6, 7, 8]] =
          .ok (received, state, state) ∧
      received.map List.length = [8, 8] :=
  ((codec_stays_in_lockstep .r40).1 8 _ (by decide) (by decide)).1

end SiphonRtp.Codec.G726
