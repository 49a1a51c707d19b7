import SiphonRtp.Machine.Checked

/-!
# The sub-band ADPCM codec of ITU-T G.722

`siphon-rtp-codec/src/g722.rs`. A quadrature mirror filter splits pairs of samples into two bands,
and each band is coded as the difference from a prediction, in steps of an adaptive size. Encoder
and decoder adapt a band with the coarse difference of its codeword alone (`adaptLow`, `adaptHigh`),
so the code byte leads the bands of both to the same state.

Every 32-bit operation is checked (`i32`) and so is every index: a result is only there if no
operation overflows. Right shifts are divisions that round down. The entries `r[0]`, `p[0]`, `d[0]`,
`a[0]` and `b[0]` of the source are left out: they are written before they are read, or unused.
-/

set_option autoImplicit false

namespace SiphonRtp.Codec.G722

open SiphonRtp.Machine.Checked

/-! ### Tables -/

def qmfCoeffs : List ℤ := [3, -11, 12, 32, -210, 951, 3876, -805, 362, -156, 53, -11]

def q6 : List ℤ :=
  [0, 35, 72, 110, 150, 190, 233, 276, 323, 370, 422, 473, 530, 587, 650, 714, 786, 858, 940, 1023,
    1121, 1219, 1339, 1458, 1612, 1765, 1980, 2195, 2557, 2919, 0, 0]

def iln : List ℕ :=
  [0, 63, 62, 31, 30, 29, 28, 27, 26, 25, 24, 23, 22, 21, 20, 19, 18, 17, 16, 15, 14, 13, 12, 11,
    10, 9, 8, 7, 6, 5, 4, 0]

def ilp : List ℕ :=
  [0, 61, 60, 59, 58, 57, 56, 55, 54, 53, 52, 51, 50, 49, 48, 47, 46, 45, 44, 43, 42, 41, 40, 39,
    38, 37, 36, 35, 34, 33, 32, 0]

def wl : List ℤ := [-60, -30, 58, 172, 334, 538, 1198, 3042]

def rl42 : List ℕ := [0, 7, 6, 5, 4, 3, 2, 1, 7, 6, 5, 4, 3, 2, 1, 0]

def ilb : List ℤ :=
  [2048, 2093, 2139, 2186, 2233, 2282, 2332, 2383, 2435, 2489, 2543, 2599, 2656, 2714, 2774, 2834,
    2896, 2960, 3025, 3091, 3158, 3228, 3298, 3371, 3444, 3520, 3597, 3676, 3756, 3838, 3922, 4008]

def qm4 : List ℤ :=
  [0, -20456, -12896, -8968, -6288, -4240, -2584, -1200, 20456, 12896, 8968, 6288, 4240, 2584, 1200,
    0]

def qm6 : List ℤ :=
  [-136, -136, -136, -136, -24808, -21904, -19008, -16704, -14984, -13512, -12280, -11192, -10232,
    -9360, -8576, -7856, -7192, -6576, -6000, -5456, -4944, -4464, -4008, -3576, -3168, -2776,
    -2400, -2032, -1688, -1360, -1040, -728, 24808, 21904, 19008, 16704, 14984, 13512, 12280, 11192,
    10232, 9360, 8576, 7856, 7192, 6576, 6000, 5456, 4944, 4464, 4008, 3576, 3168, 2776, 2400, 2032,
    1688, 1360, 1040, 728, 432, 136, -432, -136]

def ihn : List ℕ := [0, 1, 0]

def ihp : List ℕ := [0, 3, 2]

def wh : List ℤ := [0, -214, 798]

def rh2 : List ℕ := [2, 1, 2, 1]

def qm2 : List ℤ := [-7408, -1616, 7408, 1616]

/-! ### One band -/

def clamp (value low high : ℤ) : ℤ := max low (min value high)

def saturate (value : ℤ) : ℤ := clamp value (-32768) 32767

structure Band where
  s : ℤ
  sp : ℤ
  sz : ℤ
  nb : ℤ
  det : ℤ
  r1 : ℤ
  r2 : ℤ
  a1 : ℤ
  a2 : ℤ
  p1 : ℤ
  p2 : ℤ
  d : List ℤ
  b : List ℤ
deriving DecidableEq, Repr

namespace Band

def new (det : ℤ) : Band :=
  { s := 0, sp := 0, sz := 0, nb := 0, det, r1 := 0, r2 := 0, a1 := 0, a2 := 0, p1 := 0, p2 := 0,
    d := [0, 0, 0, 0, 0, 0], b := [0, 0, 0, 0, 0, 0] }

/-- The second pole coefficient, `UPPOL2`. -/
def uppol2 (band : Band) (p0 : ℤ) : Option ℤ := do
  let shifted ← i32 (band.a1 * 2 ^ 2)
  let wd1 := saturate shifted
  let wd2 ← i32 (if p0 / 2 ^ 15 = band.p1 / 2 ^ 15 then -wd1 else wd1)
  let wd2 := min wd2 32767
  let wd3 ← i32 (wd2 / 2 ^ 7 + if p0 / 2 ^ 15 = band.p2 / 2 ^ 15 then 128 else -128)
  let leaked ← i32 (band.a2 * 32512)
  let wd3 ← i32 (wd3 + leaked / 2 ^ 15)
  some (clamp wd3 (-12288) 12288)

/-- The first pole coefficient, `UPPOL1`. -/
def uppol1 (band : Band) (p0 ap2 : ℤ) : Option ℤ := do
  let wd1 : ℤ := if p0 / 2 ^ 15 = band.p1 / 2 ^ 15 then 192 else -192
  let wd2 ← i32 (band.a1 * 32640)
  let sum ← i32 (wd1 + wd2 / 2 ^ 15)
  let difference ← i32 (15360 - ap2)
  let wd3 := saturate difference
  let negated ← i32 (-wd3)
  some (clamp (saturate sum) negated wd3)

/-- The zero coefficients, `UPZERO`. -/
def upzero (difference leak : ℤ) : List ℤ → List ℤ → Option (List ℤ)
  | coeff :: b, diff :: d => do
    let term := if diff / 2 ^ 15 = difference / 2 ^ 15 then leak else -leak
    let leaked ← i32 (coeff * 32640)
    let sum ← i32 (term + leaked / 2 ^ 15)
    let rest ← upzero difference leak b d
    some (saturate sum :: rest)
  | _, _ => some []

/-- The zero predictor, `FILTEZ`, from the sum so far. -/
def filtez : List ℤ → List ℤ → ℤ → Option ℤ
  | coeff :: b, diff :: d, sz => do
    let doubled ← i32 (diff + diff)
    let product ← i32 (coeff * saturate doubled)
    let sz ← i32 (sz + product / 2 ^ 15)
    filtez b d sz
  | _, _, sz => some sz

def block4 (band : Band) (difference : ℤ) : Option Band := do
  let reconstructed ← i32 (band.s + difference)
  let partially ← i32 (band.sz + difference)
  let r0 := saturate reconstructed
  let p0 := saturate partially
  let ap2 ← band.uppol2 p0
  let ap1 ← band.uppol1 p0 ap2
  let bp ← upzero difference (if difference = 0 then 0 else 128) band.b band.d
  let d := difference :: band.d.take 5
  let doubled1 ← i32 (r0 + r0)
  let wd1 ← i32 (ap1 * saturate doubled1)
  let doubled2 ← i32 (band.r1 + band.r1)
  let wd2 ← i32 (ap2 * saturate doubled2)
  let poles ← i32 (wd1 / 2 ^ 15 + wd2 / 2 ^ 15)
  let zeros ← filtez bp d 0
  let sp := saturate poles
  let sz := saturate zeros
  let sum ← i32 (sp + sz)
  some { band with
    s := saturate sum, sp, sz, r1 := r0, r2 := band.r1, a1 := ap1, a2 := ap2, p1 := p0,
    p2 := band.p1, d, b := bp }

/-- The step size of a log scale factor. -/
def scale (nb shift : ℤ) : Option ℤ := do
  let entry ← ilb[(nb / 2 ^ 6 % 32).toNat]?
  let amount := shift - nb / 2 ^ 11
  let scaled ←
    i32 (if amount < 0 then entry * 2 ^ (-amount).toNat else entry / 2 ^ amount.toNat)
  i32 (scaled * 2 ^ 2)

/-- `LOGSCL` to `block4`, as both bands go through them on both sides. -/
def adapt (band : Band) (difference increment limit shift : ℤ) : Option Band := do
  let leaked ← i32 (band.nb * 127)
  let sum ← i32 (leaked / 2 ^ 7 + increment)
  let nb := clamp sum 0 limit
  let det ← scale nb shift
  block4 { band with nb, det } difference

/-- The difference of a codeword and its increment of the log scale factor, from the tables of the
band. -/
def adaptBy (quantiser : List ℤ) (indices : List ℕ) (increments : List ℤ) (limit shift : ℤ)
    (band : Band) (code : ℕ) : Option Band := do
  let quantised ← quantiser[code]?
  let product ← i32 (band.det * quantised)
  let index ← indices[code]?
  let increment ← increments[index]?
  band.adapt (product / 2 ^ 15) increment limit shift

/-- The low band, by the coarse part of its codeword. -/
def adaptLow (band : Band) (coarse : ℕ) : Option Band := band.adaptBy qm4 rl42 wl 18432 8 coarse

/-- The high band, by its codeword. -/
def adaptHigh (band : Band) (ihigh : ℕ) : Option Band := band.adaptBy qm2 rh2 wh 22528 10 ihigh

end Band

/-! ### Sub-bands -/

/-- The magnitude of a difference. -/
def magnitudeOf (difference : ℤ) : Option ℤ := do
  let next ← i32 (if 0 ≤ difference then difference else difference + 1)
  i32 (if 0 ≤ difference then next else -next)

/-- The loop of `QUANTL`, by the intervals that are left. -/
def findInterval (magnitude det : ℤ) : ℕ → ℕ → Option ℕ
  | 0, interval => some interval
  | left + 1, interval => do
    let level ← q6[interval]?
    let product ← i32 (level * det)
    if magnitude < product / 2 ^ 12 then some interval
    else findInterval magnitude det left (interval + 1)

def quantl (low : Band) (xlow : ℤ) : Option ℕ := do
  let difference ← i32 (xlow - low.s)
  let el := saturate difference
  let magnitude ← magnitudeOf el
  let interval ← findInterval magnitude low.det 29 1
  if el < 0 then iln[interval]? else ilp[interval]?

def quanth (high : Band) (xhigh : ℤ) : Option ℕ := do
  let difference ← i32 (xhigh - high.s)
  let eh := saturate difference
  let magnitude ← magnitudeOf eh
  let product ← i32 (564 * high.det)
  let mih := if product / 2 ^ 12 ≤ magnitude then 2 else 1
  if eh < 0 then ihn[mih]? else ihp[mih]?

def encodeSubband (low high : Band) (xlow xhigh : ℤ) : Option (UInt8 × Band × Band) := do
  let ilow ← quantl low xlow
  let low' ← low.adaptLow (ilow / 2 ^ 2)
  let ihigh ← quanth high xhigh
  let high' ← high.adaptHigh ihigh
  some (UInt8.ofNat (ihigh <<< 6 ||| ilow), low', high')

def decodeSubband (low high : Band) (code : UInt8) : Option ((ℤ × ℤ) × Band × Band) := do
  let lowCode := code.toNat % 64
  let ihigh := code.toNat / 2 ^ 6 % 4
  let fine ← qm6[lowCode]?
  let product ← i32 (low.det * fine)
  let reconstructed ← i32 (low.s + product / 2 ^ 15)
  let low' ← low.adaptLow (lowCode / 2 ^ 2)
  let quantised ← qm2[ihigh]?
  let product ← i32 (high.det * quantised)
  let sum ← i32 (product / 2 ^ 15 + high.s)
  let high' ← high.adaptHigh ihigh
  some ((clamp reconstructed (-16384) 16383, clamp sum (-16384) 16383), low', high')

/-! ### The filter -/

structure State where
  qmfHistory : List ℤ
  low : Band
  high : Band
deriving DecidableEq, Repr

def State.new : State := ⟨List.replicate 24 0, .new 32, .new 8⟩

/-- One of the two sums of the filter, from the sum so far. -/
def convolve : List ℤ → List ℤ → ℤ → Option ℤ
  | tap :: taps, coeff :: coeffs, sum => do
    let product ← i32 (tap * coeff)
    let sum ← i32 (sum + product)
    convolve taps coeffs sum
  | _, _, sum => some sum

/-- Every other tap of the delay line. -/
def taps (offset : ℕ) (history : List ℤ) : List ℤ :=
  (List.range 12).map fun i ↦ history.getD (2 * i + offset) 0

/-- The sums over the taps at even and at odd positions. -/
def filter (history : List ℤ) : Option (ℤ × ℤ) := do
  let atEven ← convolve (taps 0 history) qmfCoeffs 0
  let atOdd ← convolve (taps 1 history) qmfCoeffs.reverse 0
  some (atEven, atOdd)

def encodePair (codec : State) (first second : Int16) : Option (UInt8 × State) := do
  let history := codec.qmfHistory.drop 2 ++ [first.toInt, second.toInt]
  let (sumOdd, sumEven) ← filter history
  let sum ← i32 (sumEven + sumOdd)
  let difference ← i32 (sumEven - sumOdd)
  let (code, low, high) ←
    encodeSubband codec.low codec.high (sum / 2 ^ 14) (difference / 2 ^ 14)
  some (code, ⟨history, low, high⟩)

def decodeByte (codec : State) (code : UInt8) : Option ((Int16 × Int16) × State) := do
  let ((rlow, rhigh), low, high) ← decodeSubband codec.low codec.high code
  let sum ← i32 (rlow + rhigh)
  let difference ← i32 (rlow - rhigh)
  let history := codec.qmfHistory.drop 2 ++ [sum, difference]
  let (outEven, outOdd) ← filter history
  some ((.ofInt (saturate (outOdd / 2 ^ 11)), .ofInt (saturate (outEven / 2 ^ 11))),
    ⟨history, low, high⟩)

/-- The loop of `encode`; a last sample without a second one is not coded. -/
def encodePairs (codec : State) : List Int16 → Option (List UInt8 × State)
  | first :: second :: rest => do
    let (code, codec) ← encodePair codec first second
    let (codes, codec) ← encodePairs codec rest
    some (code :: codes, codec)
  | _ => some ([], codec)

/-- The loop of `decode`. -/
def decodeBytes (codec : State) : List UInt8 → Option (List Int16 × State)
  | code :: rest => do
    let (pair, codec) ← decodeByte codec code
    let (samples, codec) ← decodeBytes codec rest
    some (pair.1 :: pair.2 :: samples, codec)
  | [] => some ([], codec)

inductive CodecError
  | outputTooSmall (needed available : ℕ)
deriving DecidableEq, Repr

/-- `Encoder::encode`, into a buffer of `room` octets. -/
def encode (codec : State) (pcm : List Int16) (room : ℕ) :
    Option (Except CodecError (List UInt8 × State)) :=
  let bytes := pcm.length / 2
  if room < bytes then some (.error (.outputTooSmall bytes room))
  else (encodePairs codec pcm).map .ok

/-- `Decoder::decode`, into a buffer of `room` samples. -/
def decode (codec : State) (payload : List UInt8) (room : ℕ) :
    Option (Except CodecError (List Int16 × State)) :=
  let samples := payload.length * 2
  if room < samples then some (.error (.outputTooSmall samples room))
  else (decodeBytes codec payload).map .ok

/-! ### Bounds of a band -/

/-- What a band keeps: the log scale factor below the limit of the band, the step size, the pole
coefficients and the zero coefficients within theirs, and 16-bit signals. -/
structure InRange (limit : ℤ) (band : Band) : Prop where
  nb : 0 ≤ band.nb ∧ band.nb ≤ limit
  det : 0 ≤ band.det ∧ band.det ≤ 16384
  a2 : -12288 ≤ band.a2 ∧ band.a2 ≤ 12288
  a1 : -(15360 - band.a2) ≤ band.a1 ∧ band.a1 ≤ 15360 - band.a2
  b : band.b.length = 6 ∧ ∀ coeff ∈ band.b, IsI16 coeff
  d : band.d.length = 6 ∧ ∀ diff ∈ band.d, IsI16 diff
  s : IsI16 band.s
  sz : IsI16 band.sz
  r1 : IsI16 band.r1

theorem isI16_saturate (value : ℤ) : IsI16 (saturate value) := by
  unfold IsI16 saturate clamp
  omega

section Band

variable {limit : ℤ} {band : Band}

theorem uppol2_returns (h : InRange limit band) (p0 : ℤ) :
    Returns (band.uppol2 p0) fun ap2 ↦ -12288 ≤ ap2 ∧ ap2 ≤ 12288 := by
  obtain ⟨ha2, ha2'⟩ := h.a2
  obtain ⟨ha1, ha1'⟩ := h.a1
  obtain ⟨hlow, hhigh⟩ := isI16_saturate (band.a1 * 2 ^ 2)
  refine .i32 (by omega) (by omega) (.i32 ?_ ?_ (.i32 ?_ ?_
    (.i32 (by omega) (by omega) (.i32 ?_ ?_ (.pure ?_)))))
  iterate 6 split_ifs <;> omega
  unfold clamp
  omega

theorem uppol1_returns (h : InRange limit band) (p0 : ℤ) {ap2 : ℤ}
    (hap2 : -12288 ≤ ap2 ∧ ap2 ≤ 12288) :
    Returns (band.uppol1 p0 ap2) fun ap1 ↦ -(15360 - ap2) ≤ ap1 ∧ ap1 ≤ 15360 - ap2 := by
  obtain ⟨ha2, ha2'⟩ := h.a2
  obtain ⟨ha1, ha1'⟩ := h.a1
  have hsaturate : saturate (15360 - ap2) = 15360 - ap2 := by
    unfold saturate clamp
    omega
  refine .i32 (by omega) (by omega) (.i32 ?_ ?_ (.i32 (by omega) (by omega) (.i32 ?_ ?_
    (.pure ?_))))
  · split_ifs <;> omega
  · split_ifs <;> omega
  all_goals rw [hsaturate]
  · omega
  · omega
  · unfold clamp
    omega

theorem upzero_returns {difference leak : ℤ} (hleak : 0 ≤ leak ∧ leak ≤ 128) {b d : List ℤ}
    (hb : ∀ coeff ∈ b, IsI16 coeff) (hlength : b.length = d.length) :
    Returns (Band.upzero difference leak b d) fun bp ↦
      bp.length = b.length ∧ ∀ coeff ∈ bp, IsI16 coeff := by
  induction b generalizing d with
  | nil => exact .pure ⟨rfl, by simp⟩
  | cons coeff b ih =>
    obtain ⟨diff, d, rfl⟩ := List.exists_cons_of_length_eq_add_one hlength.symm
    obtain ⟨hlow, hhigh⟩ := hb coeff (by simp)
    refine .i32 (by omega) (by omega) (.i32 ?_ ?_ ?_)
    · split_ifs <;> omega
    · split_ifs <;> omega
    · refine (ih (fun c hc ↦ hb c (by simp [hc])) (Nat.succ.inj hlength)).bind ?_
      rintro bp ⟨hcount, hsmall⟩
      refine .pure ⟨by simp [hcount], ?_⟩
      intro c hc
      rcases List.mem_cons.mp hc with rfl | hc
      · exact isI16_saturate _
      · exact hsmall c hc

theorem filtez_returns {b d : List ℤ} (hb : ∀ coeff ∈ b, IsI16 coeff)
    (hd : ∀ diff ∈ d, IsI16 diff) {sz : ℤ} (hlow : -(2 ^ 30 - 32768 * (b.length : ℤ)) ≤ sz)
    (hhigh : sz ≤ 2 ^ 30 - 32768 * (b.length : ℤ)) :
    Returns (Band.filtez b d sz) fun _ ↦ True := by
  induction b generalizing d sz with
  | nil => exact .pure trivial
  | cons coeff b ih =>
    rcases d with _ | ⟨diff, d⟩
    · exact .pure trivial
    · obtain ⟨hcoeff, hcoeff'⟩ := hb coeff (by simp)
      obtain ⟨hdiff, hdiff'⟩ := hd diff (by simp)
      obtain ⟨hproduct, hproduct'⟩ := @mul_bounds 32768 coeff (saturate (diff + diff))
        hcoeff (by omega) (isI16_saturate _)
      rw [List.length_cons] at hlow hhigh
      refine .i32 (by omega) (by omega) (.i32 (by omega) (by omega) (.i32 (by omega) (by omega) ?_))
      exact ih (fun c hc ↦ hb c (by simp [hc])) (fun x hx ↦ hd x (by simp [hx])) (by omega)
        (by omega)

theorem block4_returns (h : InRange limit band) {difference : ℤ} (hdifference : IsI16 difference) :
    Returns (band.block4 difference) (InRange limit) := by
  obtain ⟨hlow, hhigh⟩ := hdifference
  obtain ⟨hs, hs'⟩ := h.s
  obtain ⟨hsz, hsz'⟩ := h.sz
  obtain ⟨hr1, hr1'⟩ := h.r1
  refine .i32 (by omega) (by omega) (.i32 (by omega) (by omega) ?_)
  refine (uppol2_returns h _).bind fun ap2 hap2 ↦ ?_
  refine (uppol1_returns h _ hap2).bind fun ap1 hap1 ↦ ?_
  have hleak : (0 : ℤ) ≤ (if difference = 0 then 0 else 128) ∧
      (if difference = 0 then 0 else 128 : ℤ) ≤ 128 := by
    split_ifs <;> omega
  refine (upzero_returns hleak h.b.2 (h.b.1.trans h.d.1.symm)).bind ?_
  rintro bp ⟨hcount, hbp⟩
  have hd : ∀ diff ∈ difference :: band.d.take 5, IsI16 diff := by
    intro diff hdiff
    rcases List.mem_cons.mp hdiff with rfl | hdiff
    · exact ⟨hlow, hhigh⟩
    · exact h.d.2 diff (List.mem_of_mem_take hdiff)
  obtain ⟨hr0, hr0'⟩ := isI16_saturate (band.s + difference)
  obtain ⟨hfirst, hfirst'⟩ := @mul_bounds 27648 ap1
    (saturate (saturate (band.s + difference) + saturate (band.s + difference))) (by omega)
    (by omega) (isI16_saturate _)
  obtain ⟨hsecond, hsecond'⟩ := @mul_bounds 12288 ap2 (saturate (band.r1 + band.r1)) hap2.1 hap2.2
    (isI16_saturate _)
  refine .i32 (by omega) (by omega) (.i32 (by omega) (by omega) (.i32 (by omega) (by omega)
    (.i32 (by omega) (by omega) (.i32 (by omega) (by omega) ?_))))
  have hlength : bp.length = 6 := hcount.trans h.b.1
  refine (filtez_returns hbp hd (by rw [hlength]; norm_num) (by rw [hlength]; norm_num)).bind ?_
  intro zeros _
  obtain ⟨hsp, hsp'⟩ := isI16_saturate (ap1 * saturate (saturate (band.s + difference) +
    saturate (band.s + difference)) / 2 ^ 15 + ap2 * saturate (band.r1 + band.r1) / 2 ^ 15)
  obtain ⟨hz, hz'⟩ := isI16_saturate zeros
  refine .i32 (by omega) (by omega) (.pure ?_)
  exact
    { nb := h.nb, det := h.det, a2 := hap2, a1 := hap1, b := ⟨hlength, hbp⟩
      d := ⟨by simp [h.d.1], hd⟩, s := isI16_saturate _, sz := isI16_saturate _
      r1 := isI16_saturate _ }

/-- The log scale factors of a band have step sizes up to 16384. -/
def Scales (limit shift : ℤ) : Prop := ∀ nb, 0 ≤ nb → nb ≤ limit →
  Returns (Band.scale nb shift) fun det ↦ 0 ≤ det ∧ det ≤ 16384

theorem scales_of_table {limit shift : ℤ} (htable : ∀ step < (limit / 64).toNat + 1,
    (Band.scale (64 * step) shift).any (fun det ↦ 0 ≤ det ∧ det ≤ 16384) = true) :
    Scales limit shift := by
  intro nb hlow hhigh
  have hsame : Band.scale nb shift = Band.scale (64 * ((nb / 64).toNat : ℤ)) shift := by
    have hfine : 64 * ((nb / 64).toNat : ℤ) / 2 ^ 6 = nb / 2 ^ 6 := by omega
    have hcoarse : 64 * ((nb / 64).toNat : ℤ) / 2 ^ 11 = nb / 2 ^ 11 := by omega
    rw [Band.scale, Band.scale, hfine, hcoarse]
  obtain ⟨det, hdet, hbounds⟩ := (Option.any_eq_true _ _).mp (htable (nb / 64).toNat (by omega))
  exact ⟨det, hsame.trans hdet, by simpa using hbounds⟩

theorem scales_low : Scales 18432 8 := scales_of_table (by decide +kernel)

theorem scales_high : Scales 22528 10 := scales_of_table (by decide +kernel)

theorem adapt_returns (h : InRange limit band) {shift difference increment : ℤ}
    (hlimit : 0 ≤ limit ∧ limit ≤ 22528) (hscales : Scales limit shift)
    (hdifference : IsI16 difference) (hincrement : IsI16 increment) :
    Returns (band.adapt difference increment limit shift) (InRange limit) := by
  obtain ⟨hnb, hnb'⟩ := h.nb
  obtain ⟨hlow, hhigh⟩ := hincrement
  refine .i32 (by omega) (by omega) (.i32 (by omega) (by omega) ?_)
  have hclamp : 0 ≤ clamp (band.nb * 127 / 2 ^ 7 + increment) 0 limit ∧
      clamp (band.nb * 127 / 2 ^ 7 + increment) 0 limit ≤ limit := by
    unfold clamp
    omega
  refine (hscales _ hclamp.1 hclamp.2).bind fun det hdet ↦ ?_
  have hband : InRange limit
      { band with nb := clamp (band.nb * 127 / 2 ^ 7 + increment) 0 limit, det } :=
    ⟨hclamp, hdet, h.a2, h.a1, h.b, h.d, h.s, h.sz, h.r1⟩
  exact block4_returns hband hdifference

/-- A quantised difference of a band, before and after its shift. -/
theorem difference_bounds (h : InRange limit band) {quantised : ℤ} (hquantised : IsI16 quantised) :
    (-2 ^ 31 ≤ band.det * quantised ∧ band.det * quantised < 2 ^ 31) ∧
      -16384 ≤ band.det * quantised / 2 ^ 15 ∧ band.det * quantised / 2 ^ 15 ≤ 16384 := by
  obtain ⟨hdet, hdet'⟩ := h.det
  have hproduct := @mul_bounds 16384 band.det quantised (by omega) hdet' hquantised
  omega

theorem adaptBy_returns (h : InRange limit band) {shift : ℤ} (hlimit : 0 ≤ limit ∧ limit ≤ 22528)
    (hscales : Scales limit shift) {quantiser increments : List ℤ} {indices : List ℕ} {code : ℕ}
    (hcode : code < quantiser.length) (hquantiser : ∀ entry ∈ quantiser, IsI16 entry)
    (hcode' : code < indices.length) (hindices : ∀ index ∈ indices, index < increments.length)
    (hincrements : ∀ entry ∈ increments, IsI16 entry) :
    Returns (band.adaptBy quantiser indices increments limit shift code) (InRange limit) := by
  refine Returns.bind (.lookup hcode hquantiser) fun quantised hquantised ↦ ?_
  obtain ⟨⟨hlow, hhigh⟩, hdifference⟩ := difference_bounds h hquantised
  refine .i32 hlow hhigh ?_
  refine Returns.bind (.lookup hcode' hindices) fun index hindex ↦ ?_
  refine Returns.bind (.lookup hindex hincrements) fun increment hincrement ↦ ?_
  exact adapt_returns h hlimit hscales ⟨by omega, by omega⟩ hincrement

end Band

theorem adaptLow_returns {band : Band} (h : InRange 18432 band) {coarse : ℕ}
    (hcoarse : coarse < 16) : Returns (band.adaptLow coarse) (InRange 18432) :=
  adaptBy_returns h (by decide) scales_low hcoarse (by decide) hcoarse (by decide) (by decide)

theorem adaptHigh_returns {band : Band} (h : InRange 22528 band) {ihigh : ℕ} (hihigh : ihigh < 4) :
    Returns (band.adaptHigh ihigh) (InRange 22528) :=
  adaptBy_returns h (by decide) scales_high hihigh (by decide) hihigh (by decide) (by decide)

/-! ### Quantisers -/

theorem magnitudeOf_returns {difference : ℤ} (hdifference : IsI16 difference) :
    Returns (magnitudeOf difference) fun _ ↦ True := by
  obtain ⟨hlow, hhigh⟩ := hdifference
  refine .i32 ?_ ?_ ?_
  · split_ifs <;> omega
  · split_ifs <;> omega
  · rw [i32, if_pos (by split_ifs <;> omega)]
    exact .pure trivial

theorem findInterval_returns {band : Band} (h : InRange 18432 band) (magnitude : ℤ)
    {left interval : ℕ} (hleft : interval + left < 32) :
    Returns (findInterval magnitude band.det left interval) (· < 32) := by
  induction left generalizing interval with
  | zero => exact .pure hleft
  | succ left ih =>
    refine Returns.bind (.lookup (show interval < q6.length by simp only [q6]; simp; omega)
      (show ∀ q ∈ q6, IsI16 q by decide)) fun level hlevel ↦ ?_
    obtain ⟨⟨hlow, hhigh⟩, -⟩ := difference_bounds h hlevel
    rw [mul_comm level]
    refine .i32 hlow hhigh ?_
    split_ifs
    · exact .pure (by omega)
    · exact ih (by omega)

theorem quantl_returns {low : Band} (h : InRange 18432 low) {xlow : ℤ} (hxlow : -2 ^ 30 ≤ xlow)
    (hxlow' : xlow ≤ 2 ^ 30) : Returns (quantl low xlow) (· < 64) := by
  obtain ⟨hs, hs'⟩ := h.s
  refine .i32 (by omega) (by omega) ?_
  refine (magnitudeOf_returns (isI16_saturate _)).bind fun magnitude _ ↦ ?_
  refine (findInterval_returns h magnitude (by decide)).bind fun interval hinterval ↦ ?_
  split_ifs
  · exact .lookup hinterval (by decide)
  · exact .lookup hinterval (by decide)

theorem quanth_returns {high : Band} (h : InRange 22528 high) {xhigh : ℤ} (hxhigh : -2 ^ 30 ≤ xhigh)
    (hxhigh' : xhigh ≤ 2 ^ 30) : Returns (quanth high xhigh) (· < 4) := by
  obtain ⟨hs, hs'⟩ := h.s
  obtain ⟨hdet, hdet'⟩ := h.det
  refine .i32 (by omega) (by omega) ?_
  refine (magnitudeOf_returns (isI16_saturate _)).bind fun magnitude _ ↦ ?_
  refine .i32 (by omega) (by omega) ?_
  split_ifs
  all_goals exact .lookup (by decide) (by decide)

/-! ### Sub-bands -/

section Subband

variable {low high : Band} (hlow : InRange 18432 low) (hhigh : InRange 22528 high)

include hlow hhigh

/-- The encoder adapts its bands by the two parts of the code byte. -/
theorem encodeSubband_returns {xlow xhigh : ℤ} (hxlow : -2 ^ 30 ≤ xlow ∧ xlow ≤ 2 ^ 30)
    (hxhigh : -2 ^ 30 ≤ xhigh ∧ xhigh ≤ 2 ^ 30) :
    Returns (encodeSubband low high xlow xhigh) fun out ↦
      low.adaptLow (out.1.toNat % 64 / 2 ^ 2) = some out.2.1 ∧
        high.adaptHigh (out.1.toNat / 2 ^ 6 % 4) = some out.2.2 ∧
        InRange 18432 out.2.1 ∧ InRange 22528 out.2.2 := by
  refine (quantl_returns hlow hxlow.1 hxlow.2).bind fun ilow hilow ↦ ?_
  refine (adaptLow_returns hlow (by omega)).named.bind fun low' hlow' ↦ ?_
  refine (quanth_returns hhigh hxhigh.1 hxhigh.2).bind fun ihigh hihigh ↦ ?_
  refine (adaptHigh_returns hhigh hihigh).named.bind fun high' hhigh' ↦ ?_
  have hcode : ∀ ilow < 64, ∀ ihigh < 4,
      (UInt8.ofNat (ihigh <<< 6 ||| ilow)).toNat % 64 = ilow ∧
        (UInt8.ofNat (ihigh <<< 6 ||| ilow)).toNat / 2 ^ 6 % 4 = ihigh := by
    decide +kernel
  obtain ⟨hlowCode, hhighCode⟩ := hcode ilow hilow ihigh hihigh
  refine .pure ?_
  dsimp only
  rw [hlowCode, hhighCode]
  exact ⟨hlow'.1, hhigh'.1, hlow'.2, hhigh'.2⟩

/-- So does the decoder. -/
theorem decodeSubband_returns (code : UInt8) :
    Returns (decodeSubband low high code) fun out ↦
      low.adaptLow (code.toNat % 64 / 2 ^ 2) = some out.2.1 ∧
        high.adaptHigh (code.toNat / 2 ^ 6 % 4) = some out.2.2 ∧
        InRange 18432 out.2.1 ∧ InRange 22528 out.2.2 ∧
        (-16384 ≤ out.1.1 ∧ out.1.1 ≤ 16383) ∧ -16384 ≤ out.1.2 ∧ out.1.2 ≤ 16383 := by
  obtain ⟨hs, hs'⟩ := hlow.s
  obtain ⟨hz, hz'⟩ := hhigh.s
  have hclamp (value : ℤ) :
      -16384 ≤ clamp value (-16384) 16383 ∧ clamp value (-16384) 16383 ≤ 16383 := by
    unfold clamp
    omega
  have hihigh : code.toNat / 2 ^ 6 % 4 < 4 := Nat.mod_lt _ (by decide)
  refine Returns.bind (.lookup (Nat.mod_lt _ (by decide)) (show ∀ q ∈ qm6, IsI16 q by decide))
    fun fine hfine ↦ ?_
  obtain ⟨⟨hbelow, habove⟩, hbounds⟩ := difference_bounds hlow hfine
  refine .i32 hbelow habove (.i32 (by omega) (by omega) ?_)
  refine (adaptLow_returns hlow (by omega)).named.bind fun low' hlow' ↦ ?_
  refine Returns.bind (.lookup hihigh (show ∀ q ∈ qm2, IsI16 q by decide)) fun quantised hq ↦ ?_
  obtain ⟨⟨hbelow, habove⟩, hbounds⟩ := difference_bounds hhigh hq
  refine .i32 hbelow habove (.i32 (by omega) (by omega) ?_)
  refine (adaptHigh_returns hhigh hihigh).named.bind fun high' hhigh' ↦ ?_
  exact .pure ⟨hlow'.1, hhigh'.1, hlow'.2, hhigh'.2, hclamp _, hclamp _⟩

end Subband

/-! ### The filter -/

theorem convolve_returns {taps coeffs : List ℤ} (htaps : ∀ tap ∈ taps, IsI16 tap) {sum : ℤ}
    (hlow : -(2 ^ 28 - 32768 * ((coeffs.map Int.natAbs).sum : ℤ)) ≤ sum)
    (hhigh : sum ≤ 2 ^ 28 - 32768 * ((coeffs.map Int.natAbs).sum : ℤ)) :
    Returns (convolve taps coeffs sum) fun total ↦ -2 ^ 28 ≤ total ∧ total ≤ 2 ^ 28 := by
  induction coeffs generalizing taps sum with
  | nil =>
    have hdone : convolve taps [] sum = some sum := by cases taps <;> rfl
    rw [hdone]
    exact .pure (by simpa using ⟨hlow, hhigh⟩)
  | cons coeff coeffs ih =>
    rw [List.map_cons, List.sum_cons] at hlow hhigh
    rcases taps with _ | ⟨tap, taps⟩
    · exact .pure ⟨by omega, by omega⟩
    · obtain ⟨hproduct, hproduct'⟩ := @mul_bounds coeff.natAbs coeff tap (by omega) (by omega)
        (htaps tap (by simp))
      rw [mul_comm coeff] at hproduct hproduct'
      refine .i32 (by omega) (by omega) (.i32 (by omega) (by omega) ?_)
      exact ih (fun t ht ↦ htaps t (by simp [ht])) (by omega) (by omega)

theorem isI16_taps {history : List ℤ} (hhistory : ∀ tap ∈ history, IsI16 tap) (offset : ℕ) :
    ∀ tap ∈ taps offset history, IsI16 tap := by
  intro tap htap
  obtain ⟨i, -, rfl⟩ := List.mem_map.mp htap
  rw [List.getD_eq_getElem?_getD]
  cases hentry : history[2 * i + offset]? with
  | none => exact ⟨by decide, by decide⟩
  | some tap => exact hhistory tap (List.mem_of_getElem? hentry)

theorem filter_returns {history : List ℤ} (hhistory : ∀ tap ∈ history, IsI16 tap) :
    Returns (filter history) fun sums ↦
      (-2 ^ 28 ≤ sums.1 ∧ sums.1 ≤ 2 ^ 28) ∧ -2 ^ 28 ≤ sums.2 ∧ sums.2 ≤ 2 ^ 28 := by
  refine (convolve_returns (isI16_taps hhistory 0) (by decide) (by decide)).bind fun _ heven ↦ ?_
  refine (convolve_returns (isI16_taps hhistory 1) (by decide) (by decide)).bind fun _ hodd ↦ ?_
  exact .pure ⟨heven, hodd⟩

theorem isI16_shift {history : List ℤ} (hhistory : ∀ tap ∈ history, IsI16 tap) {first second : ℤ}
    (hfirst : IsI16 first) (hsecond : IsI16 second) :
    ∀ tap ∈ history.drop 2 ++ [first, second], IsI16 tap := by
  intro tap htap
  rcases List.mem_append.mp htap with htap | htap
  · exact hhistory tap (List.mem_of_mem_drop htap)
  · rcases List.mem_cons.mp htap with rfl | htap
    · exact hfirst
    · obtain rfl := List.mem_singleton.mp htap
      exact hsecond

/-! ### Runs -/

/-- What an instance keeps, as an encoder or as a decoder. -/
structure Kept (codec : State) : Prop where
  low : InRange 18432 codec.low
  high : InRange 22528 codec.high
  history : ∀ tap ∈ codec.qmfHistory, IsI16 tap

theorem kept_new : Kept .new where
  low := by constructor <;> decide
  high := by constructor <;> decide
  history := by decide

theorem isI16_toInt (sample : Int16) : IsI16 sample.toInt := by
  have hlow := Int16.le_toInt sample
  have hhigh := Int16.toInt_lt sample
  exact ⟨by omega, by omega⟩

/-- A pair of samples is coded, and its code byte says how the bands are adapted. -/
theorem encodePair_returns {codec : State} (h : Kept codec) (first second : Int16) :
    Returns (encodePair codec first second) fun out ↦ Kept out.2 ∧
      codec.low.adaptLow (out.1.toNat % 64 / 2 ^ 2) = some out.2.low ∧
      codec.high.adaptHigh (out.1.toNat / 2 ^ 6 % 4) = some out.2.high := by
  have hhistory := isI16_shift h.history (isI16_toInt first) (isI16_toInt second)
  refine (filter_returns hhistory).bind ?_
  rintro ⟨sumOdd, sumEven⟩ ⟨hodd, heven⟩
  refine .i32 (by omega) (by omega) (.i32 (by omega) (by omega) ?_)
  refine (encodeSubband_returns h.low h.high ⟨by omega, by omega⟩ ⟨by omega, by omega⟩).bind ?_
  rintro ⟨code, low, high⟩ ⟨hadaptLow, hadaptHigh, hlow, hhigh⟩
  exact .pure ⟨⟨hlow, hhigh, hhistory⟩, hadaptLow, hadaptHigh⟩

theorem decodeByte_returns {codec : State} (h : Kept codec) (code : UInt8) :
    Returns (decodeByte codec code) fun out ↦ Kept out.2 ∧
      codec.low.adaptLow (code.toNat % 64 / 2 ^ 2) = some out.2.low ∧
      codec.high.adaptHigh (code.toNat / 2 ^ 6 % 4) = some out.2.high := by
  refine (decodeSubband_returns h.low h.high code).bind ?_
  rintro ⟨⟨rlow, rhigh⟩, low, high⟩ ⟨hadaptLow, hadaptHigh, hlow, hhigh, hrlow, hrhigh⟩
  dsimp only at hrlow hrhigh ⊢
  refine .i32 (by omega) (by omega) (.i32 (by omega) (by omega) ?_)
  have hhistory := isI16_shift h.history (show IsI16 (rlow + rhigh) from ⟨by omega, by omega⟩)
    (show IsI16 (rlow - rhigh) from ⟨by omega, by omega⟩)
  refine (filter_returns hhistory).bind ?_
  rintro ⟨outEven, outOdd⟩ -
  exact .pure ⟨⟨hlow, hhigh, hhistory⟩, hadaptLow, hadaptHigh⟩

theorem decodeBytes_returns {codec : State} (h : Kept codec) (codes : List UInt8) :
    Returns (decodeBytes codec codes) fun out ↦ Kept out.2 ∧ out.1.length = codes.length * 2 := by
  induction codes generalizing codec with
  | nil => exact .pure ⟨h, rfl⟩
  | cons code codes ih =>
    refine (decodeByte_returns h code).bind ?_
    rintro ⟨pair, next⟩ ⟨hnext, -⟩
    refine (ih hnext).bind ?_
    rintro ⟨samples, last⟩ ⟨hlast, hcount⟩
    exact .pure ⟨hlast, by simp only [List.length_cons] at hcount ⊢; omega⟩

/-- A decoder whose bands are the encoder's and that is given the encoder's code bytes has the bands
of the encoder afterwards. -/
theorem encodePairs_returns {codec decoder : State} (h : Kept codec) (hdecoder : Kept decoder)
    (hlow : decoder.low = codec.low) (hhigh : decoder.high = codec.high) (pcm : List Int16) :
    Returns (encodePairs codec pcm) fun out ↦ Kept out.2 ∧ out.1.length = pcm.length / 2 ∧
      Returns (decodeBytes decoder out.1) fun received ↦
        received.2.low = out.2.low ∧ received.2.high = out.2.high := by
  fun_induction encodePairs codec pcm generalizing decoder with
  | case1 codec first second rest ih =>
    refine (encodePair_returns h first second).bind ?_
    rintro ⟨code, next⟩ ⟨hnext, hadaptLow, hadaptHigh⟩
    obtain ⟨⟨pair, decoder'⟩, hdecode, hdecoder', hadaptLow', hadaptHigh'⟩ :=
      decodeByte_returns hdecoder code
    rw [hlow] at hadaptLow'
    rw [hhigh] at hadaptHigh'
    refine (ih next hnext hdecoder'
      (Option.some.inj (hadaptLow'.symm.trans hadaptLow))
      (Option.some.inj (hadaptHigh'.symm.trans hadaptHigh))).bind ?_
    rintro ⟨codes, last⟩ ⟨hlast, hcount, hreceived⟩
    refine .pure ⟨hlast, by simp only [List.length_cons] at hcount ⊢; omega, ?_⟩
    rw [decodeBytes, hdecode]
    refine hreceived.bind ?_
    rintro ⟨samples, final⟩ hfinal
    exact .pure hfinal
  | case2 pcm codec hshort =>
    refine .pure ⟨h, ?_, .pure ⟨hlow, hhigh⟩⟩
    rcases pcm with _ | ⟨first, _ | ⟨second, rest⟩⟩
    · rfl
    · simp
    · exact absurd rfl (hshort first second rest)

/-- For every sequence of samples the encoder returns a code byte for each pair, and a decoder given
these ends with the sub-band states of the encoder; for every sequence of code bytes the decoder
returns two samples for each. None of the two stops at an overflow or an index, and the states they
reach are in range. -/
theorem subbands_stay_in_lockstep :
    (∀ (pcm : List Int16) (room : ℕ), pcm.length / 2 ≤ room →
      ∃ codes encoder, encode .new pcm room = some (.ok (codes, encoder)) ∧
        codes.length = pcm.length / 2 ∧
        InRange 18432 encoder.low ∧ InRange 22528 encoder.high ∧
        ∀ room', codes.length * 2 ≤ room' → ∃ samples decoder,
          decode .new codes room' = some (.ok (samples, decoder)) ∧
            decoder.low = encoder.low ∧ decoder.high = encoder.high) ∧
      ∀ (codes : List UInt8) (room : ℕ), codes.length * 2 ≤ room →
        ∃ samples decoder, decode .new codes room = some (.ok (samples, decoder)) ∧
          samples.length = codes.length * 2 ∧
          InRange 18432 decoder.low ∧ InRange 22528 decoder.high := by
  refine ⟨fun pcm room hroom ↦ ?_, fun codes room hroom ↦ ?_⟩
  · obtain ⟨⟨codes, encoder⟩, hencode, hkept, hcount, ⟨samples, decoder⟩, hdecode, hsame⟩ :=
      encodePairs_returns kept_new kept_new rfl rfl pcm
    refine ⟨codes, encoder, ?_, hcount, hkept.low, hkept.high, fun room' hroom' ↦ ?_⟩
    · rw [encode, if_neg (not_lt.mpr hroom), hencode]
      rfl
    · refine ⟨samples, decoder, ?_, hsame⟩
      rw [decode, if_neg (not_lt.mpr hroom'), hdecode]
      rfl
  · obtain ⟨⟨samples, decoder⟩, hdecode, hkept, hcount⟩ := decodeBytes_returns kept_new codes
    refine ⟨samples, decoder, ?_, hcount, hkept.low, hkept.high⟩
    rw [decode, if_neg (not_lt.mpr hroom), hdecode]
    rfl

/-- Three pairs and a sample over. -/
theorem subbands_stay_in_lockstep_seven :
    ∃ codes encoder, encode .new [0, 100, -32768, 32767, 5, 6, 7] 3 = some (.ok (codes, encoder)) ∧
      codes.length = 3 := by
  obtain ⟨codes, encoder, hencode, hcount, -⟩ :=
    subbands_stay_in_lockstep.1 [0, 100, -32768, 32767, 5, 6, 7] 3 (by decide)
  exact ⟨codes, encoder, hencode, hcount⟩

end SiphonRtp.Codec.G722
