import Mathlib.Tactic.Linarith

/-!
# The Laplace coder of coarse energies

`siphon-rtp-codec/src/opus/celt/laplace.rs`. A value is coded as an interval of `[0, 32768)`: zero
first, then for each magnitude the interval of the negative value and that of the positive one, with
frequencies that decay to the smallest. The range coder carries the interval and is not part of the
model: the encoder is the interval it passes to `encode_bin`, and the decoder is a function of the
point it gets from `decode_bin`.

The two walk the same ladder of intervals (`startAt`, `freqAt`). The ladder down to the smallest
frequencies fits the range for every model (`startAt_add_two_le`): the decay leaves room for sixteen
magnitudes, and where there are more, the frequencies lose enough by rounding.
-/

set_option autoImplicit false

namespace SiphonRtp.Codec.Laplace

/-! ### The coder -/

def laplaceMinp : ℕ := 1

def laplaceNmin : ℕ := 16

def laplaceFt : ℕ := 2 ^ 15

/-- `ec_laplace_get_freq1`. -/
def ecLaplaceGetFreq1 (fs0 decay : ℕ) : ℕ :=
  let ft := laplaceFt - laplaceMinp * (2 * laplaceNmin) - fs0
  ft * (16384 - decay) / 2 ^ 15

/-- What is coded: the value the encoder reports back, and its interval `[fl, fh)`. -/
structure Coded where
  value : ℤ
  fl : ℕ
  fh : ℕ
deriving DecidableEq

/-- The loop of the encoder, with the magnitudes left: `fl`, `fs` and the magnitude reached. -/
def encodeSearch (decay : ℕ) : ℕ → ℕ → ℕ → ℕ → ℕ × ℕ × ℕ
  | 0, fl, fs, i => (fl, fs, i)
  | left + 1, fl, fs, i =>
    if 0 < fs then
      encodeSearch decay left (fl + (2 * fs + 2 * laplaceMinp)) (2 * fs * decay / 2 ^ 15) (i + 1)
    else (fl, fs, i)

/-- `ec_laplace_encode`. The mask `s` of the source is -1 for a negative value and 0 otherwise, and
`(x + s) ^ s` is the value with the magnitude `x` and that sign. -/
def ecLaplaceEncode (value : ℤ) (fs0 decay : ℕ) : Coded :=
  if value = 0 then ⟨value, 0, fs0⟩
  else
    let s : ℤ := if value < 0 then -1 else 0
    let signed (magnitude : ℤ) : ℤ := if value < 0 then -magnitude else magnitude
    let val := value.natAbs
    let (fl, fs, i) := encodeSearch decay (val - 1) fs0 (ecLaplaceGetFreq1 fs0 decay) 1
    if fs = 0 then
      let ndiMax : ℤ := laplaceFt - fl + laplaceMinp - 1
      let ndiMax := (ndiMax - s) / 2
      let di := min (val - i : ℤ) (ndiMax - 1)
      let fl := (fl + (2 * di + 1 + s) * laplaceMinp).toNat
      ⟨signed (i + di), fl, fl + min laplaceMinp (laplaceFt - fl)⟩
    else
      let fs := fs + laplaceMinp
      let fl := if value < 0 then fl else fl + fs
      ⟨value, fl, fl + fs⟩

/-- The loop of the decoder: `fl`, `fs` and the magnitude reached. -/
def decodeSearch (decay fm fl fs val : ℕ) : ℕ × ℕ × ℕ :=
  if _hon : laplaceMinp < fs ∧ fl + 2 * fs ≤ fm then
    decodeSearch decay fm (fl + 2 * fs)
      ((2 * fs - 2 * laplaceMinp) * decay / 2 ^ 15 + laplaceMinp) (val + 1)
  else (fl, fs, val)
termination_by fm - fl
decreasing_by omega

/-- `ec_laplace_decode`, at the point `fm`. -/
def ecLaplaceDecode (fm fs0 decay : ℕ) : Coded :=
  if fs0 ≤ fm then
    let (fl, fs, val) := decodeSearch decay fm fs0 (ecLaplaceGetFreq1 fs0 decay + laplaceMinp) 1
    let di := if fs ≤ laplaceMinp then (fm - fl) / 2 else 0
    let val := val + di
    let fl := fl + 2 * di * laplaceMinp
    if fm < fl + fs then ⟨-val, fl, min (fl + fs) laplaceFt⟩
    else ⟨val, fl + fs, min (fl + fs + fs) laplaceFt⟩
  else ⟨0, 0, min fs0 laplaceFt⟩

/-! ### The ladder -/

section Ladder

variable (fs0 decay : ℕ)

/-- The frequency of the magnitude `step + 1`, above the smallest. -/
def freqAt : ℕ → ℕ
  | 0 => ecLaplaceGetFreq1 fs0 decay
  | step + 1 => 2 * freqAt step * decay / 2 ^ 15

/-- Where the intervals of the magnitude `step + 1` begin. -/
def startAt : ℕ → ℕ
  | 0 => fs0
  | step + 1 => startAt step + (2 * freqAt fs0 decay step + 2)

/-- The interval of a value. -/
def interval : ℤ → ℕ × ℕ
  | 0 => (0, fs0)
  | (step + 1 : ℕ) =>
    (startAt fs0 decay step + (freqAt fs0 decay step + 1), startAt fs0 decay (step + 1))
  | .negSucc step =>
    (startAt fs0 decay step, startAt fs0 decay step + (freqAt fs0 decay step + 1))

end Ladder

variable {fs0 decay : ℕ}

theorem startAt_strictMono : StrictMono (startAt fs0 decay) :=
  strictMono_nat_of_lt_succ fun step ↦ by
    rw [startAt]
    omega

theorem freqAt_of_zero {step : ℕ} (hzero : freqAt fs0 decay step = 0) (more : ℕ) :
    freqAt fs0 decay (step + more) = 0 ∧
      startAt fs0 decay (step + more) = startAt fs0 decay step + 2 * more := by
  induction more with
  | zero => exact ⟨hzero, rfl⟩
  | succ more ih =>
    rw [← Nat.add_assoc, freqAt, startAt, ih.1]
    exact ⟨by simp, by omega⟩

/-- The encoder goes down the ladder to the magnitude or to the smallest frequencies. -/
theorem encodeSearch_spec (left step : ℕ) :
    ∃ reached, step ≤ reached ∧ reached ≤ step + left ∧
      (freqAt fs0 decay reached = 0 ∨ reached = step + left) ∧
      (∀ earlier, step ≤ earlier → earlier < reached → 0 < freqAt fs0 decay earlier) ∧
      encodeSearch decay left (startAt fs0 decay step) (freqAt fs0 decay step) (step + 1) =
        (startAt fs0 decay reached, freqAt fs0 decay reached, reached + 1) := by
  induction left generalizing step with
  | zero => exact ⟨step, le_rfl, le_rfl, .inr rfl, fun _ _ _ ↦ by omega, rfl⟩
  | succ left ih =>
    rw [encodeSearch]
    split_ifs with hfs
    · obtain ⟨reached, hge, hle, hend, hbefore, hsearch⟩ := ih (step + 1)
      refine ⟨reached, by omega, by omega, hend.imp_right (by omega), ?_, hsearch⟩
      intro earlier hearlier hlt
      rcases Nat.eq_or_lt_of_le hearlier with rfl | hlater
      · exact hfs
      · exact hbefore earlier hlater hlt
    · exact ⟨step, le_rfl, by omega, .inl (by omega), fun _ _ _ ↦ by omega, rfl⟩

/-- The decoder goes down the ladder to the magnitude whose intervals hold the point, or to the
smallest frequencies. -/
theorem decodeSearch_spec {fm step : ℕ} (hstart : startAt fs0 decay step ≤ fm) :
    ∃ reached, startAt fs0 decay reached ≤ fm ∧
      (freqAt fs0 decay reached = 0 ∨ fm < startAt fs0 decay (reached + 1)) ∧
      decodeSearch decay fm (startAt fs0 decay step) (freqAt fs0 decay step + laplaceMinp)
          (step + 1) =
        (startAt fs0 decay reached, freqAt fs0 decay reached + laplaceMinp, reached + 1) := by
  induction hleft : fm - startAt fs0 decay step using Nat.strong_induction_on
    generalizing step with
  | _ left ih =>
    have hnext : startAt fs0 decay (step + 1) =
        startAt fs0 decay step + 2 * (freqAt fs0 decay step + laplaceMinp) := by
      rw [startAt, laplaceMinp]
      omega
    rw [decodeSearch]
    split_ifs with hon
    · rw [← hnext] at hon
      have hlt := @startAt_strictMono fs0 decay _ _ (Nat.lt_succ_self step)
      exact ih _ (by omega) hon.2 rfl
    · refine ⟨step, hstart, ?_, rfl⟩
      omega

/-! ### Room for the ladder -/

/-- The next frequency down the ladder. -/
def nextFreq (decay freq : ℕ) : ℕ := 2 * freq * decay / 2 ^ 15

/-- What the ladder takes from a frequency on down to the smallest. -/
def need (decay : ℕ) : ℕ → ℕ → ℕ
  | 0, _ => 0
  | fuel + 1, freq => if freq = 0 then 0 else 2 * freq + 2 + need decay fuel (nextFreq decay freq)

theorem nextFreq_mono {decay decay' freq freq' : ℕ} (hdecay : decay ≤ decay')
    (hfreq : freq ≤ freq') : nextFreq decay freq ≤ nextFreq decay' freq' :=
  Nat.div_le_div_right (Nat.mul_le_mul (Nat.mul_le_mul_left 2 hfreq) hdecay)

theorem need_mono {decay decay' : ℕ} (hdecay : decay ≤ decay') (fuel freq : ℕ) {freq' : ℕ}
    (hfreq : freq ≤ freq') : need decay fuel freq ≤ need decay' fuel freq' := by
  induction fuel generalizing freq freq' with
  | zero => exact le_rfl
  | succ fuel ih =>
    have hlater := ih _ (nextFreq_mono hdecay hfreq)
    rw [need, need]
    split_ifs
    all_goals omega

theorem freqAt_eq_iterate (step : ℕ) :
    freqAt fs0 decay step = (nextFreq decay)^[step] (ecLaplaceGetFreq1 fs0 decay) := by
  induction step with
  | zero => rfl
  | succ step ih => rw [Function.iterate_succ_apply', ← ih, freqAt, nextFreq]

theorem iterate_nextFreq_mono {decay decay' freq freq' : ℕ} (hdecay : decay ≤ decay')
    (hfreq : freq ≤ freq') (steps : ℕ) :
    (nextFreq decay)^[steps] freq ≤ (nextFreq decay')^[steps] freq' := by
  induction steps with
  | zero => exact hfreq
  | succ steps ih =>
    rw [Function.iterate_succ_apply', Function.iterate_succ_apply']
    exact nextFreq_mono hdecay ih

theorem startAt_le_need {step fuel : ℕ} (more : ℕ) (hfuel : more ≤ fuel)
    (hpositive : ∀ earlier, step ≤ earlier → earlier < step + more → 0 < freqAt fs0 decay earlier) :
    startAt fs0 decay (step + more) ≤
      startAt fs0 decay step + need decay fuel (freqAt fs0 decay step) := by
  induction more generalizing step fuel with
  | zero => exact Nat.le_add_right _ _
  | succ more ih =>
    obtain ⟨fuel, rfl⟩ := Nat.exists_eq_add_of_le' (Nat.le_of_add_left_le hfuel)
    have hfreq := hpositive step le_rfl (by omega)
    have hlater := @ih (step + 1) fuel (by omega) fun earlier hge hlt ↦
      hpositive earlier (by omega) (by omega)
    have hnext : freqAt fs0 decay (step + 1) = nextFreq decay (freqAt fs0 decay step) := rfl
    rw [startAt, hnext] at hlater
    rw [need, if_neg (Nat.ne_of_gt hfreq), Nat.add_comm more 1, ← Nat.add_assoc]
    omega

/-- Each step down the ladder loses at least one. -/
theorem add_le_freqAt (hdecay : decay < 16384) {step : ℕ} (more : ℕ)
    (hpositive : 0 < freqAt fs0 decay (step + more)) : more < freqAt fs0 decay step := by
  induction more generalizing step with
  | zero => exact hpositive
  | succ more ih =>
    rw [Nat.add_comm more 1, ← Nat.add_assoc] at hpositive
    have hlater := ih hpositive
    have hfreq : 0 < freqAt fs0 decay step := by
      refine Nat.pos_of_ne_zero fun hzero ↦ ?_
      rw [(freqAt_of_zero hzero 1).1] at hlater
      exact absurd hlater (Nat.not_lt_zero more)
    have hloss : freqAt fs0 decay (step + 1) < freqAt fs0 decay step := by
      rw [freqAt, Nat.div_lt_iff_lt_mul (by decide)]
      nlinarith
    omega

/-- Down the ladder there is room for what the decay still takes and for sixteen magnitudes. -/
theorem freqAt_le_room (hfs0 : fs0 ≤ 32736) (hdecay : decay ≤ 16384) (step : ℕ) :
    (32768 * freqAt fs0 decay step : ℤ) ≤
      (32736 + 2 * step - startAt fs0 decay step) * (16384 - decay) := by
  induction step with
  | zero =>
    have hfreq : freqAt fs0 decay 0 * 2 ^ 15 ≤ (32736 - fs0) * (16384 - decay) :=
      Nat.div_mul_le_self _ _
    have hstart : startAt fs0 decay 0 = fs0 := rfl
    rw [hstart]
    zify [hfs0, hdecay] at hfreq
    rw [Nat.cast_zero]
    linarith
  | succ step ih =>
    have hfreq : freqAt fs0 decay (step + 1) * 2 ^ 15 ≤ 2 * freqAt fs0 decay step * decay :=
      Nat.div_mul_le_self _ _
    rw [startAt]
    push_cast
    zify at hfreq
    linarith

/-- The first sixteen magnitudes have their room. -/
theorem startAt_le (hfs0 : fs0 ≤ 32736) (hdecay : decay ≤ 11456) (step : ℕ) :
    startAt fs0 decay step ≤ 32736 + 2 * step := by
  have hroom := @freqAt_le_room fs0 decay hfs0 (by omega) step
  have hnonneg : (0 : ℤ) ≤ 32736 + 2 * step - startAt fs0 decay step := by
    refine nonneg_of_mul_nonneg_left (le_trans (by positivity) hroom) ?_
    omega
  omega

/-- With a decay of one half or less there are fourteen magnitudes at most. -/
theorem freqAt_fourteen (hdecay : decay ≤ 8192) : freqAt fs0 decay 14 = 0 := by
  have hfirst : ecLaplaceGetFreq1 fs0 decay ≤ 32736 * 16384 / 2 ^ 15 :=
    Nat.div_le_div_right (Nat.mul_le_mul (Nat.sub_le _ _) (Nat.sub_le _ _))
  have hlast : (nextFreq 8192)^[14] (32736 * 16384 / 2 ^ 15) = 0 := by decide +kernel
  rw [freqAt_eq_iterate]
  exact Nat.le_zero.mp ((iterate_nextFreq_mono hdecay hfirst 14).trans_eq hlast)

/-- From the twelfth magnitude on, for decays of one half or more in steps of 32. -/
theorem need_table : ∀ bucket < 103, ∀ freq < (nextFreq (min (8223 + 32 * bucket) 11456))^[11]
      (32735 * (8192 - 32 * bucket) / 2 ^ 15) + 1,
    0 < freq → freq < 96 ∧ need (min (8223 + 32 * bucket) 11456) 96 freq * (8192 - 32 * bucket) ≤
      32768 * freq + 8 * (8192 - 32 * bucket) := by
  decide +kernel

/-- What the ladder needs from the twelfth magnitude on fits the range that is left. -/
theorem need_fits (hfs0 : fs0 ≤ 32736) (hdecay : decay ≤ 11456) {needed width : ℕ}
    (hwidth : 16384 - decay ≤ width) (hpos : 0 < width)
    (htable : needed * width ≤ 32768 * freqAt fs0 decay 11 + 8 * width) :
    startAt fs0 decay 11 + needed ≤ 32766 := by
  have hroom := @freqAt_le_room fs0 decay hfs0 (by omega) 11
  have hstart := @startAt_le fs0 decay hfs0 hdecay 11
  have hwider : (32736 + 2 * (11 : ℕ) - startAt fs0 decay 11 : ℤ) * (16384 - decay) ≤
      (32736 + 2 * (11 : ℕ) - startAt fs0 decay 11) * width :=
    mul_le_mul_of_nonneg_left (by omega) (by omega)
  have hfits : needed ≤ 32766 - startAt fs0 decay 11 := by
    refine Nat.le_of_mul_le_mul_right (htable.trans ?_) hpos
    have hsub : ((32766 - startAt fs0 decay 11 : ℕ) : ℤ) = 32766 - startAt fs0 decay 11 := by omega
    zify
    rw [hsub]
    push_cast at hroom hwider
    linarith
  omega

/-- The ladder fits the range, down to the smallest frequencies and two values of these. -/
theorem startAt_add_two_le (hfs0 : 0 < fs0) (hfs0' : fs0 ≤ 32736) (hdecay : decay ≤ 11456)
    {step : ℕ} (hpositive : ∀ earlier < step, 0 < freqAt fs0 decay earlier) :
    startAt fs0 decay step + 2 ≤ laplaceFt := by
  rcases Nat.lt_or_ge step 16 with hlt | hge
  · have hstart := @startAt_le fs0 decay hfs0' hdecay step
    rw [laplaceFt]
    omega
  have hhalf : 8192 < decay := by
    refine not_le.mp fun hle ↦ ?_
    exact absurd (hpositive 14 (by omega)) (by rw [freqAt_fourteen hle]; decide)
  obtain ⟨more, rfl⟩ := Nat.exists_eq_add_of_le (show 11 ≤ step by omega)
  have hfreq := hpositive 11 (by omega)
  obtain ⟨bucket, hbucket⟩ : ∃ bucket, bucket = (decay - 8192) / 32 := ⟨_, rfl⟩
  have hupper : decay ≤ min (8223 + 32 * bucket) 11456 := le_min (by omega) hdecay
  have hfirst : ecLaplaceGetFreq1 fs0 decay ≤ 32735 * (8192 - 32 * bucket) / 2 ^ 15 := by
    refine Nat.div_le_div_right (Nat.mul_le_mul ?_ (by omega))
    rw [laplaceFt, laplaceMinp, laplaceNmin]
    omega
  obtain ⟨hsmall, htable⟩ := need_table bucket (by omega) (freqAt fs0 decay 11) (by
    rw [Nat.lt_succ_iff]
    exact iterate_nextFreq_mono hupper hfirst 11) hfreq
  have hmore : more ≤ 96 := by
    refine le_trans ?_ hsmall.le
    obtain ⟨before, rfl⟩ := Nat.exists_eq_add_of_le' (show 1 ≤ more by omega)
    exact @add_le_freqAt fs0 decay (by omega) 11 before (hpositive _ (by omega))
  have hstart := @startAt_le_need fs0 decay 11 96 more hmore fun earlier _ hlt ↦
    hpositive earlier hlt
  have hneed := need_mono hupper 96 _ (le_refl (freqAt fs0 decay 11))
  have hfits := need_fits hfs0' hdecay (by omega) (by omega) htable
  rw [laplaceFt]
  omega

/-! ### Encoder and decoder -/

/-- A point of the ladder is in the intervals of one magnitude. -/
theorem step_unique {fm step step' : ℕ} (hlow : startAt fs0 decay step ≤ fm)
    (hhigh : fm < startAt fs0 decay (step + 1)) (hlow' : startAt fs0 decay step' ≤ fm)
    (hhigh' : fm < startAt fs0 decay (step' + 1)) : step = step' := by
  have hmono := @startAt_strictMono fs0 decay
  have hle := hmono.lt_iff_lt.mp (hlow.trans_lt hhigh')
  have hge := hmono.lt_iff_lt.mp (hlow'.trans_lt hhigh)
  omega

/-- The decoder reads the sign and the magnitude whose interval holds the point. -/
theorem decode_of_ladder {fm step : ℕ} (hlow : startAt fs0 decay step ≤ fm)
    (hhigh : fm < startAt fs0 decay (step + 1)) :
    (ecLaplaceDecode fm fs0 decay).value =
      if fm < startAt fs0 decay step + (freqAt fs0 decay step + 1) then -(step + 1 : ℤ)
      else step + 1 := by
  have hfs0 : fs0 ≤ fm := ((@startAt_strictMono fs0 decay).monotone (Nat.zero_le step)).trans hlow
  obtain ⟨reached, hreached, hend, hsearch⟩ := @decodeSearch_spec fs0 decay fm 0 hfs0
  have hsearch : decodeSearch decay fm fs0 (ecLaplaceGetFreq1 fs0 decay + laplaceMinp) 1 =
      (startAt fs0 decay reached, freqAt fs0 decay reached + laplaceMinp, reached + 1) := hsearch
  -- The steps into the smallest frequencies are taken at once.
  obtain ⟨di, hdi, hfreq, hstart, hafter⟩ : ∃ di,
      (if freqAt fs0 decay reached + laplaceMinp ≤ laplaceMinp then
        (fm - startAt fs0 decay reached) / 2 else 0) = di ∧
      freqAt fs0 decay (reached + di) = freqAt fs0 decay reached ∧
      startAt fs0 decay (reached + di) = startAt fs0 decay reached + 2 * di ∧
      startAt fs0 decay (reached + di) ≤ fm ∧ fm < startAt fs0 decay (reached + di + 1) := by
    by_cases hzero : freqAt fs0 decay reached = 0
    · obtain ⟨hfreq, hstart⟩ := freqAt_of_zero hzero ((fm - startAt fs0 decay reached) / 2)
      refine ⟨_, if_pos (by omega), hfreq.trans hzero.symm, hstart, ?_, ?_⟩
      · omega
      · rw [startAt]
        omega
    · refine ⟨0, if_neg (by omega), rfl, rfl, hreached, ?_⟩
      exact hend.resolve_left hzero
  obtain rfl := step_unique hlow hhigh hafter.1 hafter.2
  rw [ecLaplaceDecode, if_pos hfs0, hsearch]
  dsimp only
  rw [hdi, hfreq, hstart, laplaceMinp]
  split_ifs
  all_goals
    dsimp only
    omega

/-- Every point of an interval decodes to its value. -/
theorem decode_of_mem {value : ℤ} {fm : ℕ} (hlow : (interval fs0 decay value).1 ≤ fm)
    (hhigh : fm < (interval fs0 decay value).2) :
    (ecLaplaceDecode fm fs0 decay).value = value := by
  obtain rfl | ⟨step, rfl⟩ | ⟨step, rfl⟩ : value = 0 ∨ (∃ step : ℕ, value = (step + 1 : ℕ)) ∨
      ∃ step, value = .negSucc step := by
    rcases value with (_ | step) | step
    · exact .inl rfl
    · exact .inr (.inl ⟨step, rfl⟩)
    · exact .inr (.inr ⟨step, rfl⟩)
  · have hbelow : ¬ fs0 ≤ fm := not_le.mpr hhigh
    rw [ecLaplaceDecode, if_neg hbelow]
  · have hlow : startAt fs0 decay step + (freqAt fs0 decay step + 1) ≤ fm := hlow
    rw [@decode_of_ladder fs0 decay fm step (by omega) hhigh, if_neg (not_lt.mpr hlow)]
    rfl
  · have hhigh : fm < startAt fs0 decay step + (freqAt fs0 decay step + 1) := hhigh
    have hnext : fm < startAt fs0 decay (step + 1) := by
      rw [startAt]
      omega
    rw [decode_of_ladder hlow hnext]
    omega

theorem interval_nonempty (hfs0 : 0 < fs0) (value : ℤ) :
    (interval fs0 decay value).1 < (interval fs0 decay value).2 := by
  rcases value with (_ | step) | step
  · exact hfs0
  · show startAt fs0 decay step + (freqAt fs0 decay step + 1) < startAt fs0 decay (step + 1)
    rw [startAt]
    omega
  · exact Nat.lt_add_of_pos_right (Nat.succ_pos _)

theorem interval_pos (step : ℕ) : interval fs0 decay (step + 1) =
    (startAt fs0 decay step + (freqAt fs0 decay step + 1), startAt fs0 decay (step + 1)) := rfl

theorem interval_neg (step : ℕ) : interval fs0 decay (-(step + 1)) =
    (startAt fs0 decay step, startAt fs0 decay step + (freqAt fs0 decay step + 1)) := by
  rfl

/-- The intervals of the two values `di` steps into the smallest frequencies. -/
theorem interval_tail {reached : ℕ} (hsmall : freqAt fs0 decay reached = 0) (di : ℕ) :
    interval fs0 decay (-((reached + 1 : ℕ) + di)) =
        (startAt fs0 decay reached + 2 * di, startAt fs0 decay reached + 2 * di + 1) ∧
      interval fs0 decay ((reached + 1 : ℕ) + di) =
        (startAt fs0 decay reached + (2 * di + 1),
          startAt fs0 decay reached + (2 * di + 1) + 1) := by
  obtain ⟨hfreq, hstart⟩ := freqAt_of_zero hsmall di
  have hvalue : ((reached + 1 : ℕ) : ℤ) + di = ((reached + di : ℕ) : ℤ) + 1 := by omega
  rw [hvalue, interval_neg, interval_pos, startAt, hfreq, hstart]
  exact ⟨rfl, rfl⟩

/-- How far the encoder goes into the smallest frequencies: as far as there is room. -/
theorem tail_steps {start left reached : ℕ} {s : ℤ} (hs : s = 0 ∨ s = -1)
    (hstart : start + 2 ≤ 2 ^ 15) (hle : reached ≤ left) :
    ∃ di : ℕ, min (((left + 1 : ℕ) : ℤ) - (reached + 1 : ℕ))
        ((2 ^ 15 - start + 1 - 1 - s) / 2 - 1) = di ∧
      start + 2 * di + 2 + s ≤ 2 ^ 15 ∧
        (start ≤ 32736 + 2 * reached → left < 16 → reached + di = left) := by
  refine ⟨(min (((left + 1 : ℕ) : ℤ) - (reached + 1 : ℕ))
    ((2 ^ 15 - start + 1 - 1 - s) / 2 - 1)).toNat, ?_, ?_, ?_⟩
  · omega
  · omega
  · omega

/-- The encoder codes the interval of the value it reports, which is in the range, and reports the
values of the first sixteen magnitudes as they are. -/
theorem encode_spec (hfs0 : 0 < fs0) (hfs0' : fs0 ≤ 32736) (hdecay : decay ≤ 11456) (value : ℤ) :
    let coded := ecLaplaceEncode value fs0 decay
    (coded.fl, coded.fh) = interval fs0 decay coded.value ∧ coded.fh ≤ laplaceFt ∧
      (value.natAbs ≤ 16 → coded.value = value) := by
  by_cases hzero : value = 0
  · subst hzero
    exact ⟨rfl, by rw [laplaceFt]; exact hfs0'.trans (by decide), fun _ ↦ rfl⟩
  obtain ⟨left, hleft⟩ : ∃ left, value.natAbs = left + 1 :=
    Nat.exists_eq_succ_of_ne_zero (Int.natAbs_ne_zero.mpr hzero)
  obtain ⟨reached, -, hle, hend, hpositive, hsearch⟩ := @encodeSearch_spec fs0 decay left 0
  have hsearch : encodeSearch decay left fs0 (ecLaplaceGetFreq1 fs0 decay) 1 =
      (startAt fs0 decay reached, freqAt fs0 decay reached, reached + 1) := hsearch
  simp only [ecLaplaceEncode, if_neg hzero, hleft, Nat.add_sub_cancel, hsearch]
  have hroom := startAt_add_two_le hfs0 hfs0' hdecay fun earlier ↦
    hpositive earlier (Nat.zero_le earlier)
  have hfirst := @startAt_le fs0 decay hfs0' hdecay reached
  rw [laplaceFt] at hroom ⊢
  by_cases hsmall : freqAt fs0 decay reached = 0
  · rw [if_pos hsmall]
    by_cases hneg : value < 0
    · simp only [if_pos hneg, laplaceMinp, Nat.cast_one, Nat.cast_pow, Nat.cast_ofNat]
      obtain ⟨di, hdi, hfits, hexact⟩ := tail_steps (.inr rfl) hroom (by omega : reached ≤ left)
      have hfl : (startAt fs0 decay reached + (2 * (di : ℤ) + 1 + -1) * 1).toNat =
          startAt fs0 decay reached + 2 * di := by omega
      rw [hdi, hfl, (interval_tail hsmall di).1]
      refine ⟨Prod.ext rfl (by dsimp only; omega), by omega, fun hsixteen ↦ ?_⟩
      have hreached := hexact hfirst (by omega)
      omega
    · simp only [if_neg hneg, laplaceMinp, Nat.cast_one, Nat.cast_pow, Nat.cast_ofNat]
      obtain ⟨di, hdi, hfits, hexact⟩ := tail_steps (.inl rfl) hroom (by omega : reached ≤ left)
      have hfl : (startAt fs0 decay reached + (2 * (di : ℤ) + 1 + 0) * 1).toNat =
          startAt fs0 decay reached + (2 * di + 1) := by omega
      rw [hdi, hfl, (interval_tail hsmall di).2]
      refine ⟨Prod.ext rfl (by dsimp only; omega), by omega, fun hsixteen ↦ ?_⟩
      have hreached := hexact hfirst (by omega)
      omega
  · rw [if_neg hsmall]
    have hnext := @startAt_add_two_le fs0 decay hfs0 hfs0' hdecay (reached + 1) fun earlier hlt ↦ by
      rcases Nat.lt_succ_iff_lt_or_eq.mp hlt with hlt | rfl
      · exact hpositive earlier (Nat.zero_le earlier) hlt
      · exact Nat.pos_of_ne_zero hsmall
    obtain rfl : reached = left := (hend.resolve_left hsmall).trans (Nat.zero_add left)
    rw [startAt, laplaceFt] at hnext
    refine ⟨?_, ?_, fun _ ↦ rfl⟩
    · by_cases hneg : value < 0
      · have hvalue : value = -((reached : ℤ) + 1) := by omega
        simp only [if_pos hneg]
        rw [hvalue, interval_neg]
        rfl
      · have hvalue : value = (reached : ℤ) + 1 := by omega
        simp only [if_neg hneg]
        rw [hvalue, interval_pos, startAt, laplaceMinp]
        exact Prod.ext rfl (by dsimp only; omega)
    · rw [laplaceMinp]
      split_ifs
      all_goals
        dsimp only
        omega

/-- The Laplace encoder and decoder agree. Assumes: a first frequency and a decay in the ranges of
the codec, and a value below `2³⁰`. An interval is not empty and in the range, every point of it
decodes to the value that is reported, different values have disjoint intervals, and the values up
to sixteen are reported as they are. -/
theorem laplace_coder_agrees (hfs0 : 1 ≤ fs0) (hfs0' : fs0 ≤ 32736) (_hdecay : 1 ≤ decay)
    (hdecay' : decay ≤ 11456) {value : ℤ} (_hvalue : value.natAbs < 2 ^ 30) :
    let coded := ecLaplaceEncode value fs0 decay
    coded.fl < coded.fh ∧ coded.fh ≤ 32768 ∧
      (∀ fm, coded.fl ≤ fm → fm < coded.fh →
        (ecLaplaceDecode fm fs0 decay).value = coded.value) ∧
      (∀ other : ℤ, other.natAbs < 2 ^ 30 →
        let coded' := ecLaplaceEncode other fs0 decay
        coded.value ≠ coded'.value → coded.fh ≤ coded'.fl ∨ coded'.fh ≤ coded.fl) ∧
      (value.natAbs ≤ 16 → coded.value = value) := by
  have hmem (value : ℤ) {fm : ℕ} (hlow : (ecLaplaceEncode value fs0 decay).fl ≤ fm)
      (hhigh : fm < (ecLaplaceEncode value fs0 decay).fh) :
      (ecLaplaceDecode fm fs0 decay).value = (ecLaplaceEncode value fs0 decay).value := by
    have hinterval := (encode_spec hfs0 hfs0' hdecay' value).1
    exact decode_of_mem ((congrArg Prod.fst hinterval).symm.trans_le hlow)
      (hhigh.trans_eq (congrArg Prod.snd hinterval))
  have hnonempty (value : ℤ) :
      (ecLaplaceEncode value fs0 decay).fl < (ecLaplaceEncode value fs0 decay).fh := by
    have hinterval := (encode_spec hfs0 hfs0' hdecay' value).1
    exact (congrArg Prod.fst hinterval).trans_lt
      ((interval_nonempty hfs0 _).trans_eq (congrArg Prod.snd hinterval).symm)
  obtain ⟨-, hrange, hexact⟩ := encode_spec hfs0 hfs0' hdecay' value
  refine ⟨hnonempty value, hrange, fun fm ↦ hmem value, fun other _ hne ↦ ?_, hexact⟩
  by_contra hoverlap
  rw [not_or, not_le, not_le] at hoverlap
  have hpoint := hmem value (le_max_left _ (ecLaplaceEncode other fs0 decay).fl)
    (max_lt (hnonempty value) hoverlap.1)
  exact hne (hpoint.symm.trans (hmem other (le_max_right _ _)
    (max_lt hoverlap.2 (hnonempty other))))

/-- A loud band, past the decaying part. -/
theorem laplace_coder_agrees_loud :
    let coded := ecLaplaceEncode (-300) 12800 1920
    coded.fl < coded.fh ∧ coded.fh ≤ 32768 ∧
      (∀ fm, coded.fl ≤ fm → fm < coded.fh →
        (ecLaplaceDecode fm 12800 1920).value = coded.value) ∧
      (∀ other : ℤ, other.natAbs < 2 ^ 30 →
        let coded' := ecLaplaceEncode other 12800 1920
        coded.value ≠ coded'.value → coded.fh ≤ coded'.fl ∨ coded'.fh ≤ coded.fl) ∧
      ((-300 : ℤ).natAbs ≤ 16 → coded.value = -300) :=
  laplace_coder_agrees (by decide) (by decide) (by decide) (by decide) (by decide)

end SiphonRtp.Codec.Laplace
