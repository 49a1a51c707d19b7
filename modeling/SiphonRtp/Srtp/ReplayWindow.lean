import SiphonRtp.Machine.ReplayFilter

/-!
# The sliding replay window

`ReplayWindow` of `siphon-rtp-srtp/src/lib.rs` (RFC 3711 §3.3.2): a 64-packet window kept as one
`u64` bitmap below the highest recorded index, shared by SRTP (the estimated 48-bit index) and SRTCP
(the explicit 31-bit index). Indices are natural numbers; the code's `u64` never overflows, since
every index it is given has at most 48 bits.

`blocked` is the abstract filter a window implements, the set of indices it refuses, and
`blocked_record` the refinement: recording an index is `admitted` on that set. What the receivers of
this development need of the bitmap arithmetic is only that equation and where `top` moves.
-/

set_option autoImplicit false

namespace SiphonRtp.Srtp

open Machine

/-- `REPLAY_WINDOW`, the window width in packets. -/
def replayWindow : ℕ := 64

/-- Bit `j` of `mask` records that the index `top - j` has been received. `seen` stays false until
the first index is recorded. -/
structure ReplayWindow where
  top : ℕ := 0
  mask : BitVec 64 := 0
  seen : Bool := false
deriving DecidableEq, Repr

namespace ReplayWindow

/-- Would `index` be a replay: already recorded, or fallen out of the window. -/
def isReplay (window : ReplayWindow) (index : ℕ) : Bool :=
  if !window.seen || decide (index > window.top) then false
  else
    let delta := window.top - index
    decide (delta ≥ replayWindow) || (window.mask &&& (1#64 <<< delta)) != 0

/-- Record `index` as received and slide the window up to it. -/
def record (window : ReplayWindow) (index : ℕ) : ReplayWindow :=
  if !window.seen then { top := index, mask := 1, seen := true }
  else if index > window.top then
    let shift := index - window.top
    { window with
      -- a jump of a window or more clears all prior history
      mask := if shift ≥ replayWindow then 1 else (window.mask <<< shift) ||| 1
      top := index }
  else { window with mask := window.mask ||| (1#64 <<< (window.top - index)) }

/-- The highest index recorded, or `none` before any packet authenticated. -/
def highest (window : ReplayWindow) : Option ℕ :=
  if window.seen then some window.top else none

/-- The window after an HA failover: `index` and every index below it count as received. -/
def closeAt (index : ℕ) : ReplayWindow :=
  { top := index, mask := BitVec.allOnes 64, seen := true }

/-- The window anchored at `index`, with only that index marked received. -/
def anchor (index : ℕ) : ReplayWindow := { top := index, mask := 1, seen := true }

/-! ### The filter a window implements -/

/-- The indices a window refuses. -/
def blocked (window : ReplayWindow) : Set ℕ := {index | window.isReplay index = true}

theorem mem_blocked {window : ReplayWindow} {index : ℕ} :
    index ∈ window.blocked ↔ window.isReplay index = true := Iff.rfl

theorem and_bit_ne_zero {mask : BitVec 64} {j : ℕ} (hj : j < 64) :
    ((mask &&& (1#64 <<< j)) != 0) = mask.getLsbD j := by
  have htwo : (1#64 <<< j) = BitVec.twoPow 64 j := (BitVec.twoPow_eq 64 j).symm
  rw [htwo, BitVec.and_twoPow]
  rcases hbit : mask.getLsbD j with _ | _
  · simp
  · simp only [bne_iff_ne]
    intro hzero
    have hset := congrArg (fun bits : BitVec 64 ↦ bits.getLsbD j) hzero
    simp [hj] at hset

theorem isReplay_iff {window : ReplayWindow} {index : ℕ} :
    window.isReplay index = true ↔ window.seen = true ∧ index ≤ window.top ∧
      (index + replayWindow ≤ window.top ∨ window.mask.getLsbD (window.top - index) = true) := by
  rcases hseen : window.seen with _ | _
  · simp [isReplay, hseen]
  · by_cases hnewer : index > window.top
    · simp [isReplay, hnewer]
    · have hle : index ≤ window.top := Nat.le_of_not_gt hnewer
      by_cases hold : window.top - index ≥ replayWindow
      · have hfar : index + replayWindow ≤ window.top := by omega
        simp [isReplay, hseen, hnewer, hle, hold, hfar]
      · have hnear : ¬ index + replayWindow ≤ window.top := by omega
        have hbit : window.top - index < 64 := Nat.lt_of_not_ge hold
        simp only [isReplay, hseen, hnewer, hold, hle, hnear, Bool.not_true, decide_false,
          Bool.false_eq_true, ↓reduceIte, Bool.false_or, true_and, false_or]
        rw [and_bit_ne_zero hbit]

@[simp] theorem blocked_default : ({} : ReplayWindow).blocked = ∅ := by
  ext index
  simp [mem_blocked, isReplay]

theorem getLsbD_one (j : ℕ) : (1 : BitVec 64).getLsbD j = decide (j = 0) := by
  simp

theorem blocked_anchor (index : ℕ) : (anchor index).blocked = admitted replayWindow ∅ index := by
  ext i
  rw [mem_blocked, isReplay_iff, mem_admitted]
  simp only [anchor, getLsbD_one, true_and, decide_eq_true_eq, Set.mem_empty_iff_false, false_or]
  omega

/-! ### Recording an index -/

theorem record_of_not_seen {window : ReplayWindow} (hseen : window.seen = false) (index : ℕ) :
    window.record index = anchor index := by
  simp [record, hseen, anchor]

theorem record_of_newer {window : ReplayWindow} {index : ℕ} (hseen : window.seen = true)
    (hnewer : window.top < index) :
    window.record index =
      { top := index
        mask := if index - window.top ≥ replayWindow then 1
          else (window.mask <<< (index - window.top)) ||| 1
        seen := true } := by
  simp [record, hseen, hnewer]

theorem record_of_older {window : ReplayWindow} {index : ℕ} (hseen : window.seen = true)
    (holder : index ≤ window.top) :
    window.record index =
      { window with mask := window.mask ||| (1#64 <<< (window.top - index)) } := by
  simp [record, hseen, Nat.not_lt.mpr holder]

@[simp] theorem seen_record (window : ReplayWindow) (index : ℕ) :
    (window.record index).seen = true := by
  rcases hseen : window.seen with _ | _
  · simp [record_of_not_seen hseen, anchor]
  · by_cases hnewer : window.top < index
    · rw [record_of_newer hseen hnewer]
    · rw [record_of_older hseen (Nat.le_of_not_gt hnewer)]
      exact hseen

/-- The bit of an index below a slid window is the bit it had before. -/
theorem getLsbD_slide {mask : BitVec 64} {shift j : ℕ} (hj : j < 64) :
    ((mask <<< shift) ||| 1).getLsbD j = true ↔
      j = 0 ∨ shift ≤ j ∧ mask.getLsbD (j - shift) = true := by
  simp only [BitVec.getLsbD_or, BitVec.getLsbD_shiftLeft, getLsbD_one, hj, decide_true,
    Bool.true_and, Bool.or_eq_true, Bool.and_eq_true, Bool.not_eq_true', decide_eq_false_iff_not,
    decide_eq_true_eq, Nat.not_lt]
  exact or_comm

theorem getLsbD_mark {mask : BitVec 64} {bit j : ℕ} (hj : j < 64) :
    (mask ||| (1#64 <<< bit)).getLsbD j = true ↔ mask.getLsbD j = true ∨ j = bit := by
  rw [← BitVec.twoPow_eq, BitVec.getLsbD_or, BitVec.getLsbD_twoPow]
  simp only [Bool.or_eq_true, Bool.and_eq_true, decide_eq_true_eq]
  constructor
  · rintro (hmask | ⟨-, rfl⟩)
    · exact Or.inl hmask
    · exact Or.inr rfl
  · rintro (hmask | rfl)
    · exact Or.inl hmask
    · exact Or.inr ⟨hj, rfl⟩

/-- Recording an index is `admitted` on the filter the window implements. -/
theorem blocked_record (window : ReplayWindow) (index : ℕ) :
    (window.record index).blocked = admitted replayWindow window.blocked index := by
  rcases hseen : window.seen with _ | _
  · have hempty : window.blocked = ∅ := by
      ext i
      simp [mem_blocked, isReplay, hseen]
    rw [record_of_not_seen hseen, hempty, blocked_anchor]
  · ext i
    rw [mem_admitted, mem_blocked, mem_blocked, isReplay_iff, isReplay_iff]
    by_cases hnewer : window.top < index
    · rw [record_of_newer hseen hnewer]
      by_cases hfar : i + 64 ≤ index
      · have hi : i ≤ index := by omega
        exact iff_of_true ⟨rfl, hi, Or.inl hfar⟩ (Or.inr (Or.inr hfar))
      · by_cases hi : i ≤ index
        · -- inside the new window: the bit is the old one, moved up by the slide
          have hbit : index - i < 64 := by omega
          by_cases hjump : index - window.top ≥ replayWindow
          · simp only [hjump, ↓reduceIte, getLsbD_one, decide_eq_true_eq, true_and]
            omega
          · have hmoved : index - i - (index - window.top) = window.top - i := by omega
            simp only [hjump, ↓reduceIte, getLsbD_slide hbit, hmoved, hseen, true_and]
            rcases window.mask.getLsbD (window.top - i) with _ | _ <;>
              simp only [Bool.false_eq_true, and_false, and_true, or_false, or_true] <;> omega
        · exact iff_of_false (fun hblocked ↦ hi hblocked.2.1) (by omega)
    · have holder : index ≤ window.top := Nat.le_of_not_gt hnewer
      rw [record_of_older hseen holder]
      by_cases hfar : i + 64 ≤ window.top
      · have hi : i ≤ window.top := by omega
        exact iff_of_true ⟨hseen, hi, Or.inl hfar⟩ (Or.inl ⟨hseen, hi, Or.inl hfar⟩)
      · by_cases hi : i ≤ window.top
        · have hbit : window.top - i < 64 := by omega
          simp only [getLsbD_mark hbit, hseen, true_and]
          rcases window.mask.getLsbD (window.top - i) with _ | _ <;>
            simp only [Bool.false_eq_true, false_or, true_or, or_false, or_true, and_true] <;> omega
        · exact iff_of_false (fun hblocked ↦ hi hblocked.2.1) (by omega)

/-- A recorded index above the top becomes the top. -/
theorem top_record_of_newer {window : ReplayWindow} {index : ℕ} (hseen : window.seen = true)
    (hnewer : window.top < index) : (window.record index).top = index := by
  rw [record_of_newer hseen hnewer]

/-- A recorded index at or below the top leaves the top alone. -/
theorem top_record_of_older {window : ReplayWindow} {index : ℕ} (hseen : window.seen = true)
    (holder : index ≤ window.top) : (window.record index).top = window.top := by
  rw [record_of_older hseen holder]

end ReplayWindow

end SiphonRtp.Srtp
