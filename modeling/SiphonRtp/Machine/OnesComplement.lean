import Mathlib.Data.Nat.ModEq

/-!
# One's-complement sums

The Internet checksum (RFC 1071) adds sixteen-bit words with end-around carry. Folding a sum gives
its remainder modulo `2 ^ 16 - 1`, with the remainder zero written as `2 ^ 16 - 1` unless the sum
itself is zero (`onesFold_eq`): sums that are congruent and not zero fold alike (`onesFold_congr`).
-/

set_option autoImplicit false

namespace SiphonRtp.Machine

/-- The carry above sixteen bits is added back until there is none. -/
def onesFold (sum : ℕ) : ℕ :=
  if sum / 2 ^ 16 ≠ 0 then onesFold (sum % 2 ^ 16 + sum / 2 ^ 16) else sum
termination_by sum
decreasing_by omega

theorem onesFold_eq (sum : ℕ) :
    onesFold sum = if sum = 0 then 0 else (sum - 1) % (2 ^ 16 - 1) + 1 := by
  induction sum using onesFold.induct with
  | case1 sum hcarry ih =>
    rw [onesFold, if_pos hcarry, ih]
    have hsum : sum % 2 ^ 16 + sum / 2 ^ 16 ≠ 0 := by omega
    rw [if_neg hsum, if_neg (by omega)]
    omega
  | case2 sum hcarry =>
    rw [onesFold]
    split_ifs <;> omega

theorem onesFold_lt (sum : ℕ) : onesFold sum < 2 ^ 16 := by
  rw [onesFold_eq]
  split_ifs <;> omega

theorem onesFold_pos {sum : ℕ} (hsum : 0 < sum) : 0 < onesFold sum := by
  rw [onesFold_eq, if_neg (by omega)]
  omega

/-- A folded sum is congruent to the sum. -/
theorem onesFold_mod (sum : ℕ) : onesFold sum % (2 ^ 16 - 1) = sum % (2 ^ 16 - 1) := by
  rw [onesFold_eq]
  split_ifs <;> omega

theorem onesFold_congr {first second : ℕ} (hfirst : 0 < first) (hsecond : 0 < second)
    (hmod : first % (2 ^ 16 - 1) = second % (2 ^ 16 - 1)) : onesFold first = onesFold second := by
  rw [onesFold_eq, onesFold_eq, if_neg (by omega), if_neg (by omega)]
  omega

end SiphonRtp.Machine
