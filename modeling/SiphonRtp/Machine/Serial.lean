import Mathlib.Tactic.Ring

/-!
# Serial numbers

Sixteen-bit serial numbers (RFC 1982). The distance from one number to another is the signed value
of their difference, and a number that stands for an unbounded position is `UInt16.ofInt` of it.
Positions that lie in one window of 2^16 are told apart by their numbers (`eq_of_ofInt_eq`), and
distances of less than 2^15 are read off exactly (`serial_ofInt`).
-/

set_option autoImplicit false

namespace SiphonRtp.Machine

/-- A sixteen-bit difference as a signed number. -/
def serial (difference : UInt16) : ℤ :=
  if difference.toNat < 2 ^ 15 then difference.toNat else (difference.toNat : ℤ) - 2 ^ 16

theorem toNat_ofInt16 (n : ℤ) : ((UInt16.ofInt n).toNat : ℤ) = n % 2 ^ 16 := by
  have hpos := Int.emod_nonneg n (show (2 : ℤ) ^ 16 ≠ 0 by decide)
  unfold UInt16.ofInt
  rw [UInt16.toNat_ofNat', Nat.mod_eq_of_lt (by omega)]
  exact Int.toNat_of_nonneg hpos

/-- A difference is the number of its distance. -/
theorem ofInt_serial (difference : UInt16) : UInt16.ofInt (serial difference) = difference := by
  apply UInt16.toNat_inj.mp
  have h := toNat_ofInt16 (serial difference)
  have hbound := difference.toNat_lt
  unfold serial at h ⊢
  split_ifs at h ⊢ <;> omega

/-- A distance of less than 2^15 is read off exactly. -/
theorem serial_ofInt {n : ℤ} (hlow : -2 ^ 15 ≤ n) (hhigh : n < 2 ^ 15) :
    serial (UInt16.ofInt n) = n := by
  have h := toNat_ofInt16 n
  unfold serial
  split_ifs <;> omega

/-- Numbers tell the positions of one window apart. -/
theorem eq_of_ofInt_eq {m n : ℤ} (hlow : m < n + 2 ^ 16) (hhigh : n < m + 2 ^ 16)
    (heq : UInt16.ofInt m = UInt16.ofInt n) : m = n := by
  have hm := toNat_ofInt16 m
  have hn := toNat_ofInt16 n
  rw [heq] at hm
  omega

theorem ofInt_sub16 (m n : ℤ) : UInt16.ofInt (m - n) = UInt16.ofInt m - UInt16.ofInt n := by
  rw [Int.sub_eq_add_neg, UInt16.ofInt_add, UInt16.ofInt_neg]
  exact (UInt16.sub_eq_add_neg _ _).symm

/-- The distance between the numbers of two positions less than 2^15 apart. -/
theorem serial_sub_ofInt (origin : UInt16) {m n : ℤ} (hlow : -2 ^ 15 ≤ m - n)
    (hhigh : m - n < 2 ^ 15) :
    serial ((origin + UInt16.ofInt m) - (origin + UInt16.ofInt n)) = m - n := by
  have hsub : (origin + UInt16.ofInt m) - (origin + UInt16.ofInt n) = UInt16.ofInt (m - n) := by
    rw [ofInt_sub16]
    grind
  rw [hsub, serial_ofInt hlow hhigh]

end SiphonRtp.Machine
