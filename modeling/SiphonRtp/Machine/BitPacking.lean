import Mathlib.Data.Nat.Digits.Defs

/-!
# Codewords packed least significant bit first

Codewords of a fixed width fill octets from the least significant bit upward. Both directions keep
an accumulator with a number of bits in it: `packFrom` puts a codeword above those bits and takes
whole octets from below, `unpackFrom` puts octets above them and takes codewords from below.

Read as numbers the two sides are the same: the octets in base 256 are the codewords in base
`2 ^ bits` (`value_packFrom`), and `unpackFrom` takes the digits of that number one by one
(`unpackFrom_of_value`). From the two follows the round trip (`unpack_pack`).
-/

set_option autoImplicit false

namespace SiphonRtp.Machine.BitPacking

/-! ### The two directions -/

/-- The whole octets of the accumulator, and what is left in it. -/
def drain (acc accBits : ℕ) : List UInt8 × ℕ × ℕ :=
  if 8 ≤ accBits then
    let later := drain (acc >>> 8) (accBits - 8)
    (UInt8.ofNat acc :: later.1, later.2)
  else ([], acc, accBits)
termination_by accBits

/-- The octets of the codewords, above what the accumulator holds. The last octet is filled up with
zeros. -/
def packFrom (bits : ℕ) : List ℕ → ℕ → ℕ → List UInt8
  | [], acc, accBits => if 0 < accBits then [UInt8.ofNat acc] else []
  | code :: rest, acc, accBits =>
    let drained := drain (acc ||| code <<< accBits) (accBits + bits)
    drained.1 ++ packFrom bits rest drained.2.1 drained.2.2

def pack (bits : ℕ) (codes : List ℕ) : List UInt8 := packFrom bits codes 0 0

/-- Octets go into the accumulator until it holds a codeword; `none` where they run out. -/
def fill (bits : ℕ) : List UInt8 → ℕ → ℕ → Option (List UInt8 × ℕ × ℕ)
  | [], acc, accBits => if accBits < bits then none else some ([], acc, accBits)
  | octet :: rest, acc, accBits =>
    if accBits < bits then fill bits rest (acc ||| octet.toNat <<< accBits) (accBits + 8)
    else some (octet :: rest, acc, accBits)

def unpackFrom (bits : ℕ) : ℕ → List UInt8 → ℕ → ℕ → Option (List ℕ)
  | 0, _, _, _ => some []
  | count + 1, octets, acc, accBits =>
    (fill bits octets acc accBits).bind fun filled ↦
      (unpackFrom bits count filled.1 (filled.2.1 >>> bits) (filled.2.2 - bits)).map
        ((filled.2.1 &&& (2 ^ bits - 1)) :: ·)

/-- As many codewords as the octets hold whole. -/
def unpack (bits : ℕ) (octets : List UInt8) : Option (List ℕ) :=
  unpackFrom bits (octets.length * 8 / bits) octets 0 0

/-! ### The numbers -/

/-- Octets as a number, the first one lowest. -/
def value (octets : List UInt8) : ℕ := Nat.ofDigits 256 (octets.map UInt8.toNat)

@[simp] theorem value_nil : value [] = 0 := rfl

@[simp] theorem value_cons (octet : UInt8) (rest : List UInt8) :
    value (octet :: rest) = octet.toNat + 256 * value rest := by
  simp [value, Nat.ofDigits_cons]

theorem value_append (first second : List UInt8) :
    value (first ++ second) = value first + 2 ^ (8 * first.length) * value second := by
  simp [value, Nat.ofDigits_append, pow_mul]

/-- What lies above the bits of the accumulator is added to it. -/
theorem or_shiftLeft_of_lt {acc accBits : ℕ} (hacc : acc < 2 ^ accBits) (above : ℕ) :
    acc ||| above <<< accBits = acc + 2 ^ accBits * above := by
  rw [Nat.or_comm, Nat.shiftLeft_eq, mul_comm, ← Nat.two_pow_add_eq_or_of_lt hacc, add_comm]

theorem add_lt_two_pow {acc accBits bits above : ℕ} (hacc : acc < 2 ^ accBits)
    (habove : above < 2 ^ bits) : acc + 2 ^ accBits * above < 2 ^ (accBits + bits) := by
  have hstep : 2 ^ accBits * (above + 1) ≤ 2 ^ accBits * 2 ^ bits := Nat.mul_le_mul_left _ habove
  rw [pow_add]
  linarith [mul_add_one (2 ^ accBits) above]

theorem drain_spec {acc accBits : ℕ} (hacc : acc < 2 ^ accBits) :
    value (drain acc accBits).1 +
        2 ^ (8 * (drain acc accBits).1.length) * (drain acc accBits).2.1 = acc ∧
      (drain acc accBits).2.1 < 2 ^ (drain acc accBits).2.2 ∧
      (drain acc accBits).2.2 < 8 ∧
      8 * (drain acc accBits).1.length + (drain acc accBits).2.2 = accBits := by
  fun_induction drain acc accBits with
  | case1 acc accBits hwhole later ih =>
    have hshift : acc >>> 8 < 2 ^ (accBits - 8) := by
      rw [Nat.shiftRight_eq_div_pow, Nat.div_lt_iff_lt_mul (by norm_num), ← pow_add]
      rwa [Nat.sub_add_cancel hwhole]
    obtain ⟨hvalue, hleft, hfew, hcount⟩ := ih hshift
    change value later.1 + 2 ^ (8 * later.1.length) * later.2.1 = acc >>> 8 at hvalue
    change 8 * later.1.length + later.2.2 = accBits - 8 at hcount
    have hdiv := Nat.mod_add_div acc 256
    rw [Nat.shiftRight_eq_div_pow] at hvalue
    refine ⟨?_, hleft, hfew, ?_⟩
    · simp only [List.length_cons, Nat.mul_add, pow_add]
      calc acc % 2 ^ 8 + 256 * value later.1 + 2 ^ (8 * later.1.length) * 2 ^ (8 * 1) * later.2.1
        _ = acc % 2 ^ 8 + 256 * (value later.1 + 2 ^ (8 * later.1.length) * later.2.1) := by ring
        _ = acc := by rw [hvalue]; exact hdiv
    · simp only [List.length_cons]
      omega
  | case2 acc accBits hfew =>
    exact ⟨by simp, hacc, not_le.mp hfew, by simp⟩

/-- The octets are the number of the codewords, above what the accumulator holds, and as many as
its bits need. -/
theorem value_packFrom {bits : ℕ} {codes : List ℕ} (hcodes : ∀ code ∈ codes, code < 2 ^ bits)
    {acc accBits : ℕ} (hacc : acc < 2 ^ accBits) (hfew : accBits < 8) :
    value (packFrom bits codes acc accBits) = acc + 2 ^ accBits * Nat.ofDigits (2 ^ bits) codes ∧
      (packFrom bits codes acc accBits).length = (accBits + bits * codes.length + 7) / 8 := by
  induction codes generalizing acc accBits with
  | nil =>
    have hoctet : acc < 256 := hacc.trans_le (Nat.pow_le_pow_right (by norm_num) hfew.le)
    rw [packFrom]
    split_ifs with hsome
    · refine ⟨by simp [Nat.mod_eq_of_lt hoctet], ?_⟩
      simp only [List.length_singleton, List.length_nil]
      omega
    · obtain rfl : accBits = 0 := by omega
      obtain rfl : acc = 0 := by simpa using hacc
      simp
  | cons code rest ih =>
    have hcode := hcodes code (by simp)
    obtain ⟨hvalue, hleft, hfew', hcount⟩ := drain_spec (add_lt_two_pow hacc hcode)
    obtain ⟨ihvalue, ihlength⟩ := ih (fun c hc ↦ hcodes c (by simp [hc])) hleft hfew'
    rw [packFrom, or_shiftLeft_of_lt hacc]
    refine ⟨?_, ?_⟩
    · have hpow : 2 ^ accBits * 2 ^ bits =
          2 ^ (8 * (drain (acc + 2 ^ accBits * code) (accBits + bits)).1.length) *
            2 ^ (drain (acc + 2 ^ accBits * code) (accBits + bits)).2.2 := by
        rw [← pow_add, ← pow_add, hcount]
      rw [value_append, ihvalue, mul_add, ← add_assoc, hvalue, ← mul_assoc, ← hpow,
        Nat.ofDigits_cons]
      ring
    · rw [List.length_append, List.length_cons, Nat.mul_add]
      omega

theorem fill_spec {bits : ℕ} {octets : List UInt8} {acc accBits : ℕ} (hacc : acc < 2 ^ accBits)
    (henough : bits ≤ accBits + 8 * octets.length) :
    ∃ rest acc' accBits', fill bits octets acc accBits = some (rest, acc', accBits') ∧
      acc' < 2 ^ accBits' ∧ bits ≤ accBits' ∧
      accBits' + 8 * rest.length = accBits + 8 * octets.length ∧
      acc' + 2 ^ accBits' * value rest = acc + 2 ^ accBits * value octets := by
  induction octets generalizing acc accBits with
  | nil =>
    have hheld : ¬ accBits < bits := by simpa using henough
    exact ⟨[], acc, accBits, by rw [fill, if_neg hheld], hacc, by omega, rfl, rfl⟩
  | cons octet rest ih =>
    rw [fill]
    split_ifs with hshort
    · rw [or_shiftLeft_of_lt hacc]
      have hmore : bits ≤ accBits + 8 + 8 * rest.length := by
        simp only [List.length_cons] at henough
        omega
      obtain ⟨rest', acc', accBits', hfill, hacc', hbits, hcount, hvalue⟩ :=
        ih (add_lt_two_pow hacc octet.toNat_lt) hmore
      refine ⟨rest', acc', accBits', hfill, hacc', hbits, ?_, ?_⟩
      · simp only [List.length_cons]
        omega
      · rw [hvalue, value_cons]
        ring
    · exact ⟨octet :: rest, acc, accBits, rfl, hacc, by omega, rfl, rfl⟩

section Unpack

variable {bits : ℕ}

/-- The lowest codeword of the accumulator is taken off the number. -/
theorem take_code (acc above : ℕ) {accBits : ℕ} (hbits : bits ≤ accBits) :
    acc &&& (2 ^ bits - 1) = (acc + 2 ^ accBits * above) % 2 ^ bits ∧
      acc >>> bits + 2 ^ (accBits - bits) * above = (acc + 2 ^ accBits * above) / 2 ^ bits := by
  have hsplit : 2 ^ accBits * above = 2 ^ bits * (2 ^ (accBits - bits) * above) := by
    rw [← mul_assoc, ← pow_add, Nat.add_sub_cancel' hbits]
  rw [hsplit, Nat.add_mul_mod_self_left, Nat.add_mul_div_left _ _ (by positivity),
    Nat.shiftRight_eq_div_pow, Nat.and_two_pow_sub_one_eq_mod]
  exact ⟨rfl, rfl⟩

theorem shiftRight_lt {acc accBits : ℕ} (hacc : acc < 2 ^ accBits) (hbits : bits ≤ accBits) :
    acc >>> bits < 2 ^ (accBits - bits) := by
  rw [Nat.shiftRight_eq_div_pow, Nat.div_lt_iff_lt_mul (by positivity), ← pow_add,
    Nat.sub_add_cancel hbits]
  exact hacc

/-- As long as the octets hold enough bits, codewords of the width come out. -/
theorem unpackFrom_isSome {count : ℕ} {octets : List UInt8} {acc accBits : ℕ}
    (hacc : acc < 2 ^ accBits) (henough : bits * count ≤ accBits + 8 * octets.length) :
    ∃ codes, unpackFrom bits count octets acc accBits = some codes ∧ codes.length = count ∧
      ∀ code ∈ codes, code < 2 ^ bits := by
  induction count generalizing octets acc accBits with
  | zero => exact ⟨[], rfl, rfl, by simp⟩
  | succ count ih =>
    rw [Nat.mul_add_one] at henough
    obtain ⟨rest, acc', accBits', hfill, hacc', hbits, hcount, -⟩ :=
      fill_spec hacc (show bits ≤ accBits + 8 * octets.length by omega)
    have hmore : bits * count ≤ accBits' - bits + 8 * rest.length := by omega
    obtain ⟨codes, hcodes, hlength, hsmall⟩ := ih (shiftRight_lt hacc' hbits) hmore
    refine ⟨(acc' &&& (2 ^ bits - 1)) :: codes, by simp [unpackFrom, hfill, hcodes],
      by simp [hlength], ?_⟩
    intro code hcode
    rcases List.mem_cons.mp hcode with rfl | hcode
    · rw [Nat.and_two_pow_sub_one_eq_mod]
      exact Nat.mod_lt _ (by positivity)
    · exact hsmall code hcode

/-- Unpacking takes the digits of the number. -/
theorem unpackFrom_of_value {codes : List ℕ} (hcodes : ∀ code ∈ codes, code < 2 ^ bits)
    {octets : List UInt8} {acc accBits : ℕ} (hacc : acc < 2 ^ accBits)
    (henough : bits * codes.length ≤ accBits + 8 * octets.length)
    (hvalue : acc + 2 ^ accBits * value octets = Nat.ofDigits (2 ^ bits) codes) :
    unpackFrom bits codes.length octets acc accBits = some codes := by
  induction codes generalizing octets acc accBits with
  | nil => rfl
  | cons code later ih =>
    rw [List.length_cons, Nat.mul_add_one] at henough
    obtain ⟨rest, acc', accBits', hfill, hacc', hbits, hcount, hsame⟩ :=
      fill_spec hacc (show bits ≤ accBits + 8 * octets.length by omega)
    have hcode := hcodes code (by simp)
    obtain ⟨hlow, hhigh⟩ := take_code acc' (value rest) hbits
    rw [hsame, hvalue, Nat.ofDigits_cons] at hlow hhigh
    rw [Nat.add_mul_mod_self_left, Nat.mod_eq_of_lt hcode] at hlow
    rw [Nat.add_mul_div_left _ _ (by positivity), Nat.div_eq_of_lt hcode, zero_add] at hhigh
    have hmore : bits * later.length ≤ accBits' - bits + 8 * rest.length := by omega
    have hlater := ih (fun c hc ↦ hcodes c (by simp [hc])) (shiftRight_lt hacc' hbits) hmore hhigh
    simp only [List.length_cons, unpackFrom, hfill, Option.bind_some, hlow, hlater, Option.map_some]

theorem unpack_isSome (bits : ℕ) (octets : List UInt8) :
    ∃ codes, unpack bits octets = some codes ∧ codes.length = octets.length * 8 / bits ∧
      ∀ code ∈ codes, code < 2 ^ bits :=
  unpackFrom_isSome (by simp) (by have := Nat.mul_div_le (octets.length * 8) bits; omega)

theorem length_pack {codes : List ℕ} (hcodes : ∀ code ∈ codes, code < 2 ^ bits) :
    (pack bits codes).length = (bits * codes.length + 7) / 8 := by
  simpa [pack] using (value_packFrom hcodes (show 0 < 2 ^ 0 by simp) (by simp)).2

/-- Codewords that fill whole octets come back. -/
theorem unpack_pack (hpos : 0 < bits) {codes : List ℕ} (hcodes : ∀ code ∈ codes, code < 2 ^ bits)
    (hwhole : codes.length * bits % 8 = 0) : unpack bits (pack bits codes) = some codes := by
  have hvalue := (value_packFrom hcodes (show 0 < 2 ^ 0 by simp) (by simp)).1
  have hoctets : (pack bits codes).length * 8 = codes.length * bits := by
    rw [length_pack hcodes, mul_comm bits]
    omega
  rw [unpack, hoctets, Nat.mul_div_cancel _ hpos]
  refine unpackFrom_of_value hcodes (by simp) ?_ (by simpa [pack] using hvalue)
  rw [mul_comm bits]
  omega

end Unpack

end SiphonRtp.Machine.BitPacking
