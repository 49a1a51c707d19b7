import SiphonRtp.Machine.Octets

/-!
# Base64

`base64_encode` and `base64_decode` of `siphon-rtp-stun/src/turn.rs`: the standard alphabet, with
padding. Texts are octets here. Decoding gives back what was encoded (`base64Decode_encode`).
-/

set_option autoImplicit false

namespace SiphonRtp.Machine

/-- The letter of a value below 64 in `BASE64_ALPHABET`. -/
def base64Letter (value : ℕ) : UInt8 :=
  if value < 26 then UInt8.ofNat (0x41 + value)
  else if value < 52 then UInt8.ofNat (0x61 + (value - 26))
  else if value < 62 then UInt8.ofNat (0x30 + (value - 52))
  else if value = 62 then 0x2B
  else 0x2F

/-- `base64_encode`: three octets at a time, the last one or two padded with `=`. -/
def base64Encode : Bytes → Bytes
  | [] => []
  | [b0] =>
    let n := b0.toNat * 2 ^ 16
    [base64Letter (n / 2 ^ 18 % 64), base64Letter (n / 2 ^ 12 % 64), 0x3D, 0x3D]
  | [b0, b1] =>
    let n := b0.toNat * 2 ^ 16 + b1.toNat * 2 ^ 8
    [base64Letter (n / 2 ^ 18 % 64), base64Letter (n / 2 ^ 12 % 64),
      base64Letter (n / 2 ^ 6 % 64), 0x3D]
  | b0 :: b1 :: b2 :: rest =>
    let n := b0.toNat * 2 ^ 16 + b1.toNat * 2 ^ 8 + b2.toNat
    base64Letter (n / 2 ^ 18 % 64) :: base64Letter (n / 2 ^ 12 % 64) ::
      base64Letter (n / 2 ^ 6 % 64) :: base64Letter (n % 64) :: base64Encode rest

/-- The value of a letter. -/
def sextet (letter : UInt8) : Option ℕ :=
  if 0x41 ≤ letter ∧ letter ≤ 0x5A then some (letter.toNat - 0x41)
  else if 0x61 ≤ letter ∧ letter ≤ 0x7A then some (letter.toNat - 0x61 + 26)
  else if 0x30 ≤ letter ∧ letter ≤ 0x39 then some (letter.toNat - 0x30 + 52)
  else if letter = 0x2B then some 62
  else if letter = 0x2F then some 63
  else none

/-- The value of a letter or of padding, which may stand anywhere. -/
def sextetOrPad (letter : UInt8) : Option ℕ := if letter = 0x3D then some 0 else sextet letter

/-- One turn of `base64_decode` over four letters. -/
def base64Quartet (c0 c1 c2 c3 : UInt8) : Option Bytes :=
  let pad := ([c3, c2, c1, c0].takeWhile (· == 0x3D)).length
  if 2 < pad then none
  else
    (sextetOrPad c0).bind fun v0 ↦ (sextetOrPad c1).bind fun v1 ↦ (sextetOrPad c2).bind fun v2 ↦
      (sextetOrPad c3).map fun v3 ↦
        let n := v0 * 2 ^ 18 + v1 * 2 ^ 12 + v2 * 2 ^ 6 + v3
        [UInt8.ofNat (n / 2 ^ 16), UInt8.ofNat (n / 2 ^ 8), UInt8.ofNat n].take (3 - pad)

/-- `base64_decode`. -/
def base64Decode : Bytes → Option Bytes
  | [] => some []
  | c0 :: c1 :: c2 :: c3 :: rest =>
    (base64Quartet c0 c1 c2 c3).bind fun decoded ↦ (base64Decode rest).map (decoded ++ ·)
  | _ => none

theorem forall_mem_base64Encode {holds : UInt8 → Prop} (hpad : holds 0x3D)
    (hletters : ∀ value < 64, holds (base64Letter value)) (bytes : Bytes) :
    ∀ letter ∈ base64Encode bytes, holds letter := by
  have hletter (n : ℕ) : holds (base64Letter (n % 64)) := hletters _ (Nat.mod_lt n (by decide))
  induction bytes using base64Encode.induct with
  | case1 => simp [base64Encode]
  | case2 | case3 => simp [base64Encode, hletter, hpad]
  | case4 b0 b1 b2 rest ih => simpa [base64Encode, hletter] using ih

/-! ### Decoding what was encoded -/

theorem sextetOrPad_letter (n : ℕ) :
    sextetOrPad (base64Letter (n % 64)) = some (n % 64) ∧
      (base64Letter (n % 64) == 0x3D) = false := by
  have hall : ∀ value < 64, sextetOrPad (base64Letter value) = some value ∧
      (base64Letter value == 0x3D) = false := by
    decide
  exact hall _ (Nat.mod_lt n (by decide))

theorem ofNat_eq_octet {octet : UInt8} {n : ℕ} (hvalue : n % 256 = octet.toNat) :
    UInt8.ofNat n = octet := by
  rw [← UInt8.toNat_inj, UInt8.toNat_ofNat', hvalue]

theorem base64Quartet_of_values {c0 c1 c2 c3 : UInt8} {v0 v1 v2 v3 : ℕ}
    (h0 : sextetOrPad c0 = some v0) (h1 : sextetOrPad c1 = some v1) (h2 : sextetOrPad c2 = some v2)
    (h3 : sextetOrPad c3 = some v3) {pad : ℕ} (hle : pad ≤ 2)
    (hpad : ([c3, c2, c1, c0].takeWhile (· == 0x3D)).length = pad) {n : ℕ}
    (hn : v0 * 2 ^ 18 + v1 * 2 ^ 12 + v2 * 2 ^ 6 + v3 = n) :
    base64Quartet c0 c1 c2 c3 =
      some ([UInt8.ofNat (n / 2 ^ 16), UInt8.ofNat (n / 2 ^ 8), UInt8.ofNat n].take (3 - pad)) := by
  subst hn hpad
  rw [base64Quartet, if_neg (Nat.not_lt.mpr hle), h0, h1, h2, h3]
  rfl

/-- The letters of a group are the digits, to the base 64, of the number its octets make. -/
theorem base64Quartet_letters {n : ℕ} (hn : n < 2 ^ 24) :
    base64Quartet (base64Letter (n / 2 ^ 18 % 64)) (base64Letter (n / 2 ^ 12 % 64))
      (base64Letter (n / 2 ^ 6 % 64)) (base64Letter (n % 64)) =
        some [UInt8.ofNat (n / 2 ^ 16), UInt8.ofNat (n / 2 ^ 8), UInt8.ofNat n] := by
  exact base64Quartet_of_values (sextetOrPad_letter _).1 (sextetOrPad_letter _).1
    (sextetOrPad_letter _).1 (sextetOrPad_letter _).1 (Nat.zero_le 2)
    (by simp [List.takeWhile, sextetOrPad_letter]) (by omega)

theorem base64Quartet_letters_pad {n : ℕ} (hn : n < 2 ^ 24) (hlow : n % 64 = 0) :
    base64Quartet (base64Letter (n / 2 ^ 18 % 64)) (base64Letter (n / 2 ^ 12 % 64))
      (base64Letter (n / 2 ^ 6 % 64)) 0x3D =
        some [UInt8.ofNat (n / 2 ^ 16), UInt8.ofNat (n / 2 ^ 8)] := by
  exact base64Quartet_of_values (sextetOrPad_letter _).1 (sextetOrPad_letter _).1
    (sextetOrPad_letter _).1 rfl (show 1 ≤ 2 by decide)
    (by simp [sextetOrPad_letter]) (by omega)

theorem base64Quartet_letters_pads {n : ℕ} (hn : n < 2 ^ 24) (hlow : n % 2 ^ 12 = 0) :
    base64Quartet (base64Letter (n / 2 ^ 18 % 64)) (base64Letter (n / 2 ^ 12 % 64)) 0x3D 0x3D =
      some [UInt8.ofNat (n / 2 ^ 16)] := by
  exact base64Quartet_of_values (sextetOrPad_letter _).1 (sextetOrPad_letter _).1 rfl rfl
    (Nat.le_refl 2) (by simp [List.takeWhile, sextetOrPad_letter]) (by omega)

theorem base64Decode_encode (bytes : Bytes) : base64Decode (base64Encode bytes) = some bytes := by
  induction bytes using base64Encode.induct with
  | case1 => rfl
  | case2 b0 =>
    have hb0 := b0.toNat_lt
    rw [base64Encode, base64Decode, base64Quartet_letters_pads (by omega) (by omega)]
    simp [base64Decode]
  | case3 b0 b1 =>
    have hb0 := b0.toNat_lt
    have hb1 := b1.toNat_lt
    rw [base64Encode, base64Decode, base64Quartet_letters_pad (by omega) (by omega),
      ofNat_eq_octet (show _ = b0.toNat by omega), ofNat_eq_octet (show _ = b1.toNat by omega)]
    simp [base64Decode]
  | case4 b0 b1 b2 rest ih =>
    have hb0 := b0.toNat_lt
    have hb1 := b1.toNat_lt
    have hb2 := b2.toNat_lt
    rw [base64Encode, base64Decode, base64Quartet_letters (by omega), ih,
      ofNat_eq_octet (show _ = b0.toNat by omega), ofNat_eq_octet (show _ = b1.toNat by omega)]
    simp

end SiphonRtp.Machine
