import SiphonRtp.Machine.Octets

/-!
# Hex text of HA snapshots

`to_hex` and `from_hex` of `siphon-rtp-engine/src/ha.rs`. Text is its UTF-8 octets. The reader takes
slices of two octets, and one that ends inside a character panics.

What the writer writes, the reader reads back (`fromHex_toHex`). The reader takes more than that:
upper case, and a plus sign in the place of a high digit.
-/

set_option autoImplicit false

namespace SiphonRtp.Engine

open Machine

/-- The lower-case digit of a nibble. -/
def hexDigit (nibble : ℕ) : UInt8 :=
  if nibble < 10 then UInt8.ofNat (48 + nibble) else UInt8.ofNat (87 + nibble)

/-- Encode octets as lower-case hex, two digits each. -/
def toHex (bytes : Bytes) : Bytes :=
  bytes.flatMap fun octet ↦ [hexDigit (octet.toNat / 16), hexDigit (octet.toNat % 16)]

/-- The value of a hex digit of either case. -/
def digitValue (digit : UInt8) : Option ℕ :=
  if 48 ≤ digit ∧ digit ≤ 57 then some (digit.toNat - 48)
  else if 97 ≤ digit ∧ digit ≤ 102 then some (digit.toNat - 87)
  else if 65 ≤ digit ∧ digit ≤ 70 then some (digit.toNat - 55)
  else none

/-- `u8::from_str_radix` on two octets at radix 16. -/
def fromStrRadix (first second : UInt8) : Option UInt8 :=
  -- a leading plus sign is taken, and one digit is then left
  if first = 43 then (digitValue second).map UInt8.ofNat
  else do
    let high ← digitValue first
    let low ← digitValue second
    return UInt8.ofNat (high * 16 + low)

/-- What `from_hex` does. -/
inductive HexOutcome
  | panicked
  | returned (octets : Option Bytes)
deriving DecidableEq

/-- An octet before what the later slices give. -/
def HexOutcome.cons (octet : UInt8) : HexOutcome → HexOutcome
  | panicked => panicked
  | returned octets => returned (octets.map (octet :: ·))

/-- `is_char_boundary` before these octets of a text. -/
def boundaryBefore : Bytes → Bool
  | [] => true
  | octet :: _ => decide (¬ (0x80 ≤ octet ∧ octet < 0xC0))

/-- The slices of two octets, up to the first that is refused. A slice begins where the one before
it has ended, which is a boundary of characters. -/
def fromHexSlices : Bytes → HexOutcome
  | first :: second :: rest =>
    if boundaryBefore rest then
      match fromStrRadix first second with
      | some octet => (fromHexSlices rest).cons octet
      | none => .returned none
    else .panicked
  | _ => .returned (some [])

/-- `from_hex`: nothing on an odd length or a slice that is no number. -/
def fromHex (text : Bytes) : HexOutcome :=
  if text.length % 2 ≠ 0 then .returned none else fromHexSlices text

theorem digitValue_hexDigit : ∀ nibble < 16, digitValue (hexDigit nibble) = some nibble := by
  decide

theorem hexDigit_ne_plus : ∀ nibble < 16, hexDigit nibble ≠ 43 := by
  decide

theorem fromStrRadix_hexDigit (octet : UInt8) :
    fromStrRadix (hexDigit (octet.toNat / 16)) (hexDigit (octet.toNat % 16)) = some octet := by
  have hoctet : octet.toNat < 256 := octet.toNat_lt
  have hhigh : octet.toNat / 16 < 16 := by omega
  have hlow : octet.toNat % 16 < 16 := by omega
  have hsum : octet.toNat / 16 * 16 + octet.toNat % 16 = octet.toNat := by omega
  unfold fromStrRadix
  rw [if_neg (hexDigit_ne_plus _ hhigh), digitValue_hexDigit _ hhigh, digitValue_hexDigit _ hlow]
  show some (UInt8.ofNat (octet.toNat / 16 * 16 + octet.toNat % 16)) = some octet
  rw [hsum, UInt8.ofNat_toNat]

theorem length_toHex (bytes : Bytes) : (toHex bytes).length = 2 * bytes.length := by
  induction bytes with
  | nil => rfl
  | cons octet rest ih =>
    unfold toHex at ih ⊢
    rw [List.flatMap_cons, List.length_append]
    simp only [List.length_cons, List.length_nil]
    omega

theorem boundaryBefore_toHex (bytes : Bytes) : boundaryBefore (toHex bytes) = true := by
  cases bytes with
  | nil => rfl
  | cons octet rest =>
    have hdigit : ∀ nibble < 16, ¬ (0x80 ≤ hexDigit nibble ∧ hexDigit nibble < 0xC0) := by decide
    have hoctet : octet.toNat < 256 := octet.toNat_lt
    exact decide_eq_true (hdigit _ (by omega))

/-- What `to_hex` writes, `from_hex` reads back. -/
theorem fromHex_toHex (bytes : Bytes) : fromHex (toHex bytes) = .returned (some bytes) := by
  have heven : ¬ (toHex bytes).length % 2 ≠ 0 := by
    rw [length_toHex]
    omega
  rw [fromHex, if_neg heven]
  clear heven
  induction bytes with
  | nil => rfl
  | cons octet rest ih =>
    have hcons : toHex (octet :: rest) =
        hexDigit (octet.toNat / 16) :: hexDigit (octet.toNat % 16) :: toHex rest := rfl
    rw [hcons, fromHexSlices, boundaryBefore_toHex, fromStrRadix_hexDigit, ih]
    rfl

end SiphonRtp.Engine
