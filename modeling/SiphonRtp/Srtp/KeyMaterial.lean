import SiphonRtp.Srtp.Primitives

/-!
# Master key identifiers and key material

`Mki` and `SrtpKeyMaterial` of `sdes.rs`, and `strip_mki` of `lib.rs`. An MKI is `length` octets
carrying `value` big-endian, present in every packet under its key between the authenticated portion
and the tag. Its fields are private in the source and `Mki::new` is the only way to build one, so
the two checks of `new` are fields here: an MKI of zero length, or one whose value does not fit,
cannot be written down.

`stripMki_append` is the field's round trip: what a sender appends, a receiver under the same key
strips.
-/

set_option autoImplicit false

namespace SiphonRtp.Srtp

open Machine

/-- `Mki::MAX_LENGTH`, in octets. -/
def mkiMaxLength : ℕ := 128

/-- A master key identifier: `length` octets carrying `value`. -/
structure Mki where
  value : UInt64
  length : ℕ
  length_fits : 1 ≤ length ∧ length ≤ mkiMaxLength
  value_fits : length ≥ 8 ∨ value.toNat >>> (8 * length) = 0
deriving DecidableEq

namespace Mki

/-- The field's octet at `position`, 0 being the first on the wire. -/
def byte (mki : Mki) (position : ℕ) : UInt8 :=
  let fromRight := mki.length - 1 - position
  if fromRight < 8 then octet (toBe 8 mki.value.toNat) (7 - fromRight) else 0

/-- Whether `field` is exactly this MKI as it appears on the wire. -/
def «matches» (mki : Mki) (field : Bytes) : Bool :=
  field.length == mki.length &&
    field.zipIdx.all fun (byte, position) ↦ byte == mki.byte position

/-- The MKI field appended to a packet. -/
def field (mki : Mki) : Bytes := (List.range mki.length).map mki.byte

@[simp] theorem length_field (mki : Mki) : mki.field.length = mki.length := by simp [field]

theorem matches_field (mki : Mki) : mki.matches mki.field = true := by
  simp only [«matches», length_field, beq_self_eq_true, Bool.true_and, List.all_eq_true,
    beq_iff_eq, Prod.forall]
  intro byte position hmem
  have hget := List.mem_zipIdx_iff_getElem?.mp hmem
  simp only [field, List.getElem?_map, Option.map_eq_some_iff] at hget
  obtain ⟨index, hindex, rfl⟩ := hget
  obtain ⟨hlt, hrange⟩ := List.getElem?_eq_some_iff.mp hindex
  rw [List.getElem_range] at hrange
  rw [hrange]

end Mki

/-- The MKI field of a key that may have signalled none. -/
def mkiField (mki : Option Mki) : Bytes := mki.elim [] Mki.field

/-- The MKI length of a key that may have signalled none. -/
def mkiLen (mki : Option Mki) : ℕ := mki.elim 0 Mki.length

@[simp] theorem length_mkiField (mki : Option Mki) : (mkiField mki).length = mkiLen mki := by
  cases mki <;> simp [mkiField, mkiLen]

/-- Split the optional MKI field off the end of a packet whose tag is already removed, and check
that it names `mki`. Returns the authenticated portion. -/
def stripMki (protectedPart : Bytes) (mki : Option Mki) : Except SrtpError Bytes :=
  match mki with
  | none => .ok protectedPart
  | some mki =>
    if protectedPart.length < mki.length then .error .tooShort
    else
      let at_ := protectedPart.length - mki.length
      if mki.matches (protectedPart.drop at_) then .ok (protectedPart.take at_)
      else .error .unknownMki

/-- What a sender appends, a receiver under the same key strips. -/
theorem stripMki_append (authenticated : Bytes) (mki : Option Mki) :
    stripMki (authenticated ++ mkiField mki) mki = .ok authenticated := by
  cases mki with
  | none => simp [stripMki, mkiField]
  | some mki =>
    have hlength : (authenticated ++ mki.field).length = authenticated.length + mki.length := by
      simp
    simp only [stripMki, mkiField, Option.elim_some, hlength, Nat.add_sub_cancel]
    rw [if_neg (by omega), List.drop_left, List.take_left, if_pos mki.matches_field]

/-- SRTP master key and salt for one direction, with the MKI its key-param signalled. -/
structure SrtpKeyMaterial where
  masterKey : MasterKey
  masterSalt : MasterSalt
  mki : Option Mki

end SiphonRtp.Srtp
