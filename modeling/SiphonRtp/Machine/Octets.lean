import Mathlib.Data.List.Basic
import Mathlib.Data.List.Induction
import Mathlib.Tactic.Ring

/-!
# Octet strings

Byte buffers are lists of `UInt8`. `octet` reads one position (zero past the end; every reader of
this development checks the length first), `fromBe` and `toBe` are the big-endian integer codings
of any width, and `xorFrom` applies a keystream in place from an offset on, which is its own
inverse (`xorFrom_xorFrom`) and leaves the octets before the offset alone (`octet_xorFrom`).
-/

set_option autoImplicit false

namespace SiphonRtp.Machine

/-- A byte buffer. -/
abbrev Bytes := List UInt8

/-- The octet at a position, zero past the end of the buffer. -/
def octet (bytes : Bytes) (position : ℕ) : UInt8 := bytes.getD position 0

theorem octet_append_left {first second : Bytes} {position : ℕ}
    (hposition : position < first.length) :
    octet (first ++ second) position = octet first position := by
  simp [octet, List.getElem?_append_left hposition]

theorem octet_append_right (first second : Bytes) (position : ℕ) :
    octet (first ++ second) (first.length + position) = octet second position := by
  simp [octet, List.getElem?_append_right]

theorem octet_take {bytes : Bytes} {count position : ℕ} (hposition : position < count) :
    octet (bytes.take count) position = octet bytes position := by
  simp [octet, hposition]

/-! ### Big-endian integers -/

/-- The integer a buffer codes, most significant octet first. -/
def fromBe (bytes : Bytes) : ℕ := bytes.foldl (fun value byte ↦ value * 256 + byte.toNat) 0

/-- The `width` least significant octets of an integer, most significant first. -/
def toBe : ℕ → ℕ → Bytes
  | 0, _ => []
  | width + 1, value => toBe width (value / 256) ++ [UInt8.ofNat value]

@[simp] theorem length_toBe (width value : ℕ) : (toBe width value).length = width := by
  induction width generalizing value with
  | zero => rfl
  | succ width ih => simp [toBe, ih]

theorem fromBe_append_singleton (bytes : Bytes) (byte : UInt8) :
    fromBe (bytes ++ [byte]) = fromBe bytes * 256 + byte.toNat := by
  simp [fromBe]

/-- Coding an integer and reading it back keeps what fits the width. -/
theorem fromBe_toBe (width value : ℕ) : fromBe (toBe width value) = value % 256 ^ width := by
  induction width generalizing value with
  | zero => simp [toBe, fromBe, Nat.mod_one]
  | succ width ih =>
    have hlow : (UInt8.ofNat value).toNat = value % 256 := by simp
    rw [toBe, fromBe_append_singleton, ih, hlow, pow_succ, Nat.mul_comm (256 ^ width) 256,
      Nat.mod_mul]
    ring

/-- The octets of the integer a buffer codes are the buffer. -/
theorem toBe_fromBe (bytes : Bytes) : toBe bytes.length (fromBe bytes) = bytes := by
  induction bytes using List.reverseRec with
  | nil => rfl
  | append_singleton bytes byte ih =>
    have hhigh : (fromBe bytes * 256 + byte.toNat) / 256 = fromBe bytes := by
      have hbyte := byte.toNat_lt
      omega
    have hlow : UInt8.ofNat (fromBe bytes * 256 + byte.toNat) = byte := by
      rw [← UInt8.toNat_inj, UInt8.toNat_ofNat']
      omega
    rw [fromBe_append_singleton, List.length_append, List.length_singleton, toBe, hhigh, hlow, ih]

/-- The two octets at a position as a big-endian `u16`. -/
def readU16 (bytes : Bytes) (position : ℕ) : UInt16 :=
  UInt16.ofNat (fromBe [octet bytes position, octet bytes (position + 1)])

/-- The four octets at a position as a big-endian `u32`. -/
def readU32 (bytes : Bytes) (position : ℕ) : UInt32 :=
  UInt32.ofNat (fromBe [octet bytes position, octet bytes (position + 1),
    octet bytes (position + 2), octet bytes (position + 3)])

/-- The eight octets at a position as a big-endian `u64`. -/
def readU64 (bytes : Bytes) (position : ℕ) : UInt64 :=
  UInt64.ofNat (fromBe ((bytes.drop position).take 8))

theorem readU16_append_right (first second : Bytes) (position : ℕ) :
    readU16 (first ++ second) (first.length + position) = readU16 second position := by
  simp only [readU16, Nat.add_assoc, octet_append_right]

theorem readU32_append_right (first second : Bytes) (position : ℕ) :
    readU32 (first ++ second) (first.length + position) = readU32 second position := by
  simp only [readU32, Nat.add_assoc, octet_append_right]

@[simp] theorem readU16_toBe (value : ℕ) (rest : Bytes) :
    readU16 (toBe 2 value ++ rest) 0 = UInt16.ofNat value := by
  have hoctets : [octet (toBe 2 value ++ rest) 0, octet (toBe 2 value ++ rest) 1] =
      toBe 2 value := rfl
  rw [readU16, hoctets, fromBe_toBe, ← UInt16.toNat_inj]
  simp

@[simp] theorem readU32_toBe (value : ℕ) (rest : Bytes) :
    readU32 (toBe 4 value ++ rest) 0 = UInt32.ofNat value := by
  have hoctets : [octet (toBe 4 value ++ rest) 0, octet (toBe 4 value ++ rest) 1,
      octet (toBe 4 value ++ rest) 2, octet (toBe 4 value ++ rest) 3] = toBe 4 value := rfl
  rw [readU32, hoctets, fromBe_toBe, ← UInt32.toNat_inj]
  simp

/-- A 16-bit field behind a lead of known length. -/
theorem readU16_of_split {octets lead rest : Bytes} {field : UInt16}
    (hsplit : octets = lead ++ (toBe 2 field.toNat ++ rest)) :
    readU16 octets lead.length = field := by
  have hread := readU16_append_right lead (toBe 2 field.toNat ++ rest) 0
  rw [Nat.add_zero] at hread
  rw [hsplit, hread, readU16_toBe, UInt16.ofNat_toNat]

/-- A 32-bit one. -/
theorem readU32_of_split {octets lead rest : Bytes} {field : UInt32}
    (hsplit : octets = lead ++ (toBe 4 field.toNat ++ rest)) :
    readU32 octets lead.length = field := by
  have hread := readU32_append_right lead (toBe 4 field.toNat ++ rest) 0
  rw [Nat.add_zero] at hread
  rw [hsplit, hread, readU32_toBe, UInt32.ofNat_toNat]

/-- Two octets are what their `u16` is coded as. -/
theorem toBe_readU16 (first second : UInt8) (rest : Bytes) :
    toBe 2 (readU16 (first :: second :: rest) 0).toNat = [first, second] := by
  have hread : (readU16 (first :: second :: rest) 0).toNat = fromBe [first, second] := by
    have hbound : fromBe [first, second] < 2 ^ 16 := by
      have hfirst := first.toNat_lt
      have hsecond := second.toNat_lt
      simp only [fromBe, List.foldl_cons, List.foldl_nil]
      omega
    show (UInt16.ofNat (fromBe [first, second])).toNat = _
    rw [UInt16.toNat_ofNat', Nat.mod_eq_of_lt hbound]
  rw [hread]
  exact toBe_fromBe [first, second]

/-! ### Keystreams -/

/-- The buffer with a keystream applied from `offset` on. -/
def xorFrom (offset : ℕ) (keystream : ℕ → UInt8) (bytes : Bytes) : Bytes :=
  bytes.take offset ++ (bytes.drop offset).mapIdx fun position byte ↦ byte ^^^ keystream position

@[simp] theorem length_xorFrom (offset : ℕ) (keystream : ℕ → UInt8) (bytes : Bytes) :
    (xorFrom offset keystream bytes).length = bytes.length := by
  simp only [xorFrom, List.length_append, List.length_take, List.length_mapIdx, List.length_drop]
  omega

/-- The octets before the offset stay in the clear. -/
theorem octet_xorFrom {offset position : ℕ} (keystream : ℕ → UInt8) {bytes : Bytes}
    (hposition : position < offset) (hoffset : offset ≤ bytes.length) :
    octet (xorFrom offset keystream bytes) position = octet bytes position := by
  rw [xorFrom, octet_append_left (by rw [List.length_take]; omega), octet_take hposition]

/-- A keystream applied twice cancels. -/
theorem xorFrom_xorFrom {offset : ℕ} (keystream : ℕ → UInt8) {bytes : Bytes}
    (hoffset : offset ≤ bytes.length) :
    xorFrom offset keystream (xorFrom offset keystream bytes) = bytes := by
  have hlength : (bytes.take offset).length = offset := by rw [List.length_take]; omega
  have hcancel : (bytes.drop offset).mapIdx
      (fun position byte ↦ (byte ^^^ keystream position) ^^^ keystream position) =
        bytes.drop offset := by
    have hself : (fun (position : ℕ) (byte : UInt8) ↦
        (byte ^^^ keystream position) ^^^ keystream position) = fun _ byte ↦ byte := by
      funext position byte
      rw [UInt8.xor_assoc, UInt8.xor_self, UInt8.xor_zero]
    rw [hself]
    simp [List.mapIdx_eq_zipIdx_map]
  unfold xorFrom
  rw [List.take_append_of_le_length hlength.ge, List.drop_append_of_le_length hlength.ge,
    List.take_take, min_self, List.drop_take, Nat.sub_self, List.take_zero, List.nil_append,
    List.mapIdx_mapIdx]
  simp only [Function.comp_def]
  rw [hcancel, List.take_append_drop]

/-- The octets of a text in UTF-8. -/
def encodeUtf8 (text : List Char) : Bytes := text.flatMap String.utf8EncodeChar

theorem encodeUtf8_cons (char : Char) (text : List Char) :
    encodeUtf8 (char :: text) = String.utf8EncodeChar char ++ encodeUtf8 text :=
  List.flatMap_cons

end SiphonRtp.Machine
