import SiphonRtp.Machine.Octets

/-!
# Cryptographic primitives and key derivation

The crates `aes`, `ctr`, `hmac`, `sha1` and `aes-gcm` are outside the repository. `Primitives`
takes them as parameters: AES-128-CTR as a keystream, HMAC-SHA1 as a 20-octet digest, and the two
detached AES-128-GCM calls. Nothing is assumed of them. `Hmac::new_from_slice` accepts a key of any
length, so its error arm in `auth_tag` and `hmac_sha1_80` is never taken and is not modelled.

Over them stand `kdf.rs` (the RFC 3711 §4.3 key derivation) and the packet primitives of `lib.rs`:
the AES-CM IV and the two truncated tags.
-/

set_option autoImplicit false

namespace SiphonRtp.Srtp

open Machine

/-- `SrtpError`. -/
inductive SrtpError
  | tooShort
  | badVersion
  | authFailed
  | replayed
  | unknownMki
  | noKeys
  | duplicateMki
  | indexExhausted
deriving DecidableEq, Repr

/-- The external ciphers and digests. `aesCtr key iv` is the keystream octet at each offset,
`gcmEncrypt` and `gcmDecrypt` take key, nonce, associated data and text (and tag), and fail where
the crate returns an error. -/
structure Primitives where
  aesCtr : Vector UInt8 16 → Vector UInt8 16 → ℕ → UInt8
  hmacSha1 : Vector UInt8 20 → Bytes → Vector UInt8 20
  gcmEncrypt : Vector UInt8 16 → Vector UInt8 12 → Bytes → Bytes → Option (Bytes × Vector UInt8 16)
  gcmDecrypt : Vector UInt8 16 → Vector UInt8 12 → Bytes → Bytes → Vector UInt8 16 → Option Bytes

/-- A 128-bit master key. -/
abbrev MasterKey := Vector UInt8 16

/-- A 112-bit master salt, `MASTER_SALT_LEN` octets. -/
abbrev MasterSalt := Vector UInt8 14

/-- The octet of an array at a position, zero outside it. -/
def octetAt {n : ℕ} (array : Vector UInt8 n) (position : ℕ) : UInt8 := array.toArray.getD position 0

/-! ### Key derivation, `kdf.rs` -/

/-- The key derivation labels of RFC 3711 §4.3.2. -/
inductive Label
  | rtpEncryption
  | rtpAuthentication
  | rtpSalt
  | rtcpEncryption
  | rtcpAuthentication
  | rtcpSalt
deriving DecidableEq, Repr

/-- The label octet. -/
def Label.id : Label → UInt8
  | .rtpEncryption => 0x00
  | .rtpAuthentication => 0x01
  | .rtpSalt => 0x02
  | .rtcpEncryption => 0x03
  | .rtcpAuthentication => 0x04
  | .rtcpSalt => 0x05

/-- The key derivation IV: the master salt left-shifted 16 bits, the label XORed into octet 7. -/
def deriveIv (salt : MasterSalt) (label : Label) : Vector UInt8 16 :=
  Vector.ofFn fun position ↦ octetAt salt position ^^^ if position = 7 then label.id else 0

/-- Derive `length` octets of session key for a label. -/
def derive (P : Primitives) (key : MasterKey) (salt : MasterSalt) (label : Label) (length : ℕ) :
    Vector UInt8 length :=
  Vector.ofFn fun position ↦ P.aesCtr key (deriveIv salt label) position

/-! ### Packet primitives, `lib.rs` -/

/-- `AUTH_TAG_LEN`, the HMAC-SHA1-80 tag length. -/
def authTagLen : ℕ := 10

/-- The AES-CM IV of one packet: the session salt in octets 0 to 13, the SSRC XORed into octets 4 to
7 and the low 48 bits of the index into octets 8 to 13. -/
def cipherIv (salt : MasterSalt) (ssrc : UInt32) (index : ℕ) : Vector UInt8 16 :=
  Vector.ofFn fun position ↦
    octetAt salt position ^^^
      (if 4 ≤ position.val ∧ position.val < 8 then octet (toBe 4 ssrc.toNat) (position.val - 4)
        else 0) ^^^
      (if 8 ≤ position.val ∧ position.val < 14 then octet (toBe 6 index) (position.val - 8) else 0)

/-- HMAC-SHA1 over `data`, truncated to 80 bits. -/
def hmacSha180 (P : Primitives) (key : Vector UInt8 20) (data : Bytes) : Bytes :=
  (P.hmacSha1 key data).toList.take authTagLen

/-- HMAC-SHA1-80 over `data || ROC`, the SRTP authentication input. -/
def authTag (P : Primitives) (key : Vector UInt8 20) (data : Bytes) (roc : UInt32) : Bytes :=
  hmacSha180 P key (data ++ toBe 4 roc.toNat)

@[simp] theorem length_hmacSha180 (P : Primitives) (key : Vector UInt8 20) (data : Bytes) :
    (hmacSha180 P key data).length = authTagLen := by
  simp [hmacSha180, authTagLen]

@[simp] theorem length_authTag (P : Primitives) (key : Vector UInt8 20) (data : Bytes)
    (roc : UInt32) : (authTag P key data roc).length = authTagLen :=
  length_hmacSha180 P key _

end SiphonRtp.Srtp
