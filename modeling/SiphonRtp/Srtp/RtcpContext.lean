import SiphonRtp.Machine.Runs
import SiphonRtp.Srtp.KeyMaterial
import SiphonRtp.Srtp.ReplayWindow

/-!
# The SRTCP context

`SrtcpContext` of `siphon-rtp-srtp/src/srtcp.rs` (RFC 3711 §3.4): the first 8 octets stay in the
clear, the rest of the compound packet is AES-CM encrypted, and a 4-octet trailer carries the
encrypt flag and an explicit 31-bit index. Sending uses and increments `sendIndex`, masked to 31
bits; receiving keeps a replay window over the index of the trailer, recorded only once the tag
verified.
-/

set_option autoImplicit false

namespace SiphonRtp.Srtp

open Machine

/-- `INDEX_TRAILER_LEN`, the length of the `E|SRTCP-index` trailer. -/
def indexTrailerLen : ℕ := 4

/-- `CLEAR_HEADER_LEN`, the RTCP fixed header and the sender SSRC. -/
def clearHeaderLen : ℕ := 8

/-- `ENCRYPT_FLAG`, the top bit of the trailer. -/
def encryptFlag : UInt32 := 0x80000000

/-- `INDEX_MASK`, the 31-bit index of the trailer. -/
def indexMask : UInt32 := 0x7FFFFFFF

/-- An SRTCP session for one direction: the session keys and the sender's running 31-bit index. -/
structure SrtcpContext where
  sessionKey : Vector UInt8 16
  sessionSalt : MasterSalt
  sessionAuth : Vector UInt8 20
  sendIndex : UInt32
  recvReplay : ReplayWindow
  mki : Option Mki

/-- The checks `protect` makes of a compound RTCP packet. -/
def checkRtcp (rtcp : Bytes) : Except SrtpError Unit :=
  if rtcp.length < clearHeaderLen then .error .tooShort
  else if octet rtcp 0 >>> 6 ≠ 2 then .error .badVersion
  else .ok ()

/-- A compound RTCP packet of at least the clear header, of version 2. -/
def wellFormedRtcp (rtcp : Bytes) : Bool := (checkRtcp rtcp).isOk

/-- The sender SSRC of a compound RTCP packet. -/
def rtcpSsrc (rtcp : Bytes) : UInt32 := readU32 rtcp 4

/-- The shortest compound RTCP packet of SSRC 1, an empty receiver report. -/
def bareRtcp : Bytes := [0x80, 201, 0, 1, 0, 0, 0, 1]

theorem checkRtcp_of_wellFormed {rtcp : Bytes} (hformed : wellFormedRtcp rtcp = true) :
    checkRtcp rtcp = .ok () := by
  unfold wellFormedRtcp at hformed
  cases hcheck : checkRtcp rtcp with
  | error error => simp [hcheck, Except.toBool] at hformed
  | ok => rfl

theorem exists_error_of_not_wellFormed {rtcp : Bytes} (hformed : wellFormedRtcp rtcp = false) :
    ∃ error, checkRtcp rtcp = .error error := by
  unfold wellFormedRtcp at hformed
  cases hcheck : checkRtcp rtcp with
  | error error => exact ⟨error, rfl⟩
  | ok => simp [hcheck, Except.toBool] at hformed

/-- Masking to 31 bits is a remainder. -/
theorem toNat_and_indexMask (value : UInt32) :
    (value &&& indexMask).toNat = value.toNat % 2 ^ 31 := by
  have hmask : indexMask.toNat = 2 ^ 31 - 1 := rfl
  rw [UInt32.toNat_and, hmask, Nat.and_two_pow_sub_one_eq_mod]

namespace SrtcpContext

section Operations

variable (P : Primitives)

/-- `SrtcpContext::new` with the MKI of `from_key_material`. -/
def fromKeyMaterial (material : SrtpKeyMaterial) : SrtcpContext where
  sessionKey := derive P material.masterKey material.masterSalt .rtcpEncryption 16
  sessionSalt := derive P material.masterKey material.masterSalt .rtcpSalt 14
  sessionAuth := derive P material.masterKey material.masterSalt .rtcpAuthentication 20
  sendIndex := 0
  recvReplay := {}
  mki := material.mki

/-- Seed the outgoing index from an HA checkpoint. -/
def setSendIndex (context : SrtcpContext) (index : UInt32) : SrtcpContext :=
  { context with sendIndex := index }

/-- The AES-CM keystream of one packet under a context's session keys. -/
def keystream (context : SrtcpContext) (ssrc index : UInt32) : ℕ → UInt8 :=
  P.aesCtr context.sessionKey (cipherIv context.sessionSalt ssrc index.toNat)

/-- Encrypt and authenticate a compound RTCP packet:
`header(8) || AES-CM(rest) || E|index || [MKI] || tag`. -/
def protect (context : SrtcpContext) (rtcp : Bytes) : Except SrtpError Bytes × SrtcpContext :=
  match checkRtcp rtcp with
  | .error error => (.error error, context)
  | .ok () =>
    let index := context.sendIndex
    let out := xorFrom clearHeaderLen (context.keystream P (rtcpSsrc rtcp) index) rtcp ++
      toBe 4 (encryptFlag ||| index).toNat
    (.ok (out ++ mkiField context.mki ++ hmacSha180 P context.sessionAuth out),
      { context with sendIndex := (context.sendIndex + 1) &&& indexMask })

/-- The `E|SRTCP-index` trailer of an authenticated portion. -/
def indexField (authenticated : Bytes) : UInt32 :=
  readU32 authenticated (authenticated.length - indexTrailerLen)

/-- The compound packet of an authenticated portion, decrypted where the trailer says it is
encrypted. -/
def decrypted (context : SrtcpContext) (authenticated : Bytes) : Bytes :=
  let index := indexField authenticated &&& indexMask
  let out := authenticated.take (authenticated.length - indexTrailerLen)
  if indexField authenticated &&& encryptFlag ≠ 0 then
    xorFrom clearHeaderLen (context.keystream P (rtcpSsrc authenticated) index) out
  else out

/-- Reject replays, verify the tag and decrypt an SRTCP packet. -/
def unprotect (context : SrtcpContext) (srtcp : Bytes) : Except SrtpError Bytes × SrtcpContext :=
  if srtcp.length < clearHeaderLen + indexTrailerLen + mkiLen context.mki + authTagLen then
    (.error .tooShort, context)
  else if octet srtcp 0 >>> 6 ≠ 2 then (.error .badVersion, context)
  else
    let tag := srtcp.drop (srtcp.length - authTagLen)
    match stripMki (srtcp.take (srtcp.length - authTagLen)) context.mki with
    | .error error => (.error error, context)
    | .ok authenticated =>
      -- the index is explicit and in the clear: refused before the tag is checked, recorded after
      let index := indexField authenticated &&& indexMask
      if context.recvReplay.isReplay index.toNat then (.error .replayed, context)
      else if hmacSha180 P context.sessionAuth authenticated ≠ tag then
        (.error .authFailed, context)
      else
        (.ok (context.decrypted P authenticated),
          { context with recvReplay := context.recvReplay.record index.toNat })

end Operations

/-! ### What the operations do -/

variable (P : Primitives)

/-- Two contexts under one key: the derived session keys and the MKI agree. -/
structure SameKey (first second : SrtcpContext) : Prop where
  sessionKey : first.sessionKey = second.sessionKey
  sessionSalt : first.sessionSalt = second.sessionSalt
  sessionAuth : first.sessionAuth = second.sessionAuth
  mki : first.mki = second.mki

theorem SameKey.refl (context : SrtcpContext) : context.SameKey context := ⟨rfl, rfl, rfl, rfl⟩

theorem SameKey.symm {first second : SrtcpContext} (hkey : first.SameKey second) :
    second.SameKey first :=
  ⟨hkey.sessionKey.symm, hkey.sessionSalt.symm, hkey.sessionAuth.symm, hkey.mki.symm⟩

theorem SameKey.trans {first second third : SrtcpContext} (hfirst : first.SameKey second)
    (hsecond : second.SameKey third) : first.SameKey third :=
  ⟨hfirst.sessionKey.trans hsecond.sessionKey, hfirst.sessionSalt.trans hsecond.sessionSalt,
    hfirst.sessionAuth.trans hsecond.sessionAuth, hfirst.mki.trans hsecond.mki⟩

theorem protect_of_check (context : SrtcpContext) {rtcp : Bytes}
    (hcheck : checkRtcp rtcp = .ok ()) :
    (∃ srtcp, (context.protect P rtcp).1 = .ok srtcp) ∧
      (context.protect P rtcp).2 =
        { context with sendIndex := (context.sendIndex + 1) &&& indexMask } := by
  simp only [protect, hcheck, Except.ok.injEq, exists_eq', and_self]

theorem protect_of_check_error {context : SrtcpContext} {rtcp : Bytes} {error : SrtpError}
    (hcheck : checkRtcp rtcp = .error error) :
    context.protect P rtcp = (.error error, context) := by
  simp only [protect, hcheck]

theorem sameKey_protect (context : SrtcpContext) (rtcp : Bytes) :
    (context.protect P rtcp).2.SameKey context := by
  rcases hcheck : checkRtcp rtcp with error | _
  · rw [protect_of_check_error P hcheck]
    exact SameKey.refl context
  · rw [(protect_of_check P context hcheck).2]
    exact ⟨rfl, rfl, rfl, rfl⟩

/-- Protecting depends on the key and the send index, and moves nothing else. -/
theorem protect_congr {first second : SrtcpContext} (hkey : first.SameKey second)
    (hindex : first.sendIndex = second.sendIndex) (rtcp : Bytes) :
    (first.protect P rtcp).1 = (second.protect P rtcp).1 ∧
      (first.protect P rtcp).2.SameKey (second.protect P rtcp).2 ∧
      (first.protect P rtcp).2.sendIndex = (second.protect P rtcp).2.sendIndex := by
  rcases hcheck : checkRtcp rtcp with error | _
  · simp only [protect, hcheck]
    exact ⟨trivial, hkey, hindex⟩
  · simp only [protect, hcheck, keystream, hkey.sessionKey, hkey.sessionSalt, hkey.sessionAuth,
      hkey.mki, hindex]
    exact ⟨trivial, ⟨rfl, rfl, rfl, rfl⟩, trivial⟩

theorem SameKey.decrypted {first second : SrtcpContext} (hkey : first.SameKey second)
    (authenticated : Bytes) :
    first.decrypted P authenticated = second.decrypted P authenticated := by
  simp only [SrtcpContext.decrypted, keystream, hkey.sessionKey, hkey.sessionSalt]

/-- Unprotecting either fails and leaves the context alone, or records an index the window did not
refuse. Under the same key, another context whose window does not refuse the index does the same. -/
theorem unprotect_cases (context : SrtcpContext) (srtcp : Bytes) :
    (∃ error, context.unprotect P srtcp = (.error error, context)) ∨
      ∃ plain index, context.recvReplay.isReplay index = false ∧
        ∀ other : SrtcpContext, other.SameKey context → other.recvReplay.isReplay index = false →
          other.unprotect P srtcp =
            (.ok plain, { other with recvReplay := other.recvReplay.record index }) := by
  by_cases hshort :
      srtcp.length < clearHeaderLen + indexTrailerLen + mkiLen context.mki + authTagLen
  · exact Or.inl ⟨_, by rw [unprotect, if_pos hshort]⟩
  by_cases hversion : octet srtcp 0 >>> 6 ≠ 2
  · exact Or.inl ⟨_, by rw [unprotect, if_neg hshort, if_pos hversion]⟩
  rcases hstrip : stripMki (srtcp.take (srtcp.length - authTagLen)) context.mki with
    error | authenticated
  · left
    simp only [unprotect, hshort, hversion, hstrip]
    exact ⟨error, rfl⟩
  by_cases hreplay :
      context.recvReplay.isReplay (indexField authenticated &&& indexMask).toNat = true
  · left
    simp only [unprotect, hshort, hversion, hstrip, hreplay]
    exact ⟨.replayed, rfl⟩
  by_cases htag : hmacSha180 P context.sessionAuth authenticated ≠
      srtcp.drop (srtcp.length - authTagLen)
  · left
    simp only [unprotect, hshort, hversion, hstrip, hreplay]
    exact ⟨.authFailed, if_pos htag⟩
  · right
    refine ⟨context.decrypted P authenticated, _, Bool.eq_false_iff.mpr hreplay,
      fun other hkey hother ↦ ?_⟩
    simp only [unprotect, hkey.mki, hkey.sessionAuth, hkey.decrypted, hshort, hversion, hstrip,
      hother, htag, ↓reduceIte, Bool.false_eq_true]

/-- A failed packet leaves the context alone. -/
theorem unprotect_of_error {context : SrtcpContext} {srtcp : Bytes} {error : SrtpError}
    (herror : (context.unprotect P srtcp).1 = .error error) :
    (context.unprotect P srtcp).2 = context := by
  rcases context.unprotect_cases P srtcp with ⟨other, heq⟩ | ⟨plain, index, hfresh, heq⟩
  · rw [heq]
  · rw [heq context (SameKey.refl context) hfresh] at herror
    simp at herror

end SrtcpContext

end SiphonRtp.Srtp
