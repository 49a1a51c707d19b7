import SiphonRtp.Srtp.GcmContext
import Mathlib.Data.Nat.Bitwise

/-!
# AES-GCM SRTCP packets round-trip

What `GcmSession::seal` and `SrtcpGcmContext::protect` of `siphon-rtp-srtp/src/srtcp_gcm.rs` write,
`open` and `unprotect` under the same key read back, with the flag and the index of the trailer. The
cipher is a parameter that opens what it has sealed (`Primitives.Opens`).

`verify_frame` reads a packet that was put together from its parts. The two modes differ in which of
them are associated data, and both sides take the same. The functions that end in `Into` keep the
caller's output buffer, to say what is left in it on an error.
-/

set_option autoImplicit false

namespace SiphonRtp.Srtp

open Machine

/-- The cipher seals every text, in place, and opens what it has sealed. -/
def Primitives.Opens (P : Primitives) : Prop :=
  ∀ key nonce associated text, ∃ cipher tag,
    P.gcmEncrypt key nonce associated text = some (cipher, tag) ∧ cipher.length = text.length ∧
      P.gcmDecrypt key nonce associated cipher tag = some text

/-- The cipher seals whatever it is given. -/
def Primitives.Seals (P : Primitives) : Prop :=
  ∀ key nonce associated text, (P.gcmEncrypt key nonce associated text).isSome = true

theorem Primitives.Opens.seals {P : Primitives} (hopens : P.Opens) : P.Seals := by
  intro key nonce associated text
  obtain ⟨_, _, hencrypt, -⟩ := hopens key nonce associated text
  rw [hencrypt]
  rfl

/-! ### The trailer -/

namespace GcmSession

variable {index : UInt32}

theorem word_and_indexMask (hindex : index.toNat < 2 ^ 31) (encrypt : Bool) :
    word encrypt index &&& indexMask = index := by
  have hflag : encryptFlag.toNat = 2 ^ 31 := rfl
  apply UInt32.toNat_inj.mp
  rw [toNat_and_indexMask, word]
  cases encrypt with
  | false =>
    rw [if_neg Bool.false_ne_true, UInt32.zero_or]
    exact Nat.mod_eq_of_lt hindex
  | true =>
    rw [if_pos rfl, UInt32.toNat_or, hflag, Nat.or_mod_two_pow, Nat.mod_self, Nat.zero_or]
    exact Nat.mod_eq_of_lt hindex

/-- The flag of the trailer. -/
theorem word_and_encryptFlag_iff (hindex : index.toNat < 2 ^ 31) (encrypt : Bool) :
    word encrypt index &&& encryptFlag ≠ 0 ↔ encrypt = true := by
  have hflag : encryptFlag.toNat = 2 ^ 31 := rfl
  have hlow : index.toNat.testBit 31 = false := Nat.testBit_lt_two_pow hindex
  rw [ne_eq, ← UInt32.toNat_inj, UInt32.toNat_and, hflag, Nat.and_two_pow, word]
  cases encrypt with
  | false =>
    rw [if_neg Bool.false_ne_true, UInt32.zero_or, hlow]
    simp
  | true =>
    rw [if_pos rfl, UInt32.toNat_or, hflag, Nat.testBit_or, Nat.testBit_two_pow_self]
    simp

/-! ### A packet from its parts -/

variable (P : Primitives) (session : GcmSession)

/-- A text, the tag and the trailer of a packet. -/
def frame (text : Bytes) (tag : Vector UInt8 16) (esrtcp : UInt32) : Bytes :=
  text ++ tag.toList ++ toBe 4 esrtcp.toNat

variable {text : Bytes} {tag : Vector UInt8 16} {esrtcp : UInt32}

theorem length_frame : (frame text tag esrtcp).length = text.length + 20 := by
  simp [frame]

theorem bodyWord_frame : bodyWord (frame text tag esrtcp) = esrtcp := by
  have hat : (frame text tag esrtcp).length - esrtcpLen = (text ++ tag.toList).length + 0 := by
    rw [length_frame, esrtcpLen, List.length_append, Vector.length_toList]
    omega
  have hread := readU32_toBe esrtcp.toNat []
  rw [List.append_nil] at hread
  rw [bodyWord, hat, frame, readU32_append_right, hread, UInt32.ofNat_toNat]

theorem drop_frame :
    (frame text tag esrtcp).drop ((frame text tag esrtcp).length - esrtcpLen) =
      toBe 4 esrtcp.toNat := by
  have hat : (frame text tag esrtcp).length - esrtcpLen = (text ++ tag.toList).length := by
    rw [length_frame, esrtcpLen, List.length_append, Vector.length_toList]
    omega
  rw [hat, frame, List.drop_left]

theorem tagAt_frame :
    (frame text tag esrtcp).length - esrtcpLen - gcmTagLen = text.length := by
  rw [length_frame, esrtcpLen, gcmTagLen]
  omega

theorem tag_frame :
    (Vector.ofFn fun position : Fin 16 ↦ octet (frame text tag esrtcp) (text.length + position)) =
      tag := by
  refine Vector.ext fun position hposition ↦ ?_
  rw [Vector.getElem_ofFn, frame, List.append_assoc, octet_append_right,
    octet_append_left (by simpa using hposition)]
  simp [octet, hposition]

theorem take_frame {count : ℕ} (hcount : count ≤ text.length) :
    (frame text tag esrtcp).take count = text.take count := by
  rw [frame, List.append_assoc, List.take_append_of_le_length hcount]

theorem rtcpSsrc_frame (hlength : clearHeaderLen ≤ text.length) :
    rtcpSsrc (frame text tag esrtcp) = rtcpSsrc text := by
  have hoctet : ∀ position < clearHeaderLen,
      octet (frame text tag esrtcp) position = octet text position := by
    intro position hposition
    rw [frame, List.append_assoc, octet_append_left (by omega)]
  unfold rtcpSsrc readU32
  rw [hoctet _ (by decide), hoctet _ (by decide), hoctet _ (by decide), hoctet _ (by decide)]

/-- What is verified of a packet that was put together from its parts. -/
theorem verify_frame (hlength : clearHeaderLen ≤ text.length) :
    session.verify P (frame text tag esrtcp) =
      if esrtcp &&& encryptFlag ≠ 0 then
        (P.gcmDecrypt session.key (session.iv (rtcpSsrc text) (esrtcp &&& indexMask))
          (text.take clearHeaderLen ++ toBe 4 esrtcp.toNat) (text.drop clearHeaderLen) tag).map
            (text.take clearHeaderLen ++ ·)
      else
        (P.gcmDecrypt session.key (session.iv (rtcpSsrc text) (esrtcp &&& indexMask))
          (text ++ toBe 4 esrtcp.toNat) [] tag).map fun _ ↦ text := by
  unfold verify
  dsimp only
  rw [bodyWord_frame, tagAt_frame, tag_frame, drop_frame, take_frame hlength, take_frame le_rfl,
    List.take_length, rtcpSsrc_frame hlength]

theorem rtcpSsrc_congr {first second : Bytes}
    (htake : first.take clearHeaderLen = second.take clearHeaderLen) :
    rtcpSsrc first = rtcpSsrc second := by
  have hoctet : ∀ position < clearHeaderLen, octet first position = octet second position := by
    intro position hposition
    rw [← octet_take hposition, htake, octet_take hposition]
  unfold rtcpSsrc readU32
  rw [hoctet _ (by decide), hoctet _ (by decide), hoctet _ (by decide), hoctet _ (by decide)]

/-- A sealed packet is a frame with the word of its flag and index. -/
theorem exists_frame_of_seal {P : Primitives} {rtcp out : Bytes} {encrypt : Bool}
    (hseal : session.seal P rtcp encrypt index = .ok out) :
    ∃ text tag, out = frame text tag (word encrypt index) := by
  unfold GcmSession.seal at hseal
  cases encrypt with
  | true =>
    dsimp only at hseal
    rw [if_pos rfl] at hseal
    split at hseal
    · cases hseal
    · exact ⟨_, _, (Except.ok.inj hseal).symm⟩
  | false =>
    rw [if_neg Bool.false_ne_true] at hseal
    split at hseal
    · cases hseal
    · exact ⟨_, _, (Except.ok.inj hseal).symm⟩

/-- A sealed packet is a frame that verifies to its packet. -/
theorem seal_frame {P : Primitives} (hopens : P.Opens) {rtcp : Bytes}
    (hlength : clearHeaderLen ≤ rtcp.length) (hindex : index.toNat < 2 ^ 31) (encrypt : Bool) :
    ∃ text tag, session.seal P rtcp encrypt index = .ok (frame text tag (word encrypt index)) ∧
      text.length = rtcp.length ∧ text.take clearHeaderLen = rtcp.take clearHeaderLen ∧
      session.verify P (frame text tag (word encrypt index)) = some rtcp := by
  have hmask := word_and_indexMask hindex encrypt
  have hflag := word_and_encryptFlag_iff hindex encrypt
  cases encrypt with
  | true =>
    obtain ⟨cipher, tag, hencrypt, hcipher, hdecrypt⟩ := hopens session.key
      (session.iv (rtcpSsrc rtcp) index)
      (rtcp.take clearHeaderLen ++ toBe 4 (word true index).toNat) (rtcp.drop clearHeaderLen)
    have hheader : (rtcp.take clearHeaderLen).length = clearHeaderLen := by
      rw [List.length_take]
      omega
    have htake : (rtcp.take clearHeaderLen ++ cipher).take clearHeaderLen =
        rtcp.take clearHeaderLen := List.take_left' hheader
    have hdrop : (rtcp.take clearHeaderLen ++ cipher).drop clearHeaderLen = cipher :=
      List.drop_left' hheader
    have htext : (rtcp.take clearHeaderLen ++ cipher).length = rtcp.length := by
      rw [List.length_append, hcipher, List.length_drop]
      omega
    refine ⟨rtcp.take clearHeaderLen ++ cipher, tag, ?_, htext, htake, ?_⟩
    · simp only [GcmSession.seal, hencrypt]
      rfl
    · rw [verify_frame P session (by omega), if_pos (hflag.mpr rfl), hmask, htake, hdrop,
        rtcpSsrc_congr htake, hdecrypt, Option.map_some, List.take_append_drop]
  | false =>
    obtain ⟨cipher, tag, hencrypt, hcipher, hdecrypt⟩ := hopens session.key
      (session.iv (rtcpSsrc rtcp) index) (rtcp ++ toBe 4 (word false index).toNat) []
    have hempty : cipher = [] := List.length_eq_zero_iff.mp hcipher
    refine ⟨rtcp, tag, ?_, rfl, rfl, ?_⟩
    · simp only [GcmSession.seal, hencrypt]
      rfl
    · rw [verify_frame P session hlength, if_neg (fun h ↦ Bool.false_ne_true (hflag.mp h)), hmask,
        ← hempty, hdecrypt, Option.map_some]

theorem octet_frame {rtcp : Bytes} (hlength : text.length = rtcp.length)
    (hheader : clearHeaderLen ≤ rtcp.length)
    (htake : text.take clearHeaderLen = rtcp.take clearHeaderLen) :
    octet (frame text tag esrtcp) 0 = octet rtcp 0 := by
  have hfirst : 0 < clearHeaderLen := by decide
  rw [frame, List.append_assoc, octet_append_left (by omega), ← octet_take hfirst, htake,
    octet_take hfirst]

theorem seal_of_seals {P : Primitives} (hseals : P.Seals) (rtcp : Bytes) (encrypt : Bool)
    (index : UInt32) : ∃ out, session.seal P rtcp encrypt index = .ok out := by
  cases encrypt with
  | false =>
    obtain ⟨⟨cipher, tag⟩, hsome⟩ := Option.isSome_iff_exists.mp (hseals session.key
      (session.iv (rtcpSsrc rtcp) index) (rtcp ++ toBe 4 (word false index).toNat) [])
    simp [GcmSession.seal, hsome]
  | true =>
    obtain ⟨⟨cipher, tag⟩, hsome⟩ := Option.isSome_iff_exists.mp (hseals session.key
      (session.iv (rtcpSsrc rtcp) index)
      (rtcp.take clearHeaderLen ++ toBe 4 (word true index).toNat) (rtcp.drop clearHeaderLen))
    simp [GcmSession.seal, hsome]

/-! ### Buffers -/

/-- `GcmSession::seal` with the buffer: the packet is copied there before the cipher sees it. -/
def sealInto (rtcp : Bytes) (encrypt : Bool) (index : UInt32) : Except SrtpError Unit × Bytes :=
  match session.seal P rtcp encrypt index with
  | .error error => (.error error, rtcp)
  | .ok packet => (.ok (), packet)

/-- `GcmSession::open` with the buffer: a replay is refused before the buffer is touched, and the
buffer is cleared when the tag does not verify. -/
def openInto (body : Bytes) (replay : ReplayWindow) (out : Bytes) :
    Except SrtpError Unit × Bytes × ReplayWindow :=
  let index := bodyWord body &&& indexMask
  if replay.isReplay index.toNat then (.error .replayed, out, replay)
  else
    match session.verify P body with
    | none => (.error .authFailed, [], replay)
    | some text => (.ok (), text, replay.record index.toNat)

end GcmSession

namespace SrtcpGcmContext

variable (P : Primitives)

/-- `SrtcpGcmContext::protect` with the buffer. -/
def protectInto (context : SrtcpGcmContext) (rtcp : Bytes) (encrypt : Bool) (out : Bytes) :
    Except SrtpError Unit × Bytes :=
  match checkRtcp rtcp with
  | .error error => (.error error, out)
  | .ok () =>
    if context.exhausted then (.error .indexExhausted, out)
    else
      match context.keys.getLast? with
      | none => (.error .noKeys, out)
      | some entry =>
        match entry.session.sealInto P rtcp encrypt context.sendIndex with
        | (.error error, out) => (.error error, out)
        | (.ok (), out) => (.ok (), out ++ toBe 4 entry.master.mki.toNat)

/-- `SrtcpGcmContext::unprotect` with the buffer, which it clears first. -/
def unprotectInto (context : SrtcpGcmContext) (srtcp : Bytes) : Except SrtpError Unit × Bytes :=
  if srtcp.length < minPacketLen then (.error .tooShort, [])
  else if octet srtcp 0 >>> 6 ≠ 2 then (.error .badVersion, [])
  else
    match context.keys.find? (·.master.mki == packetMki srtcp) with
    | none => (.error .unknownMki, [])
    | some entry =>
      let (result, out, _) :=
        entry.session.openInto P (srtcp.take (srtcp.length - floorMkiLen)) entry.replay []
      (result, out)

/-- A buffer that holds what a call returned, and other octets after an error. -/
def buffered (otherwise : Bytes) : Except SrtpError Bytes → Except SrtpError Unit × Bytes
  | .error error => (.error error, otherwise)
  | .ok octets => (.ok (), octets)

/-- The buffer holds what is returned, and nothing after an error. -/
theorem unprotectInto_eq (context : SrtcpGcmContext) (srtcp : Bytes) :
    context.unprotectInto P srtcp = buffered [] (context.unprotect P srtcp).1 := by
  unfold unprotectInto unprotect
  split_ifs with hshort hversion
  · rfl
  · rfl
  · dsimp only
    rw [packetMki]
    cases context.keys.find? (·.master.mki == readU32 srtcp (srtcp.length - floorMkiLen)) with
    | none => rfl
    | some entry =>
      unfold GcmSession.openInto GcmSession.open
      dsimp only
      split_ifs with hreplay
      · rfl
      · cases entry.session.verify P (srtcp.take (srtcp.length - floorMkiLen)) <;> rfl

/-- The buffer holds what is returned, and after an error what it held before. Assumes: the cipher
seals everything. -/
theorem protectInto_eq {P : Primitives} (hopens : P.Opens) (context : SrtcpGcmContext)
    (rtcp : Bytes) (encrypt : Bool) (out : Bytes) :
    context.protectInto P rtcp encrypt out =
      buffered out (context.protect P rtcp encrypt).1 := by
  unfold protectInto protect
  cases checkRtcp rtcp with
  | error error => rfl
  | ok =>
    by_cases hexhausted : context.exhausted = true
    · rw [if_pos hexhausted, if_pos hexhausted]
      rfl
    · rw [if_neg hexhausted, if_neg hexhausted]
      cases context.keys.getLast? with
      | none => rfl
      | some entry =>
        obtain ⟨packet, hpacket⟩ :=
          entry.session.seal_of_seals hopens.seals rtcp encrypt context.sendIndex
        dsimp only
        rw [GcmSession.sealInto, hpacket]
        rfl

theorem fst_buffered_eq_error {otherwise : Bytes} {result : Except SrtpError Bytes}
    {error : SrtpError} (herror : (buffered otherwise result).1 = .error error) :
    (buffered otherwise result).2 = otherwise := by
  cases result with
  | error _ => rfl
  | ok octets => cases herror

/-! ### The MKI -/

theorem length_sub_floorMkiLen (body : Bytes) (mki : UInt32) :
    (body ++ toBe 4 mki.toNat).length - floorMkiLen = body.length := by
  rw [List.length_append]
  rfl

/-- The MKI after a body. -/
theorem packetMki_append (body : Bytes) (mki : UInt32) :
    packetMki (body ++ toBe 4 mki.toNat) = mki := by
  have hright := readU32_append_right body (toBe 4 mki.toNat) 0
  have hread := readU32_toBe mki.toNat []
  rw [List.append_nil] at hread
  rw [Nat.add_zero] at hright
  rw [packetMki, length_sub_floorMkiLen, hright, hread, UInt32.ofNat_toNat]

/-- A sealed packet carries the index it was sealed at. -/
theorem packetSrtcpIndex_of_seal {session : GcmSession} {rtcp body : Bytes} {encrypt : Bool}
    {index : UInt32} (hseal : session.seal P rtcp encrypt index = .ok body)
    (hindex : index.toNat < 2 ^ 31) (mki : UInt32) :
    packetSrtcpIndex (body ++ toBe 4 mki.toNat) = index.toNat := by
  obtain ⟨text, tag, rfl⟩ := session.exists_frame_of_seal hseal
  rw [packetSrtcpIndex, length_sub_floorMkiLen, List.take_left, GcmSession.bodyWord_frame,
    GcmSession.word_and_indexMask hindex]

/-- What a sender protects, a receiver that holds the sender's key reads. -/
theorem unprotect_protect_gcm {P : Primitives} (hopens : P.Opens)
    {sender receiver : SrtcpGcmContext} {entry held : KeyEntry} {rtcp : Bytes} (encrypt : Bool)
    (hcheck : checkRtcp rtcp = .ok ()) (hleft : sender.exhausted = false)
    (hindex : sender.sendIndex.toNat < 2 ^ 31) (hentry : sender.keys.getLast? = some entry)
    (hheld : receiver.keys.find? (·.master.mki == entry.master.mki) = some held)
    (hsession : held.session = entry.session)
    (hnew : held.replay.isReplay sender.sendIndex.toNat = false) :
    ∃ srtcp, (sender.protect P rtcp encrypt).1 = .ok srtcp ∧
      (receiver.unprotect P srtcp).1 = .ok rtcp := by
  have hshape : clearHeaderLen ≤ rtcp.length ∧ octet rtcp 0 >>> 6 = 2 := by
    unfold checkRtcp at hcheck
    split_ifs at hcheck with hshort hversion
    exact ⟨by omega, not_not.mp hversion⟩
  obtain ⟨text, tag, hseal, hlength, htake, hverify⟩ :=
    entry.session.seal_frame hopens hshape.1 hindex encrypt
  generalize hesrtcp : GcmSession.word encrypt sender.sendIndex = esrtcp at hseal hverify
  have hword : GcmSession.bodyWord (GcmSession.frame text tag esrtcp) = esrtcp :=
    GcmSession.bodyWord_frame
  have hsize : (GcmSession.frame text tag esrtcp).length = text.length + 20 :=
    GcmSession.length_frame
  have hfirst : octet (GcmSession.frame text tag esrtcp) 0 = octet rtcp 0 :=
    GcmSession.octet_frame hlength hshape.1 htake
  generalize GcmSession.frame text tag esrtcp = body at *
  have hlong : ¬ (body ++ toBe 4 entry.master.mki.toNat).length < minPacketLen := by
    have hheader : clearHeaderLen = 8 := rfl
    have hmin : minPacketLen = 32 := rfl
    rw [List.length_append, length_toBe]
    omega
  have hversion : octet (body ++ toBe 4 entry.master.mki.toNat) 0 >>> 6 = 2 := by
    rw [octet_append_left (by omega), hfirst]
    exact hshape.2
  have hopen : held.session.open P body held.replay =
      (.ok rtcp, held.replay.record sender.sendIndex.toNat) := by
    unfold GcmSession.open
    rw [hword, ← hesrtcp, GcmSession.word_and_indexMask hindex, hsession, hverify]
    dsimp only
    rw [hnew, if_neg Bool.false_ne_true]
  have hmki := packetMki_append body entry.master.mki
  rw [packetMki] at hmki
  refine ⟨body ++ toBe 4 entry.master.mki.toNat, ?_, ?_⟩
  · simp only [protect, hcheck, hleft, hentry, hseal, Bool.false_eq_true, ↓reduceIte]
  · unfold unprotect
    rw [if_neg hlong, if_neg (not_not.mpr hversion)]
    dsimp only
    rw [hmki, hheld, length_sub_floorMkiLen, List.take_left]
    dsimp only
    rw [hopen]

end SrtcpGcmContext

theorem transparent_opens : transparent.Opens := by
  intro key nonce associated text
  exact ⟨text, Vector.replicate 16 0, rfl, rfl, rfl⟩

end SiphonRtp.Srtp
