import SiphonRtp.Srtp.RtcpContext

/-!
# The AES-GCM SRTCP context

`SrtcpGcmContext` of `siphon-rtp-srtp/src/srtcp_gcm.rs` (RFC 7714 §9), the profile of the MCPTT
floor control channel: a set of at most two master keys selected by MKI for receiving, the last of
which protects outgoing packets, a replay window for each key, and a 31-bit send index that stops at
its last value instead of wrapping.

The wiping of key material when an entry is dropped is left out: no result of a call depends on it.
-/

set_option autoImplicit false

namespace SiphonRtp.Srtp

open Machine

/-- `GCM_TAG_LEN`. -/
def gcmTagLen : ℕ := 16

/-- `ESRTCP_LEN`, the length of the `E|SRTCP-index` word. -/
def esrtcpLen : ℕ := 4

/-- `MKI_LEN`, the MKI length of floor control. -/
def floorMkiLen : ℕ := 4

/-- `LAST_INDEX`, the last index a sender may use, and `MAX_SEND_INDEX`. -/
def lastIndex : UInt32 := indexMask

/-- `MAX_KEYS`, the keys held at once: the current one and its predecessor. -/
def maxKeys : ℕ := 2

/-- `MIN_PACKET_LEN`: header, tag, ESRTCP word and MKI. -/
def minPacketLen : ℕ := clearHeaderLen + gcmTagLen + esrtcpLen + floorMkiLen

/-- A floor-control master key: the MKI that names it on the wire, the master key and salt. -/
structure FloorMasterKey where
  mki : UInt32
  masterKey : MasterKey
  masterSalt : MasterSalt
deriving DecidableEq

/-- One GCM session: the key of its cipher and the session salt. -/
structure GcmSession where
  key : Vector UInt8 16
  salt : Vector UInt8 12
deriving DecidableEq

section Session

variable (P : Primitives)

/-- The RFC 3711 §4.3 key derivation with the SRTCP labels. -/
def GcmSession.derive (master : FloorMasterKey) : GcmSession where
  key := Srtp.derive P master.masterKey master.masterSalt .rtcpEncryption 16
  salt := Srtp.derive P master.masterKey master.masterSalt .rtcpSalt 12

/-- The RFC 7714 §9.1 IV. -/
def GcmSession.iv (session : GcmSession) (ssrc index : UInt32) : Vector UInt8 12 :=
  Vector.ofFn fun position ↦
    octetAt session.salt position ^^^
      (if 2 ≤ position.val ∧ position.val < 6 then octet (toBe 4 ssrc.toNat) (position.val - 2)
        else 0) ^^^
      (if 8 ≤ position.val then
        octet (toBe 4 (index &&& indexMask).toNat) (position.val - 8)
        else 0)

/-- The ESRTCP word of a packet. -/
def GcmSession.word (encrypt : Bool) (index : UInt32) : UInt32 :=
  (if encrypt then encryptFlag else 0) ||| index

/-- Protect a compound packet as `header || cipher || tag || ESRTCP`. The caller has checked its
length. -/
def GcmSession.seal (session : GcmSession) (rtcp : Bytes) (encrypt : Bool) (index : UInt32) :
    Except SrtpError Bytes :=
  let nonce := session.iv (rtcpSsrc rtcp) index
  let esrtcp := toBe 4 (GcmSession.word encrypt index).toNat
  if encrypt then
    let header := rtcp.take clearHeaderLen
    match P.gcmEncrypt session.key nonce (header ++ esrtcp) (rtcp.drop clearHeaderLen) with
    | none => .error .authFailed
    | some (cipher, tag) => .ok (header ++ cipher ++ tag.toList ++ esrtcp)
  else
    -- everything, then the word, is associated data, and there is no plaintext
    match P.gcmEncrypt session.key nonce (rtcp ++ esrtcp) [] with
    | none => .error .authFailed
    | some (_, tag) => .ok (rtcp ++ tag.toList ++ esrtcp)

/-- The ESRTCP word of a received body. -/
def GcmSession.bodyWord (body : Bytes) : UInt32 := readU32 body (body.length - esrtcpLen)

/-- Verify and, where the word says so, decrypt the part of a body before its tag. -/
def GcmSession.verify (session : GcmSession) (body : Bytes) : Option Bytes :=
  let wordAt := body.length - esrtcpLen
  let esrtcp := body.drop wordAt
  let tagAt := wordAt - gcmTagLen
  let tag : Vector UInt8 16 := Vector.ofFn fun position ↦ octet body (tagAt + position)
  let nonce := session.iv (rtcpSsrc body) (GcmSession.bodyWord body &&& indexMask)
  let text := body.take tagAt
  if GcmSession.bodyWord body &&& encryptFlag ≠ 0 then
    let header := body.take clearHeaderLen
    (P.gcmDecrypt session.key nonce (header ++ esrtcp) (text.drop clearHeaderLen) tag).map
      (header ++ ·)
  else (P.gcmDecrypt session.key nonce (text ++ esrtcp) [] tag).map fun _ ↦ text

/-- Verify and decrypt a body. The window is consulted before the tag and recorded only after it
verifies. -/
def GcmSession.open (session : GcmSession) (body : Bytes) (replay : ReplayWindow) :
    Except SrtpError Bytes × ReplayWindow :=
  let index := GcmSession.bodyWord body &&& indexMask
  if replay.isReplay index.toNat then (.error .replayed, replay)
  else
    match session.verify P body with
    | none => (.error .authFailed, replay)
    | some out => (.ok out, replay.record index.toNat)

end Session

/-- A held key: its master key, the session derived from it, and its replay window. -/
structure KeyEntry where
  master : FloorMasterKey
  session : GcmSession
  replay : ReplayWindow
deriving DecidableEq

namespace KeyEntry

def new (P : Primitives) (master : FloorMasterKey) : KeyEntry where
  master := master
  session := .derive P master
  replay := {}

/-- Same MKI and same key material: the entry and its replay state may be kept. -/
def isSameKey (entry : KeyEntry) (other : FloorMasterKey) : Bool :=
  decide (entry.master.mki = other.mki) &&
    (decide (entry.master.masterKey = other.masterKey) &&
      decide (entry.master.masterSalt = other.masterSalt))

end KeyEntry

/-- An SRTCP endpoint: the keys oldest first, the last of them sending, and the send index. -/
structure SrtcpGcmContext where
  keys : List KeyEntry
  sendIndex : UInt32
  exhausted : Bool
deriving DecidableEq

/-- `Vec::swap_remove`: the element at a position is replaced by the last one. -/
def swapRemove {α : Type*} (elements : List α) (position : ℕ) : List α :=
  match elements.getLast? with
  | none => elements
  | some last => (elements.set position last).dropLast

namespace SrtcpGcmContext

variable (P : Primitives)

/-- The loop of `replace_keys`: a key already held with identical material is taken over with its
replay state, every other one is new. -/
def collectKeys : List KeyEntry → List FloorMasterKey → List KeyEntry
  | _, [] => []
  | held, master :: rest =>
    match held.find? (·.isSameKey master) with
    | some entry => entry :: collectKeys (swapRemove held (held.findIdx (·.isSameKey master))) rest
    | none => KeyEntry.new P master :: collectKeys held rest

/-- The keys of a set that a context keeps, the last two of them. -/
def keptKeys (keys : List FloorMasterKey) : List FloorMasterKey := keys.drop (keys.length - maxKeys)

/-- The checks of `replace_keys` on the kept keys. -/
def checkKeys (kept : List FloorMasterKey) : Except SrtpError Unit :=
  match kept with
  | [] => .error .noKeys
  | [first, second] => if first.mki = second.mki then .error .duplicateMki else .ok ()
  | _ => .ok ()

/-- Replace the whole key set. The send index is kept, and on error the existing set is
untouched. -/
def replaceKeys (context : SrtcpGcmContext) (keys : List FloorMasterKey) :
    Except SrtpError Unit × SrtcpGcmContext :=
  match checkKeys (keptKeys keys) with
  | .error error => (.error error, context)
  | .ok () => (.ok (), { context with keys := collectKeys P context.keys (keptKeys keys) })

/-- Build a context from a key set. -/
def new (keys : List FloorMasterKey) : Except SrtpError SrtcpGcmContext :=
  match replaceKeys P { keys := [], sendIndex := 0, exhausted := false } keys with
  | (.error error, _) => .error error
  | (.ok (), context) => .ok context

/-- The highest index that authenticated under each held key, for an HA checkpoint. A key nothing
has authenticated under is absent. -/
def receivedIndices (context : SrtcpGcmContext) : List (UInt32 × UInt32) :=
  context.keys.filterMap fun entry ↦
    -- the conversion from `u64` fails outside the 32-bit range
    entry.replay.highest.bind fun highest ↦
      if highest < 2 ^ 32 then some (entry.master.mki, UInt32.ofNat highest) else none

/-- Resume the replay state of the key an MKI names: the index and everything below it count as
received. A key the context does not hold is ignored. -/
def resumeReceived (context : SrtcpGcmContext) (mki index : UInt32) : SrtcpGcmContext :=
  match context.keys.find? (·.master.mki == mki) with
  | none => context
  | some entry =>
    { context with
      keys := context.keys.set (context.keys.findIdx (·.master.mki == mki))
        { entry with replay := .closeAt (index &&& indexMask).toNat } }

/-- Resume the outgoing index from a checkpoint. -/
def setSendIndex (context : SrtcpGcmContext) (index : UInt32) : SrtcpGcmContext :=
  { context with sendIndex := index &&& indexMask, exhausted := false }

/-- Protect a compound RTCP packet with the sending key. -/
def protect (context : SrtcpGcmContext) (rtcp : Bytes) (encrypt : Bool) :
    Except SrtpError Bytes × SrtcpGcmContext :=
  match checkRtcp rtcp with
  | .error error => (.error error, context)
  | .ok () =>
    if context.exhausted then (.error .indexExhausted, context)
    else
      match context.keys.getLast? with
      | none => (.error .noKeys, context)
      | some entry =>
        let index := context.sendIndex
        match entry.session.seal P rtcp encrypt index with
        | .error error => (.error error, context)
        | .ok out =>
          (.ok (out ++ toBe 4 entry.master.mki.toNat),
            -- the index stops at its last value, it never wraps
            if index = lastIndex then { context with exhausted := true }
            else { context with sendIndex := index + 1 })

/-- Verify and decrypt an SRTCP packet with the key its MKI names. -/
def unprotect (context : SrtcpGcmContext) (srtcp : Bytes) :
    Except SrtpError Bytes × SrtcpGcmContext :=
  if srtcp.length < minPacketLen then (.error .tooShort, context)
  else if octet srtcp 0 >>> 6 ≠ 2 then (.error .badVersion, context)
  else
    let body := srtcp.take (srtcp.length - floorMkiLen)
    let mki := readU32 srtcp (srtcp.length - floorMkiLen)
    match context.keys.find? (·.master.mki == mki) with
    | none => (.error .unknownMki, context)
    | some entry =>
      let (result, replay) := entry.session.open P body entry.replay
      (result, { context with
        keys := context.keys.set (context.keys.findIdx (·.master.mki == mki))
          { entry with replay } })

end SrtcpGcmContext

/-- A call on a context. -/
inductive GcmCall
  | protect (rtcp : Bytes) (encrypt : Bool)
  | unprotect (srtcp : Bytes)
  | replaceKeys (keys : List FloorMasterKey)
deriving DecidableEq

namespace SrtcpGcmContext

variable (P : Primitives)

/-- One call: what it wrote, nothing for a replacement of the keys, and the next context. -/
def call (context : SrtcpGcmContext) : GcmCall → Except SrtpError Bytes × SrtcpGcmContext
  | .protect rtcp encrypt => context.protect P rtcp encrypt
  | .unprotect srtcp => context.unprotect P srtcp
  | .replaceKeys keys =>
    ((context.replaceKeys P keys).1.map fun () ↦ [], (context.replaceKeys P keys).2)

/-! ### What the operations do -/

/-- The MKI a received packet names. -/
def packetMki (srtcp : Bytes) : UInt32 := readU32 srtcp (srtcp.length - floorMkiLen)

/-- The SRTCP index a received packet carries. -/
def packetSrtcpIndex (srtcp : Bytes) : ℕ :=
  (GcmSession.bodyWord (srtcp.take (srtcp.length - floorMkiLen)) &&& indexMask).toNat

/-- The entries after the first one an MKI names had its window replaced. -/
def withReplay (context : SrtcpGcmContext) (mki : UInt32) (entry : KeyEntry)
    (replay : ReplayWindow) : SrtcpGcmContext :=
  { context with
    keys := context.keys.set (context.keys.findIdx (·.master.mki == mki)) { entry with replay } }

theorem withReplay_self {context : SrtcpGcmContext} {mki : UInt32} {entry : KeyEntry}
    (hentry : context.keys.find? (·.master.mki == mki) = some entry) :
    context.withReplay mki entry entry.replay = context := by
  have hat : context.keys[context.keys.findIdx (·.master.mki == mki)]? = some entry := by
    rwa [← List.find?_eq_getElem?_findIdx]
  obtain ⟨hlt, hget⟩ := List.getElem?_eq_some_iff.mp hat
  have hset : context.keys.set (context.keys.findIdx (·.master.mki == mki)) entry =
      context.keys := by
    conv_lhs => rw [← hget]
    exact List.set_getElem_self hlt
  rw [withReplay, hset]

/-- Unprotecting either fails and leaves the context alone, or finds the entry the packet's MKI
names, verifies the packet under it and records an index its window did not refuse. -/
theorem unprotect_cases (context : SrtcpGcmContext) (srtcp : Bytes) :
    (∃ error, context.unprotect P srtcp = (.error error, context)) ∨
      ∃ entry plain, context.keys.find? (·.master.mki == packetMki srtcp) = some entry ∧
        entry.replay.isReplay (packetSrtcpIndex srtcp) = false ∧
        entry.session.verify P (srtcp.take (srtcp.length - floorMkiLen)) = some plain ∧
        context.unprotect P srtcp =
          (.ok plain, context.withReplay (packetMki srtcp) entry
            (entry.replay.record (packetSrtcpIndex srtcp))) := by
  by_cases hshort : srtcp.length < minPacketLen
  · exact Or.inl ⟨_, by rw [unprotect, if_pos hshort]⟩
  by_cases hversion : octet srtcp 0 >>> 6 ≠ 2
  · exact Or.inl ⟨_, by rw [unprotect, if_neg hshort, if_pos hversion]⟩
  rcases hentry : context.keys.find? (·.master.mki == packetMki srtcp) with _ | entry
  · left
    rw [packetMki] at hentry
    simp only [unprotect, hshort, hversion, hentry]
    exact ⟨.unknownMki, rfl⟩
  have hself := withReplay_self hentry
  have hunfold : context.unprotect P srtcp =
      ((entry.session.open P (srtcp.take (srtcp.length - floorMkiLen)) entry.replay).1,
        context.withReplay (packetMki srtcp) entry
          (entry.session.open P (srtcp.take (srtcp.length - floorMkiLen)) entry.replay).2) := by
    simp only [packetMki] at hentry ⊢
    simp only [unprotect, hshort, hversion, hentry, ↓reduceIte, withReplay]
  rw [hunfold, GcmSession.open]
  by_cases hreplay : entry.replay.isReplay (packetSrtcpIndex srtcp) = true
  · left
    rw [packetSrtcpIndex] at hreplay
    simp only [hreplay, ↓reduceIte, hself]
    exact ⟨.replayed, rfl⟩
  · rw [packetSrtcpIndex] at hreplay ⊢
    simp only [hreplay, Bool.false_eq_true, ↓reduceIte]
    rcases hverify : entry.session.verify P (srtcp.take (srtcp.length - floorMkiLen)) with
      _ | plain
    · left
      exact ⟨.authFailed, by simp only [hself]⟩
    · right
      exact ⟨entry, plain, hentry, Bool.eq_false_iff.mpr hreplay, hverify, rfl⟩

/-- Protecting either fails and leaves the context alone, or seals under the last key at the send
index and moves it. -/
theorem protect_cases (context : SrtcpGcmContext) (rtcp : Bytes) (encrypt : Bool) :
    (∃ error, context.protect P rtcp encrypt = (.error error, context)) ∨
      ∃ entry out, context.exhausted = false ∧ context.keys.getLast? = some entry ∧
        entry.session.seal P rtcp encrypt context.sendIndex = .ok out ∧
        context.protect P rtcp encrypt =
          (.ok (out ++ toBe 4 entry.master.mki.toNat),
            if context.sendIndex = lastIndex then { context with exhausted := true }
            else { context with sendIndex := context.sendIndex + 1 }) := by
  rcases hcheck : checkRtcp rtcp with error | _
  · exact Or.inl ⟨error, by simp only [protect, hcheck]⟩
  rcases hexhausted : context.exhausted with _ | _
  · rcases hentry : context.keys.getLast? with _ | entry
    · left
      exact ⟨.noKeys, by simp only [protect, hcheck, hexhausted, hentry, Bool.false_eq_true,
        ↓reduceIte]⟩
    · rcases hseal : entry.session.seal P rtcp encrypt context.sendIndex with error | out
      · left
        exact ⟨error, by simp only [protect, hcheck, hexhausted, hentry, hseal,
          Bool.false_eq_true, ↓reduceIte]⟩
      · right
        refine ⟨entry, out, rfl, rfl, hseal, ?_⟩
        simp only [protect, hcheck, hexhausted, hentry, hseal, Bool.false_eq_true, ↓reduceIte]
  · exact Or.inl ⟨.indexExhausted, by simp only [protect, hcheck, hexhausted, ↓reduceIte]⟩

/-- Replacing the keys either fails and leaves the context alone, or replaces the entries and
nothing else. -/
theorem replaceKeys_cases (context : SrtcpGcmContext) (keys : List FloorMasterKey) :
    (∃ error, checkKeys (keptKeys keys) = .error error ∧
        context.replaceKeys P keys = (.error error, context)) ∨
      (checkKeys (keptKeys keys) = .ok () ∧ context.replaceKeys P keys =
        (.ok (), { context with keys := collectKeys P context.keys (keptKeys keys) })) := by
  rcases hcheck : checkKeys (keptKeys keys) with error | _
  · exact Or.inl ⟨error, rfl, by simp only [replaceKeys, hcheck]⟩
  · exact Or.inr ⟨rfl, by simp only [replaceKeys, hcheck]⟩

/-- A failed call leaves the context alone. -/
theorem call_of_error (context : SrtcpGcmContext) (input : GcmCall) {error : SrtpError}
    (herror : (context.call P input).1 = .error error) : (context.call P input).2 = context := by
  cases input with
  | protect rtcp encrypt =>
    simp only [call] at herror ⊢
    rcases context.protect_cases P rtcp encrypt with ⟨_, heq⟩ | ⟨_, _, -, -, -, heq⟩
    · rw [heq]
    · simp [heq] at herror
  | unprotect srtcp =>
    simp only [call] at herror ⊢
    rcases context.unprotect_cases P srtcp with ⟨_, heq⟩ | ⟨_, _, -, -, -, heq⟩
    · rw [heq]
    · simp [heq] at herror
  | replaceKeys keys =>
    simp only [call] at herror ⊢
    rcases context.replaceKeys_cases P keys with ⟨_, -, heq⟩ | ⟨-, heq⟩
    · rw [heq]
    · simp [heq, Except.map] at herror

/-- A failed packet leaves the context alone. -/
theorem unprotect_of_error {context : SrtcpGcmContext} {srtcp : Bytes} {error : SrtpError}
    (herror : (context.unprotect P srtcp).1 = .error error) :
    (context.unprotect P srtcp).2 = context :=
  context.call_of_error P (.unprotect srtcp) herror

end SrtcpGcmContext

/-! ### A sample context -/

/-- Primitives that hide nothing and take every tag. -/
def transparent : Primitives where
  aesCtr _ _ _ := 0
  hmacSha1 _ _ := Vector.replicate 20 0
  gcmEncrypt _ _ _ text := some (text, Vector.replicate 16 0)
  gcmDecrypt _ _ _ text _ := some text

/-- A master key to send under. -/
def sampleMaster : FloorMasterKey where
  mki := 7
  masterKey := Vector.replicate 16 1
  masterSalt := Vector.replicate 14 2

/-- The context fresh from that key. -/
def sampleContext (P : Primitives) : SrtcpGcmContext where
  keys := [KeyEntry.new P sampleMaster]
  sendIndex := 0
  exhausted := false

theorem new_sampleMaster (P : Primitives) :
    SrtcpGcmContext.new P [sampleMaster] = .ok (sampleContext P) := rfl

end SiphonRtp.Srtp
