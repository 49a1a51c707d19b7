import SiphonRtp.Srtp.KeyMaterial
import SiphonRtp.Srtp.ReplayWindow
import Mathlib.Data.List.AList

/-!
# The SRTP context

`SrtpContext` of `siphon-rtp-srtp/src/lib.rs`: session keys, and per SSRC the rollover anchor and
replay window. `StreamState.indexFor` is the RFC 3711 §3.3.1 rollover estimation with its wrapping
32-bit arithmetic; `protect` advances the anchor of the stream it seals, `unprotect` works on a copy
of the stream and commits it only after the tag verified.

Every operation returns what it produced and the next context. The source writes into an output
buffer it clears first; here the buffer of a successful call is the value of the result, and a
failed call hands no octets on. The stream table is a hash map in the source, whose iteration order
is unspecified; it is an association list with distinct keys here, and no statement depends on its
order.
-/

set_option autoImplicit false

namespace SiphonRtp.Srtp

open Machine

/-! ### Rollover estimation -/

/-- Per-SSRC rollover state and replay filter. -/
structure StreamState where
  roc : UInt32 := 0
  highestSeq : Option UInt16 := none
  replay : ReplayWindow := {}
deriving DecidableEq, Repr

/-- A per-SSRC rollover checkpoint. -/
structure StreamRollover where
  ssrc : UInt32
  roc : UInt32
  highestSeq : Option UInt16
deriving DecidableEq, Repr

/-- The 48-bit packet index `roc · 2¹⁶ + seq`, as the source assembles it. -/
def packetIndex (roc : UInt32) (seq : UInt16) : ℕ := (roc.toNat <<< 16) ||| seq.toNat

/-- The rollover counter guessed for `seq` when `highest` is the anchor under `roc`. -/
def guessRoc (roc : UInt32) (highest seq : UInt16) : UInt32 :=
  if highest < 32768 then
    -- old packet from before the previous wrap
    if (seq.toNat : ℤ) - highest.toNat > 32768 then roc - 1 else roc
  -- seq wrapped forward
  else if (highest.toNat : ℤ) - seq.toNat > 32768 then roc + 1 else roc

/-- The packet index of `seq` and the rollover counter to authenticate with, advancing the rollover
state for in-order and wrapping packets. -/
def StreamState.indexFor (state : StreamState) (seq : UInt16) : (ℕ × UInt32) × StreamState :=
  match state.highestSeq with
  | none => ((seq.toNat, state.roc), { state with highestSeq := some seq })
  | some highest =>
    let v := guessRoc state.roc highest seq
    ((packetIndex v seq, v),
      -- only the current or the next rollover advances the state, never an old packet
      if v = state.roc ∧ seq > highest then { state with highestSeq := some seq }
      else if v = state.roc + 1 then { state with roc := v, highestSeq := some seq }
      else state)

/-- The stream state an accepted packet leaves behind: the advanced anchor, and its index in the
replay filter. -/
def StreamState.accepted (state : StreamState) (seq : UInt16) : StreamState :=
  { (state.indexFor seq).2 with replay := state.replay.record (state.indexFor seq).1.1 }

/-! ### Header parsing -/

/-- Header length, SSRC and sequence number of an RTP packet. -/
def parseRtpHeader (packet : Bytes) : Except SrtpError (ℕ × UInt32 × UInt16) :=
  if packet.length < 12 then .error .tooShort
  else if octet packet 0 >>> 6 ≠ 2 then .error .badVersion
  else
    let csrcCount := (octet packet 0 &&& 0x0F).toNat
    let seq := readU16 packet 2
    let ssrc := readU32 packet 8
    let headerLen := 12 + 4 * csrcCount
    if octet packet 0 &&& 0x10 ≠ 0 then
      -- extension: a 4-octet header, then its length in words
      if packet.length < headerLen + 4 then .error .tooShort
      else
        let words := (readU16 packet (headerLen + 2)).toNat
        if packet.length < headerLen + (4 + words * 4) then .error .tooShort
        else .ok (headerLen + (4 + words * 4), ssrc, seq)
    else if packet.length < headerLen then .error .tooShort
    else .ok (headerLen, ssrc, seq)

/-! ### The context -/

/-- The per-SSRC streams of a context. -/
abbrev StreamTable := AList fun _ : UInt32 ↦ StreamState

/-- An SRTP session: the derived session keys plus per-SSRC rollover state. -/
structure SrtpContext where
  sessionKey : Vector UInt8 16
  sessionSalt : MasterSalt
  sessionAuth : Vector UInt8 20
  streams : StreamTable
  mki : Option Mki

/-- The state of a stream, the default one for an SSRC not seen before. -/
def SrtpContext.stream (context : SrtpContext) (ssrc : UInt32) : StreamState :=
  (context.streams.lookup ssrc).getD {}

/-- The context with the state of a stream replaced. -/
def SrtpContext.setStream (context : SrtpContext) (ssrc : UInt32) (state : StreamState) :
    SrtpContext :=
  { context with streams := context.streams.insert ssrc state }

section Operations

variable (P : Primitives)

/-- `SrtpContext::new` with the MKI of `from_key_material`. -/
def SrtpContext.fromKeyMaterial (material : SrtpKeyMaterial) : SrtpContext where
  sessionKey := derive P material.masterKey material.masterSalt .rtpEncryption 16
  sessionSalt := derive P material.masterKey material.masterSalt .rtpSalt 14
  sessionAuth := derive P material.masterKey material.masterSalt .rtpAuthentication 20
  streams := ∅
  mki := material.mki

/-- The AES-CM keystream of one packet under a context's session keys. -/
def SrtpContext.keystream (context : SrtpContext) (ssrc : UInt32) (index : ℕ) : ℕ → UInt8 :=
  P.aesCtr context.sessionKey (cipherIv context.sessionSalt ssrc index)

/-- Encrypt and authenticate an RTP packet: `header || AES-CM(payload) || [MKI] || tag`. -/
def SrtpContext.protect (context : SrtpContext) (rtp : Bytes) :
    Except SrtpError Bytes × SrtpContext :=
  match parseRtpHeader rtp with
  | .error error => (.error error, context)
  | .ok (headerLen, ssrc, seq) =>
    let ((index, roc), state) := (context.stream ssrc).indexFor seq
    let out := xorFrom headerLen (context.keystream P ssrc index) rtp
    let tag := authTag P context.sessionAuth out roc
    (.ok (out ++ mkiField context.mki ++ tag), context.setStream ssrc state)

/-- Reject replays, verify the tag and decrypt an SRTP packet. -/
def SrtpContext.unprotect (context : SrtpContext) (srtp : Bytes) :
    Except SrtpError Bytes × SrtpContext :=
  if srtp.length < 12 + mkiLen context.mki + authTagLen then (.error .tooShort, context)
  else
    let tag := srtp.drop (srtp.length - authTagLen)
    match stripMki (srtp.take (srtp.length - authTagLen)) context.mki with
    | .error error => (.error error, context)
    | .ok authenticated =>
      match parseRtpHeader authenticated with
      | .error error => (.error error, context)
      | .ok (headerLen, ssrc, seq) =>
        -- estimated on a copy of the stream state, so a failed packet never advances it
        let ((index, roc), state) := (context.stream ssrc).indexFor seq
        if state.replay.isReplay index then (.error .replayed, context)
        else if authTag P context.sessionAuth authenticated roc ≠ tag then
          (.error .authFailed, context)
        else
          (.ok (xorFrom headerLen (context.keystream P ssrc index) authenticated),
            context.setStream ssrc { state with replay := state.replay.record index })

end Operations

/-- The per-SSRC rollover state of a context, for an HA checkpoint. -/
def SrtpContext.rolloverState (context : SrtpContext) : List StreamRollover :=
  context.streams.entries.map fun entry ↦ ⟨entry.1, entry.2.roc, entry.2.highestSeq⟩

/-- The stream state a checkpoint is restored to: its anchor, and a replay filter anchored there. -/
def StreamRollover.seeded (rollover : StreamRollover) : StreamState where
  roc := rollover.roc
  highestSeq := rollover.highestSeq
  replay :=
    match rollover.highestSeq with
    | none => {}
    | some seq => .anchor (packetIndex rollover.roc seq)

/-- Seed a stream's rollover state from an HA checkpoint. -/
def SrtpContext.seedStream (context : SrtpContext) (rollover : StreamRollover) : SrtpContext :=
  context.setStream rollover.ssrc rollover.seeded

/-! ### What the operations do

One lemma per function. `indexFor` is left to `Rollover`, and everything below holds whatever it
guesses. -/

theorem packetIndex_eq (roc : UInt32) (seq : UInt16) :
    packetIndex roc seq = roc.toNat * 2 ^ 16 + seq.toNat := by
  rw [packetIndex, ← Nat.shiftLeft_add_eq_or_of_lt seq.toNat_lt, Nat.shiftLeft_eq]

/-- The length the header of a packet announces, CSRC list and extension included. -/
def announcedHeaderLen (packet : Bytes) : ℕ :=
  let fixed := 12 + 4 * (octet packet 0 &&& 0x0F).toNat
  if octet packet 0 &&& 0x10 ≠ 0 then fixed + (4 + (readU16 packet (fixed + 2)).toNat * 4)
  else fixed

/-- A packet parses exactly when it is a version 2 packet that holds its announced header. -/
theorem parseRtpHeader_eq_ok_iff {packet : Bytes} {headerLen : ℕ} {ssrc : UInt32} {seq : UInt16} :
    parseRtpHeader packet = .ok (headerLen, ssrc, seq) ↔
      octet packet 0 >>> 6 = 2 ∧ headerLen = announcedHeaderLen packet ∧
        12 ≤ headerLen ∧ headerLen ≤ packet.length ∧
        ssrc = readU32 packet 8 ∧ seq = readU16 packet 2 := by
  have hfixed : 12 ≤ announcedHeaderLen packet := by
    simp only [announcedHeaderLen]
    split_ifs <;> omega
  by_cases hshort : packet.length < 12
  · simp only [parseRtpHeader, if_pos hshort, reduceCtorEq, false_iff]
    omega
  by_cases hversion : octet packet 0 >>> 6 = 2
  · have hlength : parseRtpHeader packet =
        if packet.length < announcedHeaderLen packet then .error .tooShort
        else .ok (announcedHeaderLen packet, readU32 packet 8, readU16 packet 2) := by
      simp only [parseRtpHeader, announcedHeaderLen, hshort, hversion, ne_eq, not_true_eq_false]
      by_cases hextension : octet packet 0 &&& 16 = 0
      · simp only [hextension, not_true_eq_false, ↓reduceIte]
      · simp only [hextension, not_false_eq_true, ↓reduceIte]
        by_cases hroom : packet.length < 12 + 4 * (octet packet 0 &&& 15).toNat + 4
        · rw [if_pos hroom, if_pos (by omega)]
        · rw [if_neg hroom]
    rw [hlength]
    split_ifs with hlong
    · simp only [false_iff]
      omega
    · simp only [Except.ok.injEq, Prod.mk.injEq]
      constructor
      · rintro ⟨rfl, rfl, rfl⟩
        exact ⟨hversion, rfl, hfixed, by omega, rfl, rfl⟩
      · rintro ⟨-, rfl, -, -, rfl, rfl⟩
        exact ⟨rfl, rfl, rfl⟩
  · simp only [parseRtpHeader, hshort, hversion, ne_eq, not_false_eq_true, ↓reduceIte,
      reduceCtorEq, false_and]

/-- Parsing reads the header alone: a packet of the same length with the same header octets parses
to the same result. -/
theorem parseRtpHeader_congr {packet other : Bytes} {headerLen : ℕ} {ssrc : UInt32} {seq : UInt16}
    (hparse : parseRtpHeader packet = .ok (headerLen, ssrc, seq))
    (hlength : other.length = packet.length)
    (hoctets : ∀ position < headerLen, octet other position = octet packet position) :
    parseRtpHeader other = .ok (headerLen, ssrc, seq) := by
  rw [parseRtpHeader_eq_ok_iff] at hparse ⊢
  obtain ⟨hversion, hannounced, hfixed, hroom, rfl, rfl⟩ := hparse
  have hfirst : octet other 0 = octet packet 0 := hoctets 0 (by omega)
  have hseq : readU16 other 2 = readU16 packet 2 := by
    simp only [readU16, hoctets 2 (by omega), hoctets (2 + 1) (by omega)]
  have hssrc : readU32 other 8 = readU32 packet 8 := by
    simp only [readU32, hoctets 8 (by omega), hoctets (8 + 1) (by omega),
      hoctets (8 + 2) (by omega), hoctets (8 + 3) (by omega)]
  have hsame : announcedHeaderLen other = announcedHeaderLen packet := by
    simp only [announcedHeaderLen, hfirst] at hannounced ⊢
    by_cases hextension : octet packet 0 &&& 16 = 0
    · simp only [hextension, ne_eq, not_true_eq_false, ↓reduceIte]
    · simp only [hextension, ne_eq, not_false_eq_true, ↓reduceIte] at hannounced ⊢
      generalize 12 + 4 * (octet packet 0 &&& 15).toNat = fixed at hannounced ⊢
      simp only [readU16, hoctets (fixed + 2) (by omega), hoctets (fixed + 2 + 1) (by omega)]
  rw [hfirst, hsame, hlength, hssrc, hseq]
  exact ⟨hversion, hannounced, hfixed, hroom, rfl, rfl⟩

/-- The header stays in the clear, so an encrypted packet parses as the packet it was made from. -/
theorem parseRtpHeader_xorFrom {packet : Bytes} {headerLen : ℕ} {ssrc : UInt32} {seq : UInt16}
    (hparse : parseRtpHeader packet = .ok (headerLen, ssrc, seq)) (keystream : ℕ → UInt8) :
    parseRtpHeader (xorFrom headerLen keystream packet) = .ok (headerLen, ssrc, seq) := by
  have hroom : headerLen ≤ packet.length := (parseRtpHeader_eq_ok_iff.mp hparse).2.2.2.1
  exact parseRtpHeader_congr hparse (length_xorFrom _ _ _) fun position hposition ↦
    octet_xorFrom keystream hposition hroom

/-- The shortest RTP packet of SSRC 1 with a given sequence number. -/
def bareRtp (seq : UInt16) : Bytes := [0x80, 0] ++ toBe 2 seq.toNat ++ [0, 0, 0, 0, 0, 0, 0, 1]

theorem parseRtpHeader_bareRtp (seq : UInt16) :
    parseRtpHeader (bareRtp seq) = .ok (12, 1, seq) := by
  have hseq : readU16 (bareRtp seq) 2 = seq := by
    have hread : readU16 (bareRtp seq) 2 = UInt16.ofNat (fromBe (toBe 2 seq.toNat)) := rfl
    have hfits : seq.toNat < 256 ^ 2 := seq.toNat_lt
    rw [hread, fromBe_toBe, Nat.mod_eq_of_lt hfits, UInt16.ofNat_toNat]
  have hssrc : readU32 (bareRtp seq) 8 = UInt32.ofNat (fromBe [0, 0, 0, 1]) := rfl
  have hlength : (bareRtp seq).length = 12 := by simp [bareRtp]
  have hfirst : octet (bareRtp seq) 0 = 0x80 := rfl
  have hheader : announcedHeaderLen (bareRtp seq) = 12 := by
    simp only [announcedHeaderLen, hfirst]
    rfl
  refine parseRtpHeader_eq_ok_iff.mpr ⟨?_, hheader.symm, le_rfl, hlength.ge, ?_, hseq.symm⟩
  · rw [hfirst]
    decide
  · rw [hssrc]
    decide

/-- Estimating an index leaves the replay filter alone. -/
@[simp] theorem StreamState.replay_indexFor (state : StreamState) (seq : UInt16) :
    (state.indexFor seq).2.replay = state.replay := by
  simp only [StreamState.indexFor]
  split
  · rfl
  · split_ifs <;> rfl

/-! ### Streams and keys -/

namespace SrtpContext

@[simp] theorem stream_fromKeyMaterial (P : Primitives) (material : SrtpKeyMaterial)
    (ssrc : UInt32) : (fromKeyMaterial P material).stream ssrc = {} := rfl

@[simp] theorem lookup_setStream_self (context : SrtpContext) (ssrc : UInt32)
    (state : StreamState) : (context.setStream ssrc state).streams.lookup ssrc = some state :=
  AList.lookup_insert context.streams

theorem lookup_setStream_of_ne (context : SrtpContext) {ssrc other : UInt32} (hne : other ≠ ssrc)
    (state : StreamState) :
    (context.setStream ssrc state).streams.lookup other = context.streams.lookup other :=
  AList.lookup_insert_ne hne

@[simp] theorem stream_setStream_self (context : SrtpContext) (ssrc : UInt32)
    (state : StreamState) : (context.setStream ssrc state).stream ssrc = state := by
  simp [stream]

theorem stream_setStream_of_ne (context : SrtpContext) {ssrc other : UInt32} (hne : other ≠ ssrc)
    (state : StreamState) : (context.setStream ssrc state).stream other = context.stream other := by
  simp [stream, lookup_setStream_of_ne context hne]

/-- Two contexts under one key: the derived session keys and the MKI agree, the streams may
differ. -/
structure SameKey (first second : SrtpContext) : Prop where
  sessionKey : first.sessionKey = second.sessionKey
  sessionSalt : first.sessionSalt = second.sessionSalt
  sessionAuth : first.sessionAuth = second.sessionAuth
  mki : first.mki = second.mki

theorem SameKey.refl (context : SrtpContext) : context.SameKey context := ⟨rfl, rfl, rfl, rfl⟩

theorem SameKey.symm {first second : SrtpContext} (hkey : first.SameKey second) :
    second.SameKey first :=
  ⟨hkey.sessionKey.symm, hkey.sessionSalt.symm, hkey.sessionAuth.symm, hkey.mki.symm⟩

theorem SameKey.trans {first second third : SrtpContext} (hfirst : first.SameKey second)
    (hsecond : second.SameKey third) : first.SameKey third :=
  ⟨hfirst.sessionKey.trans hsecond.sessionKey, hfirst.sessionSalt.trans hsecond.sessionSalt,
    hfirst.sessionAuth.trans hsecond.sessionAuth, hfirst.mki.trans hsecond.mki⟩

theorem SameKey.setStream (context : SrtpContext) (ssrc : UInt32) (state : StreamState) :
    (context.setStream ssrc state).SameKey context := ⟨rfl, rfl, rfl, rfl⟩

theorem SameKey.keystream {first second : SrtpContext} (hkey : first.SameKey second)
    (P : Primitives) (ssrc : UInt32) (index : ℕ) :
    first.keystream P ssrc index = second.keystream P ssrc index := by
  rw [SrtpContext.keystream, SrtpContext.keystream, hkey.sessionKey, hkey.sessionSalt]

/-! ### Sealing -/

variable (P : Primitives)

/-- The packet a context emits for `rtp` at a given index and rollover counter. -/
def sealed (context : SrtpContext) (headerLen : ℕ) (ssrc : UInt32) (index : ℕ) (roc : UInt32)
    (rtp : Bytes) : Bytes :=
  let out := xorFrom headerLen (context.keystream P ssrc index) rtp
  out ++ mkiField context.mki ++ authTag P context.sessionAuth out roc

theorem protect_eq {context : SrtpContext} {rtp : Bytes} {headerLen : ℕ} {ssrc : UInt32}
    {seq : UInt16} (hparse : parseRtpHeader rtp = .ok (headerLen, ssrc, seq)) :
    context.protect P rtp =
      (.ok (context.sealed P headerLen ssrc ((context.stream ssrc).indexFor seq).1.1
          ((context.stream ssrc).indexFor seq).1.2 rtp),
        context.setStream ssrc ((context.stream ssrc).indexFor seq).2) := by
  simp only [protect, hparse]
  rfl

theorem protect_of_parse_error {context : SrtpContext} {rtp : Bytes} {error : SrtpError}
    (hparse : parseRtpHeader rtp = .error error) :
    context.protect P rtp = (.error error, context) := by
  simp only [protect, hparse]

/-- Sealing depends on the key alone. -/
theorem SameKey.sealed {first second : SrtpContext} (hkey : first.SameKey second)
    (headerLen : ℕ) (ssrc : UInt32) (index : ℕ) (roc : UInt32) (rtp : Bytes) :
    first.sealed P headerLen ssrc index roc rtp = second.sealed P headerLen ssrc index roc rtp := by
  simp only [SrtpContext.sealed, hkey.keystream, hkey.mki, hkey.sessionAuth]

/-! ### Opening -/

/-- What a receiver does with an authenticated portion and its tag, once the framing is off. -/
def openPortion (context : SrtpContext) (authenticated tag : Bytes) (headerLen : ℕ)
    (ssrc : UInt32) (seq : UInt16) : Except SrtpError Bytes × SrtpContext :=
  let guess := (context.stream ssrc).indexFor seq
  if (context.stream ssrc).replay.isReplay guess.1.1 then (.error .replayed, context)
  else if authTag P context.sessionAuth authenticated guess.1.2 ≠ tag then
    (.error .authFailed, context)
  else
    (.ok (xorFrom headerLen (context.keystream P ssrc guess.1.1) authenticated),
      context.setStream ssrc ((context.stream ssrc).accepted seq))

/-- Unprotecting either fails on the framing and leaves the context alone, or opens the portion the
framing holds, as every context with the same MKI does. -/
theorem unprotect_cases (context : SrtpContext) (srtp : Bytes) :
    (∃ error, context.unprotect P srtp = (.error error, context)) ∨
      ∃ authenticated tag headerLen ssrc seq,
        parseRtpHeader authenticated = .ok (headerLen, ssrc, seq) ∧
          ∀ other : SrtpContext, other.mki = context.mki →
            other.unprotect P srtp = other.openPortion P authenticated tag headerLen ssrc seq := by
  by_cases hshort : srtp.length < 12 + mkiLen context.mki + authTagLen
  · exact Or.inl ⟨_, by rw [unprotect, if_pos hshort]⟩
  rcases hstrip : stripMki (srtp.take (srtp.length - authTagLen)) context.mki with
    error | authenticated
  · exact Or.inl ⟨error, by simp only [unprotect, hshort, hstrip, ↓reduceIte]⟩
  rcases hparse : parseRtpHeader authenticated with error | ⟨headerLen, ssrc, seq⟩
  · exact Or.inl ⟨error, by simp only [unprotect, hshort, hstrip, hparse, ↓reduceIte]⟩
  · refine Or.inr ⟨authenticated, srtp.drop (srtp.length - authTagLen), headerLen, ssrc, seq,
      hparse, fun other hmki ↦ ?_⟩
    simp only [unprotect, hmki, hshort, hstrip, hparse, ↓reduceIte, openPortion,
      StreamState.accepted, StreamState.replay_indexFor]

/-- Opening a portion either fails and leaves the context alone, or accepts the packet. -/
theorem openPortion_cases (context : SrtpContext) (authenticated tag : Bytes) (headerLen : ℕ)
    (ssrc : UInt32) (seq : UInt16) :
    (∃ error, context.openPortion P authenticated tag headerLen ssrc seq =
        (.error error, context)) ∨
      ((context.stream ssrc).replay.isReplay ((context.stream ssrc).indexFor seq).1.1 = false ∧
        authTag P context.sessionAuth authenticated ((context.stream ssrc).indexFor seq).1.2 = tag ∧
        context.openPortion P authenticated tag headerLen ssrc seq =
          (.ok (xorFrom headerLen
              (context.keystream P ssrc ((context.stream ssrc).indexFor seq).1.1)
              authenticated), context.setStream ssrc ((context.stream ssrc).accepted seq))) := by
  simp only [openPortion]
  split_ifs with hreplay htag
  · exact Or.inl ⟨_, rfl⟩
  · exact Or.inl ⟨_, rfl⟩
  · exact Or.inr ⟨Bool.eq_false_iff.mpr hreplay, not_not.mp htag, rfl⟩

/-- A failed packet leaves the context alone. -/
theorem unprotect_of_error {context : SrtpContext} {srtp : Bytes} {error : SrtpError}
    (herror : (context.unprotect P srtp).1 = .error error) :
    (context.unprotect P srtp).2 = context := by
  rcases context.unprotect_cases P srtp with ⟨_, heq⟩ | ⟨authenticated, tag, headerLen, ssrc, seq,
    -, hopens⟩
  · rw [heq]
  · rw [hopens context rfl] at herror ⊢
    rcases context.openPortion_cases P authenticated tag headerLen ssrc seq with
      ⟨_, heq⟩ | ⟨-, -, heq⟩
    · rw [heq]
    · simp [heq] at herror

/-- Unprotecting what a context under the same key sealed opens the portion it sealed. -/
theorem unprotect_sealed {sender receiver : SrtpContext} (hkey : sender.SameKey receiver)
    {rtp : Bytes} {headerLen : ℕ} {ssrc : UInt32} {seq : UInt16}
    (hparse : parseRtpHeader rtp = .ok (headerLen, ssrc, seq)) (index : ℕ) (roc : UInt32) :
    receiver.unprotect P (sender.sealed P headerLen ssrc index roc rtp) =
      receiver.openPortion P (xorFrom headerLen (sender.keystream P ssrc index) rtp)
        (authTag P sender.sessionAuth (xorFrom headerLen (sender.keystream P ssrc index) rtp) roc)
        headerLen ssrc seq := by
  obtain ⟨-, -, hfixed, hroom, -, -⟩ := parseRtpHeader_eq_ok_iff.mp hparse
  have hcipher := parseRtpHeader_xorFrom hparse (sender.keystream P ssrc index)
  simp only [sealed]
  generalize hout : xorFrom headerLen (sender.keystream P ssrc index) rtp = out at hcipher ⊢
  have houtLength : out.length = rtp.length := by rw [← hout, length_xorFrom]
  have hlength : (out ++ mkiField sender.mki ++ authTag P sender.sessionAuth out roc).length =
      out.length + mkiLen sender.mki + authTagLen := by simp [Nat.add_assoc]
  have hsplit : (out ++ mkiField sender.mki ++ authTag P sender.sessionAuth out roc).length -
      authTagLen = (out ++ mkiField sender.mki).length := by
    rw [hlength, List.length_append, length_mkiField]
    omega
  unfold unprotect
  rw [if_neg (by rw [hlength, hkey.mki]; omega)]
  simp only [hsplit, List.take_left, List.drop_left]
  rw [← hkey.mki, stripMki_append]
  simp only [hcipher, openPortion, StreamState.accepted, StreamState.replay_indexFor]

/-- A receiver that guesses the index a packet was sealed at returns the packet, unless its window
refuses the index. -/
theorem unprotect_sealed_of_guess {sender receiver : SrtpContext} (hkey : sender.SameKey receiver)
    {rtp : Bytes} {headerLen : ℕ} {ssrc : UInt32} {seq : UInt16}
    (hparse : parseRtpHeader rtp = .ok (headerLen, ssrc, seq)) {index : ℕ} {roc : UInt32}
    (hguess : ((receiver.stream ssrc).indexFor seq).1 = (index, roc)) :
    receiver.unprotect P (sender.sealed P headerLen ssrc index roc rtp) =
      if (receiver.stream ssrc).replay.isReplay index then (.error .replayed, receiver)
      else (.ok rtp, receiver.setStream ssrc ((receiver.stream ssrc).accepted seq)) := by
  have hroom : headerLen ≤ rtp.length := (parseRtpHeader_eq_ok_iff.mp hparse).2.2.2.1
  rw [unprotect_sealed P hkey hparse]
  simp only [openPortion, hguess, hkey.sessionAuth, ne_eq, not_true_eq_false, ↓reduceIte]
  rw [← hkey.keystream, xorFrom_xorFrom _ hroom]

end SrtpContext

end SiphonRtp.Srtp
