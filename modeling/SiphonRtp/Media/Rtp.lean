import SiphonRtp.Machine.Octets

/-!
# RTP packets

`siphon-rtp-media/src/rtp.rs`: parsing with the CSRC list, the extension and the padding taken off,
and writing under the plain 12-octet header. A caller's output buffer is its capacity, and what is
written is the result.

`RtpPacket.ReadFrom` splits a packet that parses into its header, payload and padding, and `ReadsAs`
is what a packet reads as that was written, with padding behind it or without.
-/

set_option autoImplicit false

namespace SiphonRtp.Media

open Machine

inductive RtpError
  | tooShort
  | badVersion (version : UInt8)
  | badPadding
  | outputTooSmall (needed available : ℕ)
  | tooManyCsrcs (count maximum : ℕ)
deriving DecidableEq

def rtpVersion : UInt8 := 2

def fixedHeaderLen : ℕ := 12

def maxCsrcCount : ℕ := 15

structure RtpPacket where
  marker : Bool
  payloadType : UInt8
  sequence : UInt16
  timestamp : UInt32
  ssrc : UInt32
  csrcCount : UInt8
  csrcs : Bytes
  payload : Bytes
deriving DecidableEq

/-- The header octets of a packet, with the payload found for it. -/
def RtpPacket.ofParts (buffer csrcs payload : Bytes) : RtpPacket where
  marker := decide (octet buffer 1 &&& 0x80 ≠ 0)
  payloadType := octet buffer 1 &&& 0x7F
  sequence := readU16 buffer 2
  timestamp := readU32 buffer 4
  ssrc := readU32 buffer 8
  csrcCount := octet buffer 0 &&& 0x0F
  csrcs
  payload

/-- The end of `RtpPacket::parse`: the payload starts at `offset`, and the padding comes off. -/
def RtpPacket.parsePayload (buffer csrcs : Bytes) (offset : ℕ) : Except RtpError RtpPacket :=
  if octet buffer 0 &&& 0x20 ≠ 0 then
    let pad := (octet buffer (buffer.length - 1)).toNat
    if pad = 0 ∨ buffer.length - offset < pad then .error .badPadding
    else .ok (.ofParts buffer csrcs ((buffer.take (buffer.length - pad)).drop offset))
  else .ok (.ofParts buffer csrcs (buffer.drop offset))

/-- `RtpPacket::parse`. -/
def RtpPacket.parse (buffer : Bytes) : Except RtpError RtpPacket :=
  if buffer.length < fixedHeaderLen then .error .tooShort
  else if octet buffer 0 >>> 6 ≠ rtpVersion then .error (.badVersion (octet buffer 0 >>> 6))
  else
    let offset := fixedHeaderLen + 4 * (octet buffer 0 &&& 0x0F).toNat
    if buffer.length < offset then .error .tooShort
    else
      let csrcs := (buffer.take offset).drop fixedHeaderLen
      if octet buffer 0 &&& 0x10 ≠ 0 then
        if buffer.length < offset + 4 then .error .tooShort
        else
          let extended := offset + (4 + (readU16 buffer (offset + 2)).toNat * 4)
          if buffer.length < extended then .error .tooShort
          else RtpPacket.parsePayload buffer csrcs extended
      else RtpPacket.parsePayload buffer csrcs offset

structure RtpHeader where
  marker : Bool
  payloadType : UInt8
  sequence : UInt16
  timestamp : UInt32
  ssrc : UInt32
deriving DecidableEq

/-- The second header octet. -/
def RtpHeader.typeOctet (header : RtpHeader) : UInt8 :=
  (if header.marker then 0x80 else 0) ||| (header.payloadType &&& 0x7F)

/-- The octets of a header after the first. -/
def RtpHeader.octets (header : RtpHeader) : Bytes :=
  header.typeOctet :: (toBe 2 header.sequence.toNat ++
    (toBe 4 header.timestamp.toNat ++ toBe 4 header.ssrc.toNat))

/-- `write_packet_with_csrcs` into a buffer of `capacity` octets. -/
def writePacketWithCsrcs (header : RtpHeader) (csrcs : List UInt32) (payload : Bytes)
    (capacity : ℕ) : Except RtpError Bytes :=
  if maxCsrcCount < csrcs.length then .error (.tooManyCsrcs csrcs.length maxCsrcCount)
  else
    let total := fixedHeaderLen + csrcs.length * 4 + payload.length
    if capacity < total then .error (.outputTooSmall total capacity)
    else .ok ((rtpVersion <<< 6 ||| (UInt8.ofNat csrcs.length &&& 0x0F)) ::
      (header.octets ++ (csrcs.flatMap (fun csrc ↦ toBe 4 csrc.toNat) ++ payload)))

def writePacket (header : RtpHeader) (payload : Bytes) (capacity : ℕ) : Except RtpError Bytes :=
  writePacketWithCsrcs header [] payload capacity

/-! ### The parts of a packet -/

/-- The octets before the payload of a packet that parses. -/
def headerLen (buffer : Bytes) : ℕ :=
  let offset := fixedHeaderLen + 4 * (octet buffer 0 &&& 0x0F).toNat
  if octet buffer 0 &&& 0x10 ≠ 0 then offset + (4 + (readU16 buffer (offset + 2)).toNat * 4)
  else offset

/-- The octets after the payload, counted by the last of them. -/
def paddingOf (buffer : Bytes) : Bytes :=
  if octet buffer 0 &&& 0x20 ≠ 0 then
    buffer.drop (buffer.length - (octet buffer (buffer.length - 1)).toNat)
  else []

/-- A packet that parses, in its parts. -/
structure RtpPacket.ReadFrom (packet : RtpPacket) (buffer : Bytes) : Prop where
  header : fixedHeaderLen ≤ headerLen buffer
  length : headerLen buffer + packet.payload.length + (paddingOf buffer).length = buffer.length
  padded : octet buffer 0 &&& 0x20 ≠ 0 →
    0 < (paddingOf buffer).length ∧
      (octet buffer (buffer.length - 1)).toNat = (paddingOf buffer).length
  sequence : packet.sequence = readU16 buffer 2
  timestamp : packet.timestamp = readU32 buffer 4

theorem RtpPacket.readFrom_of_parsePayload {buffer csrcs : Bytes} {packet : RtpPacket}
    (hheader : fixedHeaderLen ≤ headerLen buffer) (hlength : headerLen buffer ≤ buffer.length)
    (hparse : parsePayload buffer csrcs (headerLen buffer) = .ok packet) :
    packet.ReadFrom buffer := by
  unfold parsePayload at hparse
  split at hparse
  · rename_i hpadded
    dsimp only at hparse
    split at hparse
    · cases hparse
    · rename_i hfits
      obtain rfl := Except.ok.inj hparse
      have hpad : (paddingOf buffer).length = (octet buffer (buffer.length - 1)).toNat := by
        simp only [paddingOf, if_pos hpadded, List.length_drop]
        omega
      refine ⟨hheader, ?_, fun _ ↦ by omega, rfl, rfl⟩
      simp only [ofParts, List.length_drop, List.length_take]
      omega
  · rename_i hplain
    obtain rfl := Except.ok.inj hparse
    refine ⟨hheader, ?_, fun hpadded ↦ absurd hpadded hplain, rfl, rfl⟩
    simp only [ofParts, List.length_drop, paddingOf, if_neg hplain, List.length_nil]
    omega

theorem RtpPacket.readFrom_of_parse {buffer : Bytes} {packet : RtpPacket}
    (hparse : parse buffer = .ok packet) : packet.ReadFrom buffer := by
  unfold parse at hparse
  dsimp only at hparse
  split_ifs at hparse with hshort hversion hcsrcs hextension hwords hextended
  · have hlen : headerLen buffer = _ := if_pos hextension
    exact readFrom_of_parsePayload (by omega) (by omega) (hlen ▸ hparse)
  · have hlen : headerLen buffer = _ := if_neg hextension
    exact readFrom_of_parsePayload (by omega) (by omega) (hlen ▸ hparse)

/-! ### Reading a packet that was written -/

theorem writePacket_eq (header : RtpHeader) (payload : Bytes) (capacity : ℕ) :
    writePacket header payload capacity =
      if capacity < fixedHeaderLen + payload.length then
        .error (.outputTooSmall (fixedHeaderLen + payload.length) capacity)
      else .ok (0x80 :: (header.octets ++ payload)) := by
  rfl

@[simp] theorem length_octets (header : RtpHeader) : header.octets.length = 11 := by
  simp [RtpHeader.octets]

theorem readU16_octets (first : UInt8) (header : RtpHeader) (rest : Bytes) :
    readU16 (first :: (header.octets ++ rest)) 2 = header.sequence :=
  @readU16_of_split _ [first, header.typeOctet]
    ((toBe 4 header.timestamp.toNat ++ toBe 4 header.ssrc.toNat) ++ rest) _
    (by simp [RtpHeader.octets])

theorem readU32_octets_four (first : UInt8) (header : RtpHeader) (rest : Bytes) :
    readU32 (first :: (header.octets ++ rest)) 4 = header.timestamp :=
  @readU32_of_split _ (first :: header.typeOctet :: toBe 2 header.sequence.toNat)
    (toBe 4 header.ssrc.toNat ++ rest) _ (by simp [RtpHeader.octets])

theorem readU32_octets_eight (first : UInt8) (header : RtpHeader) (rest : Bytes) :
    readU32 (first :: (header.octets ++ rest)) 8 = header.ssrc :=
  @readU32_of_split _ (first :: header.typeOctet :: (toBe 2 header.sequence.toNat ++
    toBe 4 header.timestamp.toNat)) rest _ (by simp [RtpHeader.octets])

theorem typeOctet_and (header : RtpHeader) :
    header.typeOctet &&& 0x7F = header.payloadType &&& 0x7F := by
  have hbits : ∀ (marker : Bool) (bits : BitVec 8),
      ((if marker then 0x80 else 0) ||| (UInt8.ofBitVec bits &&& 0x7F)) &&& 0x7F =
        UInt8.ofBitVec bits &&& 0x7F := by decide +kernel
  exact hbits header.marker header.payloadType.toBitVec

/-- A packet that was written: its payload, the header's fields, and no CSRC or extension. -/
structure RtpPacket.WrittenAs (packet : RtpPacket) (header : RtpHeader) (payload : Bytes) :
    Prop where
  payload : packet.payload = payload
  payloadType : packet.payloadType = header.payloadType &&& 0x7F
  sequence : packet.sequence = header.sequence
  timestamp : packet.timestamp = header.timestamp
  ssrc : packet.ssrc = header.ssrc
  csrcCount : packet.csrcCount = 0
  csrcs : packet.csrcs = []

theorem RtpPacket.writtenAs_ofParts {first : UInt8} (hcount : first &&& 0x0F = 0)
    (header : RtpHeader) (rest payload : Bytes) :
    (ofParts (first :: (header.octets ++ rest)) [] payload).WrittenAs header payload :=
  ⟨rfl, typeOctet_and header, readU16_octets first header rest,
    readU32_octets_four first header rest, readU32_octets_eight first header rest, hcount, rfl⟩

/-- Only the padding is left to read behind a plain header. -/
theorem parse_plain {first : UInt8} (hversion : first >>> 6 = rtpVersion)
    (hcount : first &&& 0x0F = 0) (hextension : first &&& 0x10 = 0) (header : RtpHeader)
    (rest : Bytes) :
    RtpPacket.parse (first :: (header.octets ++ rest)) =
      RtpPacket.parsePayload (first :: (header.octets ++ rest)) [] fixedHeaderLen := by
  have hfirst : octet (first :: (header.octets ++ rest)) 0 = first := rfl
  have hlength : ¬ (first :: (header.octets ++ rest)).length < fixedHeaderLen := by
    simp [fixedHeaderLen]
  unfold RtpPacket.parse
  simp only [hfirst, hversion, hcount, hextension, hlength, ne_eq, not_true_eq_false, if_false,
    UInt8.toNat_zero, Nat.mul_zero, Nat.add_zero]
  congr 1

/-- What a plain packet reads as. -/
def ReadsAs (bytes : Bytes) (header : RtpHeader) (payload padding : Bytes) : Prop :=
  ∃ packet, RtpPacket.parse bytes = .ok packet ∧ packet.WrittenAs header payload ∧
    paddingOf bytes = padding ∧ octet bytes 0 &&& 0x10 = 0

theorem readsAs_unpadded (header : RtpHeader) (payload : Bytes) :
    ReadsAs (0x80 :: (header.octets ++ payload)) header payload [] := by
  have hplain : ¬ octet (0x80 :: (header.octets ++ payload)) 0 &&& 0x20 ≠ 0 :=
    show ¬ (0x80 : UInt8) &&& 0x20 ≠ 0 by decide
  refine ⟨_, ?_, RtpPacket.writtenAs_ofParts (by decide : (0x80 : UInt8) &&& 0x0F = 0) header
    payload payload, if_neg hplain, show (0x80 : UInt8) &&& 0x10 = 0 by decide⟩
  rw [parse_plain (by decide) (by decide) (by decide), RtpPacket.parsePayload, if_neg hplain]
  simp [fixedHeaderLen]

theorem readsAs_padded (header : RtpHeader) (payload : Bytes) {padding : Bytes}
    (hsome : 0 < padding.length)
    (hcounts : (octet padding (padding.length - 1)).toNat = padding.length) :
    ReadsAs (0xA0 :: (header.octets ++ (payload ++ padding))) header payload padding := by
  have hpadded : octet (0xA0 :: (header.octets ++ (payload ++ padding))) 0 &&& 0x20 ≠ 0 :=
    show (0xA0 : UInt8) &&& 0x20 ≠ 0 by decide
  have hlength : (0xA0 :: (header.octets ++ (payload ++ padding))).length =
      fixedHeaderLen + payload.length + padding.length := by
    simp [fixedHeaderLen]
    omega
  have hsplit : 0xA0 :: (header.octets ++ (payload ++ padding)) =
      (0xA0 :: (header.octets ++ payload)) ++ padding := by simp
  have hlead : (0xA0 :: (header.octets ++ payload)).length = fixedHeaderLen + payload.length := by
    simp [fixedHeaderLen]
    omega
  have hlast : octet (0xA0 :: (header.octets ++ (payload ++ padding)))
      (fixedHeaderLen + payload.length + padding.length - 1) =
        octet padding (padding.length - 1) := by
    rw [hsplit, show fixedHeaderLen + payload.length + padding.length - 1 =
      (0xA0 :: (header.octets ++ payload)).length + (padding.length - 1) by omega]
    exact octet_append_right _ _ _
  refine ⟨_, ?_, RtpPacket.writtenAs_ofParts (by decide : (0xA0 : UInt8) &&& 0x0F = 0) header
    (payload ++ padding) payload, ?_, show (0xA0 : UInt8) &&& 0x10 = 0 by decide⟩
  · rw [parse_plain (by decide) (by decide) (by decide), RtpPacket.parsePayload, if_pos hpadded]
    simp only [hlength, hlast, hcounts]
    rw [if_neg (by omega), Nat.add_sub_cancel, hsplit, ← hlead, List.take_left]
    simp [fixedHeaderLen]
  · rw [paddingOf, if_pos hpadded, hlength, hlast, hcounts, Nat.add_sub_cancel, hsplit, ← hlead,
      List.drop_left]

end SiphonRtp.Media
