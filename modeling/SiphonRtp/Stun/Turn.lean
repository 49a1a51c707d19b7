import SiphonRtp.Stun.RoundTrip

/-!
# TURN framings

The two ways a TURN client and server wrap a peer's payload, from `siphon-rtp-stun/src/turn.rs`:
ChannelData, a channel number and a length in front of the octets, and Send and Data indications,
STUN messages that name the peer. Each is read back to what was wrapped
(`parseChannelData_encodeChannelData`, `parse_indication`) as long as the lengths fit
their sixteen bits, and the first octet of a valid channel number marks it
(`isChannelData_of_valid`).
-/

set_option autoImplicit false

namespace SiphonRtp.Stun

open Machine Datapath

/-! ### Message types -/

def methodSend : UInt16 := 0x006
def methodData : UInt16 := 0x007
def classIndication : UInt16 := 0b01

/-- `turn::message_type`: the bits of the method around the two of the class. -/
def messageTypeOf (method class_ : UInt16) : UInt16 :=
  let methodBits : UInt16 :=
    (method &&& 0x0F80) <<< 2 ||| (method &&& 0x0070) <<< 1 ||| (method &&& 0x000F)
  let classBits : UInt16 := (class_ &&& 0b10) <<< 7 ||| (class_ &&& 0b01) <<< 4
  methodBits ||| classBits

def attrXorPeerAddress : UInt16 := 0x0012
def attrData : UInt16 := 0x0013

/-- `turn::xor_peer_address`. -/
def StunMessage.xorPeerAddress (message : StunMessage) : Option SocketAddr :=
  (message.attribute attrXorPeerAddress).bind (decodeXorMappedAddress · message.transactionId)

/-- `turn::data`. -/
def StunMessage.data (message : StunMessage) : Option Bytes := message.attribute attrData

/-! ### ChannelData -/

/-- Whether a first octet marks ChannelData, the top bits `01`. -/
def isChannelData (first : UInt8) : Bool := first &&& 0xC0 == 0x40

def validChannelNumber (channel : UInt16) : Bool := decide (0x4000 ≤ channel ∧ channel ≤ 0x7FFF)

/-- A parsed ChannelData message. -/
structure ChannelData where
  channel : UInt16
  data : Bytes
deriving DecidableEq

/-- `parse_channel_data`: the declared length is authoritative, padding behind it is ignored. -/
def parseChannelData (buffer : Bytes) : Option ChannelData :=
  if buffer.length < 4 then none
  else if validChannelNumber (readU16 buffer 0) = false then none
  else
    let length := (readU16 buffer 2).toNat
    if buffer.length < 4 + length then none
    else some ⟨readU16 buffer 0, (buffer.drop 4).take length⟩

/-- `encode_channel_data`, padded to four octets over a stream. -/
def encodeChannelData (channel : UInt16) (data : Bytes) (padToFour : Bool) : Bytes :=
  toBe 2 channel.toNat ++ (toBe 2 data.length ++
    (data ++ if padToFour then List.replicate (padding data.length) 0 else []))

/-- The two fields at the head of a buffer and what stands behind them. -/
theorem two_fields_append_drop {buffer : Bytes} (hlength : 4 ≤ buffer.length) :
    buffer = toBe 2 (readU16 buffer 0).toNat ++
      (toBe 2 (readU16 buffer 2).toNat ++ buffer.drop 4) := by
  obtain ⟨first, buffer, rfl⟩ := List.exists_cons_of_length_pos (by omega : 0 < buffer.length)
  rw [List.length_cons] at hlength
  obtain ⟨second, buffer, rfl⟩ := List.exists_cons_of_length_pos (by omega : 0 < buffer.length)
  rw [List.length_cons] at hlength
  obtain ⟨third, buffer, rfl⟩ := List.exists_cons_of_length_pos (by omega : 0 < buffer.length)
  rw [List.length_cons] at hlength
  obtain ⟨fourth, rest, rfl⟩ := List.exists_cons_of_length_pos (by omega : 0 < buffer.length)
  have hsecond : readU16 (first :: second :: third :: fourth :: rest) 2 =
      readU16 (third :: fourth :: rest) 0 := rfl
  rw [hsecond, toBe_readU16, toBe_readU16]
  rfl

/-- Octets are ChannelData of a channel exactly when they are its number, the length of the data,
the data and anything behind it. -/
theorem parseChannelData_eq_some_iff {buffer data : Bytes} {channel : UInt16} :
    parseChannelData buffer = some ⟨channel, data⟩ ↔
      validChannelNumber channel = true ∧ data.length < 2 ^ 16 ∧
        ∃ rest, buffer = toBe 2 channel.toNat ++ (toBe 2 data.length ++ (data ++ rest)) := by
  constructor
  · intro hparse
    unfold parseChannelData at hparse
    by_cases hshort : buffer.length < 4
    · rw [if_pos hshort] at hparse
      exact nomatch hparse
    rw [if_neg hshort] at hparse
    cases hvalid : validChannelNumber (readU16 buffer 0) with
    | false =>
      rw [hvalid, if_pos rfl] at hparse
      exact nomatch hparse
    | true =>
      rw [hvalid, if_neg (by decide)] at hparse
      dsimp only at hparse
      by_cases hover : buffer.length < 4 + (readU16 buffer 2).toNat
      · rw [if_pos hover] at hparse
        exact nomatch hparse
      rw [if_neg hover, Option.some.injEq] at hparse
      obtain ⟨rfl, rfl⟩ := hparse
      have hlength : ((buffer.drop 4).take (readU16 buffer 2).toNat).length =
          (readU16 buffer 2).toNat := by
        rw [List.length_take, List.length_drop]
        omega
      refine ⟨hvalid, ?_, (buffer.drop 4).drop (readU16 buffer 2).toNat, ?_⟩
      · rw [hlength]
        exact UInt16.toNat_lt _
      · rw [hlength, List.take_append_drop]
        exact two_fields_append_drop (Nat.not_lt.mp hshort)
  · rintro ⟨hchannel, hdata, rest, rfl⟩
    obtain ⟨htype, hlength⟩ := readU16_attribute channel hdata (data ++ rest)
    unfold parseChannelData
    rw [htype, hlength, if_neg (by simp only [List.length_append, length_toBe]; omega), hchannel,
      if_neg (by decide)]
    rw [if_neg (by simp only [List.length_append, length_toBe]; omega), ← List.append_assoc,
      List.drop_left' (by simp), List.take_left' rfl]

theorem parseChannelData_encodeChannelData {channel : UInt16} {data : Bytes} (padToFour : Bool)
    (hchannel : validChannelNumber channel = true) (hdata : data.length < 2 ^ 16) :
    parseChannelData (encodeChannelData channel data padToFour) = some ⟨channel, data⟩ :=
  parseChannelData_eq_some_iff.mpr ⟨hchannel, hdata, _, rfl⟩

/-- The first octet of a valid channel number is in the ChannelData range. -/
theorem isChannelData_of_valid {channel : UInt16} (hchannel : validChannelNumber channel = true) :
    isChannelData (UInt8.ofNat (channel.toNat / 256)) = true := by
  have hrange := of_decide_eq_true hchannel
  rw [UInt16.le_iff_toNat_le, UInt16.le_iff_toNat_le] at hrange
  have hall : ∀ high < 128, 64 ≤ high → isChannelData (UInt8.ofNat high) = true := by decide
  have hlow : (0x4000 : UInt16).toNat = 0x4000 := rfl
  have hhigh : (0x7FFF : UInt16).toNat = 0x7FFF := rfl
  exact hall _ (by omega) (by omega)

/-! ### Indications -/

/-- A Send or Data indication: the peer and its payload in a message without integrity or
fingerprint. -/
def indication (digests : Digests) (method : UInt16) (id : TransactionId) (peer : SocketAddr)
    (payload : Bytes) : Bytes :=
  (((MessageBuilder.new (messageTypeOf method classIndication) id).attribute attrXorPeerAddress
    (encodeXorMappedAddress peer id)).attribute attrData payload).finish digests none false

theorem indication_eq (digests : Digests) (method : UInt16) (id : TransactionId)
    (peer : SocketAddr) (payload : Bytes) :
    indication digests method id peer payload =
      let body := encodeAttribute attrXorPeerAddress (encodeXorMappedAddress peer id) ++
        encodeAttribute attrData payload
      header (messageTypeOf method classIndication) body.length id ++ body := by
  have hnew : MessageBuilder.new (messageTypeOf method classIndication) id =
      ⟨header (messageTypeOf method classIndication) 0 id ++ []⟩ := by
    simp [MessageBuilder.new]
  rw [indication, hnew, attribute_header, attribute_header, finish_header]
  rfl

theorem length_encodeXorMappedAddress_le (address : SocketAddr) (id : TransactionId) :
    (encodeXorMappedAddress address id).length ≤ 20 := by
  cases address <;> simp [encodeXorMappedAddress]

/-- What both ends read in an indication: the peer it names and the data it carries. -/
def StunMessage.peerData (message : StunMessage) : Option (SocketAddr × Bytes) :=
  message.xorPeerAddress.bind fun peer ↦ message.data.map fun payload ↦ (peer, payload)

/-- An indication is read back to its type, its peer and its payload. -/
theorem parse_indication (digests : Digests) (method : UInt16) (id : TransactionId)
    (peer : SocketAddr) {payload : Bytes} (hpayload : payload.length ≤ 65504) :
    ∃ message, parse (indication digests method id peer payload) = .ok message ∧
      message.messageType = messageTypeOf method classIndication ∧
      message.peerData = some (plainAddress peer, payload) := by
  have haddress := length_encodeXorMappedAddress_le peer id
  have hencodes : Encodes (encodeAttribute attrXorPeerAddress (encodeXorMappedAddress peer id) ++
      encodeAttribute attrData payload) _ :=
    (encodes_encodeAttribute (by omega)).append (encodes_encodeAttribute (by omega))
  have hlength : (encodeAttribute attrXorPeerAddress (encodeXorMappedAddress peer id) ++
      encodeAttribute attrData payload).length < 2 ^ 16 := by
    rw [List.length_append, length_encodeAttribute, length_encodeAttribute]
    unfold padding
    omega
  have hparse := parse_encodes (messageTypeOf method classIndication) id hencodes hlength []
  rw [List.append_nil] at hparse
  rw [indication_eq]
  refine ⟨_, hparse, rfl, ?_⟩
  simp [StunMessage.peerData, StunMessage.xorPeerAddress, StunMessage.data, StunMessage.attribute,
    attrXorPeerAddress, attrData, decodeXorMappedAddress_encode]

end SiphonRtp.Stun
