import SiphonRtp.Datapath.Relay
import SiphonRtp.Machine.Base64
import SiphonRtp.Stun.Client

/-!
# TURN messages

The rest of `siphon-rtp-stun/src/turn.rs`: the registry of methods, attributes and error codes, the
typed accessors and encoders that the client and the server share, and the key of the long-term
credentials. The framings are in `Stun/Turn.lean`, base64 in `Machine/Base64.lean`. MD5 is a
parameter beside the digests of `Stun/Message.lean` (`Crypto`): nothing here depends on what it
computes.

Texts are octets, in UTF-8.
-/

set_option autoImplicit false

namespace SiphonRtp.Turn

open Machine Datapath Stun

/-! ### Registry -/

def methodBinding : UInt16 := 0x001
def methodAllocate : UInt16 := 0x003
def methodRefresh : UInt16 := 0x004
def methodCreatePermission : UInt16 := 0x008
def methodChannelBind : UInt16 := 0x009

def classRequest : UInt16 := 0b00
def classSuccess : UInt16 := 0b10
def classError : UInt16 := 0b11

def attrChannelNumber : UInt16 := 0x000C
def attrLifetime : UInt16 := 0x000D
def attrRealm : UInt16 := 0x0014
def attrNonce : UInt16 := 0x0015
def attrXorRelayedAddress : UInt16 := 0x0016
def attrEvenPort : UInt16 := 0x0018
def attrRequestedTransport : UInt16 := 0x0019
def attrReservationToken : UInt16 := 0x0022
def attrSoftware : UInt16 := 0x8022

/-- The transport number of UDP in REQUESTED-TRANSPORT. -/
def transportUdp : UInt8 := 17

def errorBadRequest : UInt16 := 400
def errorUnauthorized : UInt16 := 401
def errorForbidden : UInt16 := 403
def errorAllocationMismatch : UInt16 := 437
def errorStaleNonce : UInt16 := 438
def errorUnsupportedTransport : UInt16 := 442
def errorAllocationQuotaReached : UInt16 := 486
def errorInsufficientCapacity : UInt16 := 508

/-! ### Encoders and accessors -/

def lifetimeValue (seconds : UInt32) : Bytes := toBe 4 seconds.toNat

def requestedTransportValue (protocol : UInt8) : Bytes := [protocol, 0, 0, 0]

def channelNumberValue (channel : UInt16) : Bytes := toBe 2 channel.toNat ++ [0, 0]

/-- `requested_transport`: the first octet of the attribute. -/
def requestedTransport (message : StunMessage) : Option UInt8 :=
  (message.attribute attrRequestedTransport).bind List.head?

/-- `lifetime`, none if the value is short of four octets. -/
def lifetime (message : StunMessage) : Option UInt32 :=
  (message.attribute attrLifetime).bind fun value ↦
    if value.length < 4 then none else some (readU32 value 0)

/-- `channel_number`, none if the value is short of two octets. -/
def channelNumber (message : StunMessage) : Option UInt16 :=
  (message.attribute attrChannelNumber).bind fun value ↦
    if value.length < 2 then none else some (readU16 value 0)

/-- `xor_peer_addresses`: every XOR-PEER-ADDRESS that decodes; one that does not is passed over. -/
def xorPeerAddresses (message : StunMessage) : List SocketAddr :=
  (message.attributes.filter fun entry ↦ entry.1 == attrXorPeerAddress).filterMap fun entry ↦
    decodeXorMappedAddress entry.2 message.transactionId

/-- `realm`, if it is UTF-8. -/
def realm (message : StunMessage) : Option Bytes := (message.attribute attrRealm).filter isUtf8

def nonce (message : StunMessage) : Option Bytes := message.attribute attrNonce

def hasEvenPort (message : StunMessage) : Bool := (message.attribute attrEvenPort).isSome

def hasReservationToken (message : StunMessage) : Bool :=
  (message.attribute attrReservationToken).isSome

/-! ### Long-term credentials -/

/-- The hash functions of the long-term credentials. -/
structure Crypto extends Digests where
  md5 : Bytes → Vector UInt8 16

/-- `long_term_key`: MD5 of the three texts joined by colons. -/
def longTermKey (crypto : Crypto) (username realm password : Bytes) : Bytes :=
  (crypto.md5 (username ++ 0x3A :: realm ++ 0x3A :: password)).toList

/-- Hash functions for runs on given octets. -/
def zeroCrypto : Crypto where
  toDigests := zeroDigests
  md5 _ := Vector.replicate 16 0

end SiphonRtp.Turn
