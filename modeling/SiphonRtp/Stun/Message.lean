import SiphonRtp.Datapath.Dispatch

/-!
# STUN messages

The codec of `siphon-rtp-stun/src/lib.rs`: `parse`, `MessageBuilder` and `verifyMessageIntegrity`,
over the raw octets of a datagram. SHA-1 and CRC-32 are the parameter `Digests`: nothing here
depends on what they compute.

`Encodes` relates the octets of an attribute list to the attributes, with any padding octets.
Reading is described through it: `parse_encodes` for a message that is nothing but whole attributes,
`attributes_encodes_append` for what parsing makes of octets behind them, and
`verifyMessageIntegrity_of_encodes` for the one place the integrity check looks at. The builder
emits such lists (`finish_header` of `Stun/RoundTrip.lean`).
-/

set_option autoImplicit false

namespace SiphonRtp.Stun

open Machine Datapath

/-! ### The wire format -/

/-- The keyed hash of MESSAGE-INTEGRITY and the checksum of FINGERPRINT. -/
structure Digests where
  hmacSha1 : Bytes → Bytes → Vector UInt8 20
  crc32 : Bytes → UInt32

/-- The 96-bit transaction id. -/
abbrev TransactionId := Vector UInt8 12

/-- An attribute: its type and its value. -/
abbrev Attribute := UInt16 × Bytes

def magicCookie : UInt32 := 0x2112A442

def headerLen : ℕ := 20

def bindingRequest : UInt16 := 0x0001
def bindingSuccess : UInt16 := 0x0101
def bindingError : UInt16 := 0x0111

def attrUsername : UInt16 := 0x0006
def attrMessageIntegrity : UInt16 := 0x0008
def attrErrorCode : UInt16 := 0x0009
def attrXorMappedAddress : UInt16 := 0x0020
def attrPriority : UInt16 := 0x0024
def attrUseCandidate : UInt16 := 0x0025
def attrFingerprint : UInt16 := 0x8028
def attrIceControlled : UInt16 := 0x8029
def attrIceControlling : UInt16 := 0x802A

/-- XOR applied to the CRC-32 of FINGERPRINT. -/
def fingerprintXor : UInt32 := 0x5354554E

inductive StunError
  | tooShort
  | badCookie
  | badLength
deriving DecidableEq

/-- A parsed message: its type, transaction id and attributes in wire order. -/
structure StunMessage where
  messageType : UInt16
  transactionId : TransactionId
  attributes : List Attribute
deriving DecidableEq

/-- The octets of padding behind a value of `length` octets. -/
def padding (length : ℕ) : ℕ := (4 - length % 4) % 4

/-! ### Parsing -/

/-- The attribute loop of `parse` over the octets up to the declared end. Each turn consumes four
octets or more, so the length of the octets is fuel enough (`attributesFrom_of_le`). -/
def attributesFrom : ℕ → Bytes → Except StunError (List Attribute)
  | 0, _ => .ok []
  | fuel + 1, rest =>
    if rest.length < 4 then .ok []
    else
      let length := (readU16 rest 2).toNat
      if rest.length < 4 + length then .error .badLength
      else (attributesFrom fuel (rest.drop (4 + length + padding length))).map
        ((readU16 rest 0, (rest.drop 4).take length) :: ·)

/-- The attributes of a message body. -/
def attributes (body : Bytes) : Except StunError (List Attribute) :=
  attributesFrom body.length body

/-- `stun::parse`. -/
def parse (data : Bytes) : Except StunError StunMessage :=
  if data.length < headerLen then .error .tooShort
  else if readU32 data 4 ≠ magicCookie then .error .badCookie
  else
    let stop := headerLen + (readU16 data 2).toNat
    if data.length < stop then .error .badLength
    else (attributes ((data.take stop).drop headerLen)).map fun attributes ↦
      { messageType := readU16 data 0
        transactionId := Vector.ofFn fun position ↦ octet data (8 + position)
        attributes := attributes }

def StunMessage.isBindingRequest (message : StunMessage) : Bool :=
  message.messageType == bindingRequest

/-- The value of the first attribute of a type. -/
def StunMessage.attribute (message : StunMessage) (attrType : UInt16) : Option Bytes :=
  (message.attributes.find? fun entry ↦ entry.1 == attrType).map (·.2)

/-- One octet of a UTF-8 decoder. The state is the list of ranges that the octets still owed to the
current character must fall into. -/
def utf8Step (owed : List (UInt8 × UInt8)) (byte : UInt8) : Option (List (UInt8 × UInt8)) :=
  match owed with
  | (low, high) :: owed => if low ≤ byte ∧ byte ≤ high then some owed else none
  | [] =>
    let continuation : UInt8 × UInt8 := (0x80, 0xBF)
    if byte ≤ 0x7F then some []
    else if 0xC2 ≤ byte ∧ byte ≤ 0xDF then some [continuation]
    else if byte = 0xE0 then some [(0xA0, 0xBF), continuation]
    else if byte = 0xED then some [(0x80, 0x9F), continuation]
    else if 0xE1 ≤ byte ∧ byte ≤ 0xEF then some [continuation, continuation]
    else if byte = 0xF0 then some [(0x90, 0xBF), continuation, continuation]
    else if 0xF1 ≤ byte ∧ byte ≤ 0xF3 then some [continuation, continuation, continuation]
    else if byte = 0xF4 then some [(0x80, 0x8F), continuation, continuation]
    else none

/-- Whether the octets are UTF-8, what `str::from_utf8` accepts. -/
def isUtf8 (bytes : Bytes) : Bool := decide (bytes.foldlM utf8Step [] = some [])

/-- The USERNAME, if there is one and it is UTF-8. -/
def StunMessage.username (message : StunMessage) : Option Bytes :=
  (message.attribute attrUsername).filter isUtf8

/-! ### Addresses -/

/-- The 128-bit key of XOR addresses of the second family: the cookie, then the transaction id. -/
def xorKey (id : TransactionId) : BitVec 128 :=
  BitVec.ofNat 128 (fromBe (toBe 4 magicCookie.toNat ++ id.toList))

def SocketAddr.port : SocketAddr → UInt16
  | .v4 _ port => port
  | .v6 _ port _ _ => port

/-- `encode_xor_mapped_address`. -/
def encodeXorMappedAddress (address : SocketAddr) (id : TransactionId) : Bytes :=
  let xport := SocketAddr.port address ^^^ (magicCookie >>> 16).toUInt16
  match address with
  | .v4 ip _ => 0 :: 0x01 :: toBe 2 xport.toNat ++ toBe 4 (ip ^^^ magicCookie.toBitVec).toNat
  | .v6 ip _ _ _ => 0 :: 0x02 :: toBe 2 xport.toNat ++ toBe 16 (ip ^^^ xorKey id).toNat

/-- `decode_xor_mapped_address`. The address it builds has no flow information and no scope. -/
def decodeXorMappedAddress (value : Bytes) (id : TransactionId) : Option SocketAddr :=
  if value.length < 4 then none
  else
    let port := readU16 value 2 ^^^ (magicCookie >>> 16).toUInt16
    if octet value 1 = 0x01 then
      if value.length < 8 then none
      else some (.v4 ((readU32 value 4).toBitVec ^^^ magicCookie.toBitVec) port)
    else if octet value 1 = 0x02 then
      if value.length < 20 then none
      else some (.v6 (BitVec.ofNat 128 (fromBe ((value.drop 4).take 16)) ^^^ xorKey id) port 0 0)
    else none

def StunMessage.xorMappedAddress (message : StunMessage) : Option SocketAddr :=
  (message.attribute attrXorMappedAddress).bind (decodeXorMappedAddress · message.transactionId)

/-! ### Building -/

/-- `set_length`: the length field rewritten, modulo its sixteen bits. -/
def setLength (message : Bytes) (length : ℕ) : Bytes :=
  message.take 2 ++ (toBe 2 length ++ message.drop 4)

/-- The octets of an attribute, padded with zeros. -/
def encodeAttribute (attrType : UInt16) (value : Bytes) : Bytes :=
  toBe 2 attrType.toNat ++
    (toBe 2 value.length ++ (value ++ List.replicate (padding value.length) 0))

/-- `push_attribute`. -/
def pushAttribute (message : Bytes) (attrType : UInt16) (value : Bytes) : Bytes :=
  message ++ encodeAttribute attrType value

/-- The fixed header. -/
def header (messageType : UInt16) (length : ℕ) (id : TransactionId) : Bytes :=
  toBe 2 messageType.toNat ++ (toBe 2 length ++ (toBe 4 magicCookie.toNat ++ id.toList))

structure MessageBuilder where
  message : Bytes

/-- `MessageBuilder::new`, with a placeholder for the length. -/
def MessageBuilder.new (messageType : UInt16) (id : TransactionId) : MessageBuilder :=
  ⟨header messageType 0 id⟩

def MessageBuilder.attribute (builder : MessageBuilder) (attrType : UInt16) (value : Bytes) :
    MessageBuilder :=
  ⟨pushAttribute builder.message attrType value⟩

/-- `MessageBuilder::finish`. -/
def MessageBuilder.finish (digests : Digests) (builder : MessageBuilder)
    (integrityKey : Option Bytes) (fingerprint : Bool) : Bytes :=
  let message := match integrityKey with
    | some key =>
      let sized := setLength builder.message (builder.message.length - headerLen + 24)
      pushAttribute sized attrMessageIntegrity (digests.hmacSha1 key sized).toList
    | none => builder.message
  let message :=
    if fingerprint then
      let sized := setLength message (message.length - headerLen + 8)
      pushAttribute sized attrFingerprint
        (toBe 4 (digests.crc32 sized ^^^ fingerprintXor).toNat)
    else message
  setLength message (message.length - headerLen)

/-- `binding_success_response`. -/
def bindingSuccessResponse (digests : Digests) (id : TransactionId) (mapped : SocketAddr)
    (integrityKey : Option Bytes) : Bytes :=
  ((MessageBuilder.new bindingSuccess id).attribute attrXorMappedAddress
    (encodeXorMappedAddress mapped id)).finish digests integrityKey true

/-! ### Integrity -/

/-- The attribute loop of `verify_message_integrity`: it skips whole attributes up to the first
MESSAGE-INTEGRITY and compares that one with the hash of the octets before it, the length field
rewound to what it was when the hash was taken. -/
def verifyFrom (digests : Digests) (raw key : Bytes) (stop : ℕ) : ℕ → ℕ → Bool
  | 0, _ => false
  | fuel + 1, offset =>
    if stop < offset + 4 then false
    else
      let length := (readU16 raw (offset + 2)).toNat
      if readU16 raw offset = attrMessageIntegrity then
        if length ≠ 20 ∨ raw.length < offset + 24 then false
        else decide ((raw.drop (offset + 4)).take 20 =
          (digests.hmacSha1 key (setLength (raw.take offset) (offset - headerLen + 24))).toList)
      else verifyFrom digests raw key stop fuel (offset + 4 + length + padding length)

/-- `verify_message_integrity`. Each turn of the loop moves at least four octets on, so the length
of the message is fuel enough. -/
def verifyMessageIntegrity (digests : Digests) (raw key : Bytes) : Bool :=
  if raw.length < headerLen ∨ readU32 raw 4 ≠ magicCookie then false
  else
    let stop := headerLen + (readU16 raw 2).toNat
    if raw.length < stop then false
    else verifyFrom digests raw key stop raw.length headerLen

/-! ### Attribute lists -/

/-- The octets of a list of whole attributes, each with its padding, whatever the padding holds. -/
inductive Encodes : Bytes → List Attribute → Prop
  | nil : Encodes [] []
  | cons {attrType : UInt16} {value pad rest : Bytes} {others : List Attribute}
      (hvalue : value.length < 2 ^ 16) (hpad : pad.length = padding value.length)
      (hrest : Encodes rest others) :
      Encodes (toBe 2 attrType.toNat ++ (toBe 2 value.length ++ (value ++ (pad ++ rest))))
        ((attrType, value) :: others)

theorem Encodes.append {first second : Bytes} {firsts seconds : List Attribute}
    (hfirst : Encodes first firsts) (hsecond : Encodes second seconds) :
    Encodes (first ++ second) (firsts ++ seconds) := by
  induction hfirst with
  | nil => exact hsecond
  | cons hvalue hpad _ ih =>
    simp only [List.append_assoc]
    exact .cons hvalue hpad ih

theorem encodes_encodeAttribute {attrType : UInt16} {value : Bytes}
    (hvalue : value.length < 2 ^ 16) :
    Encodes (encodeAttribute attrType value) [(attrType, value)] := by
  have hcons := @Encodes.cons attrType value (List.replicate (padding value.length) 0) [] [] hvalue
    List.length_replicate .nil
  rwa [List.append_nil] at hcons

theorem length_encodeAttribute (attrType : UInt16) (value : Bytes) :
    (encodeAttribute attrType value).length = 4 + value.length + padding value.length := by
  simp only [encodeAttribute, List.length_append, length_toBe, List.length_replicate]
  omega

theorem four_mul_length_le_of_encodes {body : Bytes} {entries : List Attribute}
    (hbody : Encodes body entries) : 4 * entries.length ≤ body.length := by
  induction hbody with
  | nil => rfl
  | cons _ _ _ ih =>
    simp only [List.length_cons, List.length_append, length_toBe]
    omega

/-- The two fields at the head of an attribute. -/
theorem readU16_attribute (attrType : UInt16) {value : Bytes} (hvalue : value.length < 2 ^ 16)
    (rest : Bytes) :
    readU16 (toBe 2 attrType.toNat ++ (toBe 2 value.length ++ rest)) 0 = attrType ∧
      (readU16 (toBe 2 attrType.toNat ++ (toBe 2 value.length ++ rest)) 2).toNat =
        value.length := by
  constructor
  · simp
  · have hright := readU16_append_right (toBe 2 attrType.toNat) (toBe 2 value.length ++ rest) 0
    rw [length_toBe] at hright
    rw [hright, readU16_toBe, UInt16.toNat_ofNat', Nat.mod_eq_of_lt hvalue]

theorem drop_attribute (attrType : UInt16) (value pad rest : Bytes)
    (hpad : pad.length = padding value.length) :
    (toBe 2 attrType.toNat ++ (toBe 2 value.length ++ (value ++ (pad ++ rest)))).drop
      (4 + value.length + padding value.length) = rest := by
  simp only [← List.append_assoc]
  apply List.drop_left'
  simp only [List.length_append, length_toBe, hpad]

/-- One turn of the attribute loop consumes one whole attribute. -/
theorem attributesFrom_cons (fuel : ℕ) (attrType : UInt16) {value pad : Bytes} (rest : Bytes)
    (hvalue : value.length < 2 ^ 16) (hpad : pad.length = padding value.length) :
    attributesFrom (fuel + 1)
        (toBe 2 attrType.toNat ++ (toBe 2 value.length ++ (value ++ (pad ++ rest)))) =
      (attributesFrom fuel rest).map ((attrType, value) :: ·) := by
  obtain ⟨htype, hlength⟩ := readU16_attribute attrType hvalue (value ++ (pad ++ rest))
  have htaken : ((toBe 2 attrType.toNat ++ (toBe 2 value.length ++ (value ++ (pad ++ rest)))).drop
      4).take value.length = value := by
    rw [← List.append_assoc, List.drop_left' (by simp), List.take_left' rfl]
  rw [attributesFrom, if_neg (by simp only [List.length_append, length_toBe]; omega)]
  rw [htype, hlength, if_neg (by simp only [List.length_append, length_toBe]; omega), htaken,
    drop_attribute attrType value pad rest hpad]

/-- Whole attributes are read one by one, whatever stands behind them. -/
theorem attributesFrom_encodes_append {body : Bytes} {entries : List Attribute}
    (hbody : Encodes body entries) (fuel : ℕ) (rest : Bytes) :
    attributesFrom (entries.length + fuel) (body ++ rest) =
      (attributesFrom fuel rest).map (entries ++ ·) := by
  induction hbody with
  | nil =>
    rw [List.length_nil, Nat.zero_add, List.nil_append]
    cases attributesFrom fuel rest with
    | error => rfl
    | ok => rfl
  | @cons attrType value pad tail others hvalue hpad _ ih =>
    have hfuel : ((attrType, value) :: others).length + fuel = (others.length + fuel) + 1 := by
      rw [List.length_cons]
      omega
    simp only [List.append_assoc]
    rw [hfuel, attributesFrom_cons _ attrType (tail ++ rest) hvalue hpad, ih]
    cases attributesFrom fuel rest with
    | error => rfl
    | ok => rfl

/-- More fuel than octets changes nothing. -/
theorem attributesFrom_of_le {rest : Bytes} {fuel : ℕ} (hfuel : rest.length ≤ fuel) :
    attributesFrom fuel rest = attributes rest := by
  induction fuel using Nat.strong_induction_on generalizing rest with
  | _ fuel ih =>
    unfold attributes
    cases fuel with
    | zero =>
      have hempty : rest.length = 0 := Nat.le_zero.mp hfuel
      rw [hempty]
    | succ fuel =>
      by_cases hshort : rest.length < 4
      · cases hlength : rest.length with
        | zero => simp [attributesFrom, hlength]
        | succ count => simp [attributesFrom, hshort]
      · obtain ⟨count, hcount⟩ : ∃ count, rest.length = count + 1 := ⟨rest.length - 1, by omega⟩
        rw [hcount, attributesFrom, attributesFrom, if_neg hshort, if_neg hshort]
        dsimp only
        -- both recursive calls are on the octets behind this attribute, at least four fewer
        have hdropped : (rest.drop (4 + (readU16 rest 2).toNat +
            padding (readU16 rest 2).toNat)).length ≤ min fuel count := by
          rw [List.length_drop]
          omega
        rw [ih fuel (Nat.lt_succ_self fuel) (hdropped.trans (Nat.min_le_left _ _)),
          ih count (by omega) (hdropped.trans (Nat.min_le_right _ _))]

theorem attributes_encodes_append {body : Bytes} {entries : List Attribute}
    (hbody : Encodes body entries) (rest : Bytes) :
    attributes (body ++ rest) = (attributes rest).map (entries ++ ·) := by
  have hlength := four_mul_length_le_of_encodes hbody
  obtain ⟨fuel, hfuel⟩ : ∃ fuel, (body ++ rest).length = entries.length + fuel :=
    ⟨(body ++ rest).length - entries.length, by rw [List.length_append]; omega⟩
  have hle : rest.length ≤ fuel := by
    rw [List.length_append] at hfuel
    omega
  rw [attributes, hfuel, attributesFrom_encodes_append hbody fuel rest, attributesFrom_of_le hle]

/-- An attribute that is cut off behind its head. -/
theorem attributes_cut (attrType : UInt16) {value : Bytes} (hvalue : value.length < 2 ^ 16)
    (rest : Bytes) {stop : ℕ} (hhead : 4 ≤ stop) (hcut : stop < 4 + value.length) :
    attributes ((toBe 2 attrType.toNat ++ (toBe 2 value.length ++ rest)).take stop) =
      .error .badLength := by
  have htake : (toBe 2 attrType.toNat ++ (toBe 2 value.length ++ rest)).take stop =
      toBe 2 attrType.toNat ++ (toBe 2 value.length ++ rest.take (stop - 4)) := by
    rw [← List.append_assoc, List.take_append, List.take_of_length_le (by simp [hhead])]
    simp
  obtain ⟨_, hlength⟩ := readU16_attribute attrType hvalue (rest.take (stop - 4))
  have hsize : (toBe 2 attrType.toNat ++ (toBe 2 value.length ++ rest.take (stop - 4))).length =
      4 + (rest.take (stop - 4)).length := by
    simp only [List.length_append, length_toBe]
    omega
  rw [htake, attributes, hsize, Nat.add_comm 4, attributesFrom, if_neg (by omega)]
  rw [if_pos (by rw [hsize, List.length_take]; omega)]

/-! ### Reading a message -/

section Header

variable (messageType : UInt16) (length : ℕ) (id : TransactionId) (rest : Bytes)

@[simp] theorem length_header : (header messageType length id).length = headerLen := by
  simp [header, headerLen]

theorem readU16_header_type : readU16 (header messageType length id ++ rest) 0 = messageType := by
  simp [header]

theorem readU16_header_length :
    readU16 (header messageType length id ++ rest) 2 = UInt16.ofNat length := by
  have hright := readU16_append_right (toBe 2 messageType.toNat)
    (toBe 2 length ++ (toBe 4 magicCookie.toNat ++ (id.toList ++ rest))) 0
  rw [length_toBe, readU16_toBe] at hright
  simpa only [header, List.append_assoc] using hright

theorem readU32_header_cookie :
    readU32 (header messageType length id ++ rest) 4 = magicCookie := by
  have hright := readU32_append_right (toBe 2 messageType.toNat ++ toBe 2 length)
    (toBe 4 magicCookie.toNat ++ (id.toList ++ rest)) 0
  simp only [List.length_append, length_toBe, readU32_toBe, UInt32.ofNat_toNat] at hright
  simpa only [header, List.append_assoc] using hright

theorem transactionId_header :
    (Vector.ofFn fun position : Fin 12 ↦
      octet (header messageType length id ++ rest) (8 + position)) = id := by
  ext position hposition
  have hshape : header messageType length id ++ rest =
      (toBe 2 messageType.toNat ++ (toBe 2 length ++ toBe 4 magicCookie.toNat)) ++
        (id.toList ++ rest) := by
    simp only [header, List.append_assoc]
  have hright := octet_append_right
    (toBe 2 messageType.toNat ++ (toBe 2 length ++ toBe 4 magicCookie.toNat))
    (id.toList ++ rest) position
  simp only [List.length_append, length_toBe] at hright
  rw [Vector.getElem_ofFn, hshape, hright, octet_append_left (by simpa using hposition)]
  simp [octet, hposition]

/-- Rewriting the length field of a message. -/
theorem setLength_header (newLength : ℕ) :
    setLength (header messageType length id ++ rest) newLength =
      header messageType newLength id ++ rest := by
  have htake : (header messageType length id ++ rest).take 2 = toBe 2 messageType.toNat := by
    simp only [header, List.append_assoc]
    rw [List.take_left' (length_toBe _ _)]
  have hdrop : (header messageType length id ++ rest).drop 4 =
      toBe 4 magicCookie.toNat ++ (id.toList ++ rest) := by
    simp only [header, List.append_assoc]
    rw [← List.append_assoc, List.drop_left' (by simp)]
  rw [setLength, htake, hdrop]
  simp only [header, List.append_assoc]

end Header

/-- Parsing a message that starts with whole attributes, by what its declared length covers of the
octets behind them. -/
theorem parse_encodes_append (messageType : UInt16) (id : TransactionId) {length : ℕ}
    {body tail : Bytes} {entries : List Attribute} (hbody : Encodes body entries)
    (hlength : length < 2 ^ 16) (hcovers : body.length ≤ length)
    (hinside : length ≤ body.length + tail.length) :
    parse (header messageType length id ++ (body ++ tail)) =
      (attributes (tail.take (length - body.length))).map
        fun more ↦ ⟨messageType, id, entries ++ more⟩ := by
  have hdeclared : (UInt16.ofNat length).toNat = length := by
    rw [UInt16.toNat_ofNat', Nat.mod_eq_of_lt hlength]
  have htaken : (((header messageType length id ++ (body ++ tail)).take
      (headerLen + length)).drop headerLen) = body ++ tail.take (length - body.length) := by
    rw [List.drop_take, List.drop_left' (length_header messageType length id),
      Nat.add_sub_cancel_left, List.take_append, List.take_of_length_le hcovers]
  unfold parse
  rw [if_neg (by simp), readU32_header_cookie, if_neg (not_not.mpr rfl), readU16_header_length,
    hdeclared]
  rw [if_neg (by simp only [List.length_append, length_header]; omega), htaken,
    attributes_encodes_append hbody, readU16_header_type, transactionId_header]
  cases attributes (tail.take (length - body.length)) with
  | error => rfl
  | ok => rfl

/-- A message of whole attributes is read back, whatever follows it in the datagram. -/
theorem parse_encodes (messageType : UInt16) (id : TransactionId) {body : Bytes}
    {entries : List Attribute} (hbody : Encodes body entries) (hlength : body.length < 2 ^ 16)
    (tail : Bytes) :
    parse (header messageType body.length id ++ (body ++ tail)) =
      .ok ⟨messageType, id, entries⟩ := by
  rw [parse_encodes_append messageType id hbody hlength le_rfl (Nat.le_add_right _ _)]
  simp [attributes, attributesFrom, Except.map]

/-! ### What the integrity check reads -/

/-- One turn of the check over a whole attribute of another type. -/
theorem verifyFrom_cons (digests : Digests) (key : Bytes) {attrType : UInt16} {value pad : Bytes}
    (hvalue : value.length < 2 ^ 16) (hpad : pad.length = padding value.length)
    (hother : attrType ≠ attrMessageIntegrity) (first rest : Bytes) (stop : ℕ)
    (hstop : first.length + 4 ≤ stop) (fuel : ℕ) :
    let skipped := toBe 2 attrType.toNat ++ (toBe 2 value.length ++ (value ++ pad))
    verifyFrom digests (first ++ (skipped ++ rest)) key stop (fuel + 1) first.length =
      verifyFrom digests ((first ++ skipped) ++ rest) key stop fuel (first ++ skipped).length := by
  intro skipped
  obtain ⟨htype, hlength⟩ := readU16_attribute attrType hvalue (value ++ (pad ++ rest))
  have hskipped : skipped ++ rest =
      toBe 2 attrType.toNat ++ (toBe 2 value.length ++ (value ++ (pad ++ rest))) := by
    simp only [skipped, List.append_assoc]
  have hhead := readU16_append_right first (skipped ++ rest) 0
  rw [Nat.add_zero, hskipped, htype, ← hskipped] at hhead
  have hread : (readU16 (first ++ (skipped ++ rest)) (first.length + 2)).toNat = value.length := by
    rw [readU16_append_right, hskipped, hlength]
  have hoffset : first.length + 4 + value.length + padding value.length =
      (first ++ skipped).length := by
    simp only [skipped, List.length_append, length_toBe]
    omega
  rw [verifyFrom, if_neg (Nat.not_lt.mpr hstop)]
  rw [hhead, if_neg hother, hread, hoffset, List.append_assoc first skipped rest]

/-- The check passes over whole attributes of other types. -/
theorem verifyFrom_encodes (digests : Digests) (key : Bytes) {before : Bytes}
    {entries : List Attribute} (hbefore : Encodes before entries)
    (hother : ∀ entry ∈ entries, entry.1 ≠ attrMessageIntegrity) (first rest : Bytes)
    (stop : ℕ) (hstop : first.length + before.length ≤ stop) (fuel : ℕ) :
    verifyFrom digests (first ++ (before ++ rest)) key stop (entries.length + fuel) first.length =
      verifyFrom digests ((first ++ before) ++ rest) key stop fuel (first ++ before).length := by
  induction hbefore generalizing first with
  | nil => simp
  | @cons attrType value pad tail others hvalue hpad _ ih =>
    have hfuel : ((attrType, value) :: others).length + fuel = (others.length + fuel) + 1 := by
      rw [List.length_cons]
      omega
    have hstep := verifyFrom_cons digests key hvalue hpad
      (hother (attrType, value) List.mem_cons_self) first (tail ++ rest) stop
      (by simp only [List.length_append, length_toBe] at hstop; omega) (others.length + fuel)
    have hmoved := ih (fun entry hentry ↦ hother entry (List.mem_cons_of_mem _ hentry))
      (first ++ (toBe 2 attrType.toNat ++ (toBe 2 value.length ++ (value ++ pad))))
      (by simp only [List.length_append] at hstop ⊢; omega)
    rw [hfuel]
    simp only [List.append_assoc] at hstep hmoved ⊢
    rw [hstep, hmoved]

/-- A message that ends before its MESSAGE-INTEGRITY has none. -/
theorem verifyFrom_encodes_of_lt (digests : Digests) (key : Bytes) {before : Bytes}
    {entries : List Attribute} (hbefore : Encodes before entries)
    (hother : ∀ entry ∈ entries, entry.1 ≠ attrMessageIntegrity) (first rest : Bytes)
    (stop : ℕ) (hstop : stop < first.length + before.length + 4) (fuel : ℕ) :
    verifyFrom digests (first ++ (before ++ rest)) key stop fuel first.length = false := by
  induction hbefore generalizing first fuel with
  | nil =>
    cases fuel with
    | zero => rfl
    | succ fuel => rw [verifyFrom, if_pos (by simpa using hstop)]
  | @cons attrType value pad tail others hvalue hpad _ ih =>
    cases fuel with
    | zero => rfl
    | succ fuel =>
      by_cases hend : stop < first.length + 4
      · rw [verifyFrom, if_pos hend]
      · have hstep := verifyFrom_cons digests key hvalue hpad
          (hother (attrType, value) List.mem_cons_self) first (tail ++ rest) stop
          (Nat.not_lt.mp hend) fuel
        have hmoved := ih (fun entry hentry ↦ hother entry (List.mem_cons_of_mem _ hentry))
          (first ++ (toBe 2 attrType.toNat ++ (toBe 2 value.length ++ (value ++ pad))))
          (by simp only [List.length_append] at hstop ⊢; omega) fuel
        simp only [List.append_assoc] at hstep hmoved ⊢
        rw [hstep, hmoved]

theorem length_integrity (mac : Vector UInt8 20) :
    (encodeAttribute attrMessageIntegrity mac.toList).length = 24 := by
  simp [length_encodeAttribute, padding]

/-- The turn of the check that finds the MESSAGE-INTEGRITY. -/
theorem verifyFrom_integrity (digests : Digests) (key first tail : Bytes) (mac : Vector UInt8 20)
    {stop : ℕ} (hstop : first.length + 4 ≤ stop) (fuel : ℕ) :
    verifyFrom digests (first ++ (encodeAttribute attrMessageIntegrity mac.toList ++ tail)) key
        stop (fuel + 1) first.length =
      decide (mac = digests.hmacSha1 key (setLength first (first.length - headerLen + 24))) := by
  have hshape : encodeAttribute attrMessageIntegrity mac.toList ++ tail =
      toBe 2 attrMessageIntegrity.toNat ++
        (toBe 2 mac.toList.length ++ (mac.toList ++ tail)) := by
    simp [encodeAttribute, padding]
  obtain ⟨htype, hlength⟩ := readU16_attribute attrMessageIntegrity
    (show mac.toList.length < 2 ^ 16 by simp) (mac.toList ++ tail)
  have hhead := readU16_append_right first
    (encodeAttribute attrMessageIntegrity mac.toList ++ tail) 0
  rw [Nat.add_zero] at hhead
  have hprovided : ((first ++ (encodeAttribute attrMessageIntegrity mac.toList ++ tail)).drop
      (first.length + 4)).take 20 = mac.toList := by
    rw [List.drop_append, List.drop_eq_nil_of_le (by omega), List.nil_append, hshape,
      Nat.add_sub_cancel_left, ← List.append_assoc, List.drop_left' (by simp),
      List.take_left' (by simp)]
  rw [verifyFrom, if_neg (Nat.not_lt.mpr hstop)]
  rw [hhead, hprovided, readU16_append_right, hshape, htype, hlength, if_pos rfl,
    if_neg (by simp; omega)]
  simp [Vector.toList_inj]

/-- The check of a message with a MESSAGE-INTEGRITY behind whole attributes of other types: the
header has to declare the attribute and stay inside the datagram, and then only the octets up to the
attribute count. -/
theorem verifyMessageIntegrity_of_encodes (digests : Digests) (key : Bytes)
    (messageType : UInt16) (id : TransactionId) {length : ℕ} (hlength : length < 2 ^ 16)
    {before tail : Bytes} {entries : List Attribute} (hbefore : Encodes before entries)
    (hother : ∀ entry ∈ entries, entry.1 ≠ attrMessageIntegrity) (mac : Vector UInt8 20) :
    verifyMessageIntegrity digests (header messageType length id ++
        (before ++ (encodeAttribute attrMessageIntegrity mac.toList ++ tail))) key =
      decide (before.length + 4 ≤ length ∧ length ≤ before.length + 24 + tail.length ∧
        mac = digests.hmacSha1 key (header messageType (before.length + 24) id ++ before)) := by
  have hdeclared : (UInt16.ofNat length).toNat = length := by
    rw [UInt16.toNat_ofNat', Nat.mod_eq_of_lt hlength]
  have hmac := length_integrity mac
  have hheader := length_header messageType length id
  unfold verifyMessageIntegrity
  rw [readU32_header_cookie, if_neg (by simp), readU16_header_length, hdeclared]
  by_cases hinside : length ≤ before.length + 24 + tail.length
  swap
  · rw [if_pos (by simp only [List.length_append]; omega)]
    simp [hinside]
  rw [if_neg (by simp only [List.length_append, hheader]; omega)]
  by_cases hcovers : before.length + 4 ≤ length
  swap
  · have hnone := verifyFrom_encodes_of_lt digests key hbefore hother
      (header messageType length id) (encodeAttribute attrMessageIntegrity mac.toList ++ tail)
      (headerLen + length) (by omega)
    rw [hheader] at hnone
    rw [hnone]
    simp [hcovers]
  -- the fuel left when the attributes before the hash have been passed over
  have hcount := four_mul_length_le_of_encodes hbefore
  obtain ⟨fuel, hfuel⟩ : ∃ fuel, (header messageType length id ++ (before ++
      (encodeAttribute attrMessageIntegrity mac.toList ++ tail))).length =
        entries.length + (fuel + 1) :=
    ⟨headerLen + before.length + 24 + tail.length - entries.length - 1, by
      simp only [List.length_append]; omega⟩
  have hpassed := verifyFrom_encodes digests key hbefore hother (header messageType length id)
    (encodeAttribute attrMessageIntegrity mac.toList ++ tail) (headerLen + length)
    (by omega) (fuel + 1)
  have hsized : (header messageType length id ++ before).length - headerLen + 24 =
      before.length + 24 := by
    rw [List.length_append]
    omega
  rw [hheader] at hpassed
  rw [hfuel, hpassed, verifyFrom_integrity digests key (header messageType length id ++ before)
    tail mac (by omega) fuel, setLength_header]
  simp [hinside, hcovers]

end SiphonRtp.Stun
